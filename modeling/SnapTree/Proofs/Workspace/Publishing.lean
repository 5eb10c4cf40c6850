import SnapTree.Proofs.Storage.Answers
import SnapTree.Proofs.Workspace.Publication

/-
  This file proves that of several solutions published one
  after another, a store holds all those whose publication
  ended well, although others were given up half way.

  Key definitions include:
    * `Sink`
    * `Sink.publishAll`

  Key theorems include:
    * `Sink.publish_keeps`
    * `Sink.publishAll_keeps`
    * `Sink.publishAll_onDisk`
-/

namespace SnapTree

/-
  Something that assets are put into on their way to a store.
  It may fail where the store would not, but it does not claim
  that something was put when it was not.  When it fails, it
  may leave anything outside the objects of a directory.
-/
structure Sink
    [Compression]
    (σ : Type) where
  put : Checksum → Asset → ExceptT AssetError (StateM σ) Unit
  store : σ → Store
  put_ok :
    ∀ c a u, (outcome (put c a) u).1 = .ok () →
      ∃ w,
        outcome (Store.attempt w c a) (store u) =
          (.ok (), store (outcome (put c a) u).2)
  put_error :
    ∀ c a u e, (outcome (put c a) u).1 = .error e →
      Store.LeftBy c a (store u) (store (outcome (put c a) u).2)

namespace Sink

variable [Compression]

/-
  A store on a disk that takes what is written as given, as far
  as anything is given, and then does not fail any more.
-/
def onDisk : Sink (Store × List DiskWrite) where
  put c a := ExceptT.mk (fun u =>
    let attempt :=
      outcome (Store.attempt (u.2.headD {}) c a) u.1
    (attempt.1, (attempt.2, u.2.tail)))
  store := Prod.fst
  put_ok _ _ u hOk := ⟨u.2.headD {}, Prod.ext hOk rfl⟩
  put_error _ _ _ _ hFailed :=
    Store.leftBy_of_error (Prod.ext hFailed rfl)

variable {σ : Type} (sink : Sink σ)

/-
  Publish solutions one after another, whatever comes of each.
-/
def publishAll :
    List Solution → σ → List (Except AssetError Checksum) × σ
  | [], u => ([], u)
  | s :: rest, u =>
      let published := outcome (s.publish sink.put) u
      let others := publishAll rest published.2
      (published.1 :: others.1, others.2)

variable
  {sink}
  {P : Checksum → Asset → Prop}

/- A put keeps what the store holds, however it ends. -/
theorem put_keeps
    {c : Checksum}
    {a : Asset}
    {u : σ}
    (hKeeps : (sink.store u).Keeps P)
    (hSuits : P c a) :
    (sink.store (outcome (sink.put c a) u).2).Keeps P ∧
      (sink.store u).Grows
          (sink.store (outcome (sink.put c a) u).2) ∧
        ((outcome (sink.put c a) u).1 = .ok () →
          ∃ b, P c b ∧
            (sink.store (outcome (sink.put c a) u).2).Has c b) := by
  cases hResult : (outcome (sink.put c a) u).1 with
  | ok _ =>
      rcases sink.put_ok c a u hResult with ⟨w, hPut⟩
      rcases hKeeps.attempt w hSuits with ⟨hKept, hGrows, hHas⟩
      rw [hPut] at hKept hGrows hHas
      exact ⟨hKept, hGrows, hHas⟩
  | error e =>
      rcases (sink.put_error c a u e hResult).keeps hKeeps hSuits
        with ⟨hKept, hGrows⟩
      exact ⟨hKept, hGrows, fun hOk => nomatch hOk⟩

/- Entries that are all put are all held, and stay so. -/
theorem forM_put_keeps
    {entries : List (Checksum × Asset)}
    {u : σ}
    (hKeeps : (sink.store u).Keeps P)
    (hSuit : ∀ entry ∈ entries, P entry.1 entry.2) :
    let put :=
      outcome
        (entries.forM (fun entry => sink.put entry.1 entry.2)) u
    (sink.store put.2).Keeps P ∧
      (sink.store u).Grows (sink.store put.2) ∧
        (put.1 = .ok () →
          ∀ entry ∈ entries,
            ∃ b, P entry.1 b ∧ (sink.store put.2).Has entry.1 b) := by
  induction entries generalizing u with
  | nil =>
      exact ⟨hKeeps, Store.Grows.refl _, fun _ _ h => nomatch h⟩
  | cons entry rest ih =>
      rcases put_keeps hKeeps (hSuit entry List.mem_cons_self)
        with ⟨hKept, hGrows, hHas⟩
      rw [outcome_forM_cons]
      revert hKept hGrows hHas
      cases outcome (sink.put entry.1 entry.2) u with
      | mk result v =>
          intro hKept hGrows hHas
          cases result with
          | error e =>
              exact ⟨hKept, hGrows, fun hOk => nomatch hOk⟩
          | ok _ =>
              rcases ih hKept
                  (fun e hE => hSuit e (List.mem_cons_of_mem _ hE))
                with ⟨hEnd, hMore, hAll⟩
              refine ⟨hEnd, hGrows.trans hMore, ?_⟩
              intro hOk e hE
              rcases List.mem_cons.1 hE with rfl | hE
              · rcases hHas rfl with ⟨b, hSuits, hHeld⟩
                exact ⟨b, hSuits, hMore _ b hHeld⟩
              · exact hAll hOk e hE

/-
  Publishing keeps what the store holds.  If it ends well, the
  root is returned, and all entries are held.
-/
theorem publish_keeps
    {s : Solution}
    {u : σ}
    (hKeeps : (sink.store u).Keeps P)
    (hSuit : ∀ entry ∈ s.publication, P entry.1 entry.2) :
    let published := outcome (s.publish sink.put) u
    (sink.store published.2).Keeps P ∧
      (sink.store u).Grows (sink.store published.2) ∧
        ∀ root, published.1 = .ok root →
          root = s.checksum ∧
            ∀ entry ∈ s.publication,
              ∃ b, P entry.1 b ∧
                (sink.store published.2).Has entry.1 b := by
  have hPut := forM_put_keeps hKeeps hSuit
  unfold Solution.publish
  rw [outcome_bind]
  revert hPut
  cases outcome
      (s.publication.forM
        (fun entry => sink.put entry.1 entry.2)) u with
  | mk result v =>
      rintro ⟨hKept, hGrows, hAll⟩
      cases result with
      | error e =>
          exact ⟨hKept, hGrows, fun _ hOk => nomatch hOk⟩
      | ok _ =>
          exact ⟨hKept, hGrows, fun _ hOk =>
            ⟨(Except.ok.inj hOk).symm, hAll rfl⟩⟩

/-
  Whatever solutions are published, the store holds the entries
  of those whose publication ended well.
-/
theorem publishAll_keeps
    {solutions : List Solution}
    {u : σ}
    (hKeeps : (sink.store u).Keeps P)
    (hSuit :
      ∀ s ∈ solutions, ∀ entry ∈ s.publication,
        P entry.1 entry.2) :
    let published := sink.publishAll solutions u
    (sink.store u).Grows (sink.store published.2) ∧
      ∀ s root,
        (s, Except.ok root) ∈ solutions.zip published.1 →
          root = s.checksum ∧
            ∀ entry ∈ s.publication,
              ∃ b, P entry.1 b ∧
                (sink.store published.2).Has entry.1 b := by
  induction solutions generalizing u with
  | nil => exact ⟨Store.Grows.refl _, fun _ _ h => nomatch h⟩
  | cons s rest ih =>
      rcases publish_keeps hKeeps (hSuit s List.mem_cons_self)
        with ⟨hKept, hGrows, hAll⟩
      rcases ih hKept
          (fun t hT => hSuit t (List.mem_cons_of_mem _ hT))
        with ⟨hMore, hOthers⟩
      refine ⟨hGrows.trans hMore, ?_⟩
      intro t root hT
      rcases List.mem_cons.1 hT with hHead | hTail
      · rcases Prod.mk.inj hHead with ⟨rfl, hOk⟩
        rcases hAll root hOk.symm with ⟨hRoot, hEntries⟩
        refine ⟨hRoot, ?_⟩
        intro entry hEntry
        rcases hEntries entry hEntry with ⟨b, hSuits, hHeld⟩
        exact ⟨b, hSuits, hMore _ b hHeld⟩
      · exact hOthers t root hTail

------------------------------------------------------------
-- Disks that fail or do not
------------------------------------------------------------

variable
  {s : DirectoryStore}
  {files : FileTree}
  {before : List (Checksum × Asset)}

/- What is put on a disk that does not fail is put well. -/
theorem put_onDisk
    (hMirrors : (Store.directory s files).Mirrors before)
    {writes : List DiskWrite}
    (hSound : (writes.headD {}).fault = none)
    (c : Checksum)
    (a : Asset) :
    ∃ files',
      (Store.directory s files').Mirrors (before ++ [(c, a)]) ∧
        outcome (onDisk.put c a) (.directory s files, writes) =
          (.ok (), (.directory s files', writes.tail)) := by
  let w := writes.headD {}
  let files' := (outcome (s.put w c a) files).2
  rcases hMirrors.attempt w c a with ⟨hOk, hAfter, -⟩
  have hPut :
      outcome (Store.attempt w c a) (.directory s files) =
        (.ok (), .directory s files') := by
    rw [Store.outcome_attempt_directory] at hOk ⊢
    exact Prod.ext (hOk hSound) rfl
  rw [hPut] at hAfter
  refine ⟨files', hAfter rfl, ?_⟩
  change
    ((outcome (Store.attempt w c a) (.directory s files)).1,
      ((outcome (Store.attempt w c a) (.directory s files)).2,
        writes.tail)) = _
  rw [hPut]

/- Entries are put on a disk that does not fail. -/
theorem forM_put_onDisk
    (hMirrors : (Store.directory s files).Mirrors before)
    {writes : List DiskWrite}
    (hSound : ∀ w ∈ writes, w.fault = none)
    (entries : List (Checksum × Asset)) :
    ∃ files',
      (Store.directory s files').Mirrors (before ++ entries) ∧
        outcome
            (entries.forM
              (fun entry => onDisk.put entry.1 entry.2))
            (.directory s files, writes) =
          (.ok ⟨⟩,
            (.directory s files', writes.drop entries.length)) := by
  induction entries generalizing files before writes with
  | nil =>
      rw [List.append_nil]
      exact ⟨files, hMirrors, rfl⟩
  | cons entry rest ih =>
      have hHead : (writes.headD {}).fault = none := by
        cases writes with
        | nil => rfl
        | cons w ws => exact hSound w List.mem_cons_self
      rcases put_onDisk hMirrors hHead entry.1 entry.2 with
        ⟨files', hAfter, hPut⟩
      rcases ih hAfter
          (fun w hW => hSound w (List.mem_of_mem_tail hW)) with
        ⟨files'', hEnd, hRest⟩
      rw [List.append_assoc] at hEnd
      refine ⟨files'', hEnd, ?_⟩
      rw [outcome_forM_cons, hPut]
      dsimp only
      rw [hRest, List.drop_tail, List.length_cons]

/-
  New entries are put until the disk fails.  What was put
  before that stays.
-/
theorem forM_put_of_fault
    (hMirrors : (Store.directory s files).Mirrors before)
    {entries : List (Checksum × Asset)}
    (hNew : ∀ entry ∈ entries, before.lookup entry.1 = none)
    (hApart : (entries.map Prod.fst).Nodup)
    {sound : List DiskWrite}
    (hSound : ∀ w ∈ sound, w.fault = none)
    (hFew : sound.length < entries.length)
    {w : DiskWrite}
    {fault : DiskFault}
    (hFault : w.fault = some fault) :
    ∃ e files',
      (Store.directory s files').Mirrors
          (before ++ entries.take sound.length) ∧
        outcome
            (entries.forM
              (fun entry => onDisk.put entry.1 entry.2))
            (.directory s files, sound ++ [w]) =
          (.error e, (.directory s files', [])) := by
  induction entries generalizing files before sound with
  | nil => exact absurd hFew (Nat.not_lt_zero _)
  | cons entry rest ih =>
      have hFirst := hNew entry List.mem_cons_self
      rw [List.map_cons, List.nodup_cons] at hApart
      cases sound with
      | nil =>
          rcases hMirrors.attempt_of_fault hFault hFirst entry.2
            with ⟨e, files', hPut, hAfter⟩
          have hOn :
              outcome (onDisk.put entry.1 entry.2)
                  (.directory s files, [w]) =
                (.error e, (.directory s files', [])) := by
            change
              ((outcome (Store.attempt w entry.1 entry.2)
                  (.directory s files)).1,
                ((outcome (Store.attempt w entry.1 entry.2)
                  (.directory s files)).2, [])) = _
            rw [hPut]
          refine ⟨e, files', ?_, ?_⟩
          · rw [List.length_nil, List.take_zero, List.append_nil]
            exact hAfter
          · rw [outcome_forM_cons, List.nil_append, hOn]
      | cons first others =>
          have hHead :
              ((first :: others ++ [w]).headD {}).fault = none :=
            hSound first List.mem_cons_self
          rcases put_onDisk hMirrors hHead entry.1 entry.2 with
            ⟨files', hAfter, hPut⟩
          have hStillNew :
              ∀ later ∈ rest,
                (before ++ [(entry.1, entry.2)]).lookup later.1 =
                  none := by
            intro later hLater
            rw [lookup_put, if_neg]
            · exact hNew later (List.mem_cons_of_mem _ hLater)
            · rintro ⟨hSame, -⟩
              apply hApart.1
              rw [hSame]
              exact List.mem_map_of_mem hLater
          rcases ih hAfter hStillNew hApart.2
              (fun v hV => hSound v (List.mem_cons_of_mem _ hV))
              (Nat.lt_of_succ_lt_succ hFew) with
            ⟨e, files'', hEnd, hRest⟩
          rw [List.append_assoc] at hEnd
          refine ⟨e, files'', hEnd, ?_⟩
          rw [outcome_forM_cons, hPut]
          exact hRest

/- Solutions are published on a disk that does not fail. -/
theorem publishAll_onDisk
    (hMirrors : (Store.directory s files).Mirrors before)
    {writes : List DiskWrite}
    (hSound : ∀ w ∈ writes, w.fault = none)
    (solutions : List Solution) :
    (onDisk.publishAll solutions
        (.directory s files, writes)).1 =
      solutions.map (fun s => .ok s.checksum) := by
  induction solutions generalizing files before writes with
  | nil => rfl
  | cons solution rest ih =>
      rcases forM_put_onDisk hMirrors hSound solution.publication
        with ⟨files', hEnd, hPut⟩
      have hPublish :
          outcome (solution.publish onDisk.put)
              (.directory s files, writes) =
            (.ok solution.checksum,
              (.directory s files',
                writes.drop solution.publication.length)) := by
        unfold Solution.publish
        rw [outcome_bind, hPut]
        rfl
      have hLater :
          ∀ w ∈ writes.drop solution.publication.length,
            w.fault = none :=
        fun w hW => hSound w (List.mem_of_mem_drop hW)
      unfold publishAll
      rw [hPublish]
      exact congrArg (_ :: ·) (ih hEnd hLater)

/-
  If the disk fails while the first of some solutions is put
  that is new, the others are published all the same.
-/
theorem publishAll_of_fault
    (hMirrors : (Store.directory s files).Mirrors [])
    {first : Solution}
    {sound : List DiskWrite}
    (hSound : ∀ w ∈ sound, w.fault = none)
    (hFew : sound.length < first.publication.length)
    {w : DiskWrite}
    {fault : DiskFault}
    (hFault : w.fault = some fault)
    (others : List Solution) :
    ∃ e,
      (onDisk.publishAll (first :: others)
          (.directory s files, sound ++ [w])).1 =
        .error e :: others.map (fun s => .ok s.checksum) := by
  rcases forM_put_of_fault hMirrors (fun _ _ => rfl)
      Solution.nodup_publication hSound hFew hFault with
    ⟨e, files', hEnd, hPut⟩
  have hPublish :
      outcome (first.publish onDisk.put)
          (.directory s files, sound ++ [w]) =
        (.error e, (.directory s files', [])) := by
    unfold Solution.publish
    rw [outcome_bind, hPut]
  have hNone : ∀ v ∈ ([] : List DiskWrite), v.fault = none :=
    fun _ hV => nomatch hV
  refine ⟨e, ?_⟩
  unfold publishAll
  rw [hPublish]
  exact congrArg (_ :: ·) (publishAll_onDisk hEnd hNone others)

end Sink

end SnapTree
