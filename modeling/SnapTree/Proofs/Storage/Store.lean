import SnapTree.Proofs.Storage.Directory
import SnapTree.Storage.Store

/-
  This file proves what stores of either sort have in common:
  nothing that was put is lost or replaced, whatever is put
  later and however that ends.

  Key definitions include:
    * `Store.Has`
    * `Store.Keeps`
    * `Store.IsEmpty`
    * `Store.SameObjects`
    * `Store.LeftBy`

  Key theorems include:
    * `Store.Keeps.attempt`
    * `Store.leftBy_of_error`
    * `Store.LeftBy.keeps`
    * `Store.fetch_eq`
-/

namespace SnapTree

namespace Store

variable [Compression]

/- An asset is held under a checksum. -/
def Has
    (c : Checksum)
    (a : Asset) : Store → Prop
  | memory s => s.get? c = some a
  | directory s files => s.Has files c a

/- Nothing but assets that suit their checksums is held. -/
def Keeps
    (P : Checksum → Asset → Prop) : Store → Prop
  | memory s => ∀ c a, s.get? c = some a → P c a
  | directory s files => ∃ l, s.Keeps l P files

/- All that one store holds is held by another as well. -/
def Grows
    (st st' : Store) : Prop :=
  ∀ c a, st.Has c a → st'.Has c a

/-
  Nothing has been put into a store.  In a directory, that of
  all objects is there, and nothing is below it.
-/
def IsEmpty : Store → Prop
  | memory s => s = .empty
  | directory s files =>
      ∃ l, files.locate s.objects = .ok l ∧
        files.node? l = some .directory ∧
          ∀ names, names ≠ [] → files.node? (l ++ names) = none

omit [Compression] in
/-
  One store is what the other is, but for what is outside the
  directory of all objects.
-/
def SameObjects : Store → Store → Prop
  | memory s, st => st = memory s
  | directory s files, st =>
      ∃ files', st = directory s files' ∧
        s.SameObjects files files'

/-
  What a put may leave when it fails: the objects as they were,
  or no more than a directory for the object or the object
  added to them.  Anything else may have changed; files that
  wait may have been left, for example.
-/
inductive LeftBy
    (c : Checksum)
    (a : Asset) : Store → Store → Prop where
  | nothing {st st' : Store} (same : st.SameObjects st') :
      LeftBy c a st st'
  | shelf
      {s : DirectoryStore}
      {files : FileTree}
      {st' : Store}
      (same :
        (directory s
          (files.makeDirectories
            ((s.objectPath c).parent?.getD ⟨""⟩)).2).SameObjects
          st') :
      LeftBy c a (directory s files) st'
  | object
      {st mid st' : Store}
      (w : DiskWrite)
      (put : outcome (attempt w c a) st = (.ok (), mid))
      (same : mid.SameObjects st') :
      LeftBy c a st st'

------------------------------------------------------------
-- Putting
------------------------------------------------------------

theorem Grows.refl
    (st : Store) :
    st.Grows st :=
  fun _ _ h => h

theorem Grows.trans
    {st st' st'' : Store}
    (hFirst : st.Grows st')
    (hSecond : st'.Grows st'') :
    st.Grows st'' :=
  fun c a h => hSecond c a (hFirst c a h)

theorem outcome_attempt_memory
    (w : DiskWrite)
    (c : Checksum)
    (a : Asset)
    (s : MemoryStore) :
    outcome (attempt w c a) (memory s) =
      (.ok (), memory (s.put c a)) :=
  rfl

theorem outcome_attempt_directory
    (w : DiskWrite)
    (c : Checksum)
    (a : Asset)
    (s : DirectoryStore)
    (files : FileTree) :
    outcome (attempt w c a) (directory s files) =
      ((outcome (s.put w c a) files).1,
        directory s (outcome (s.put w c a) files).2) := by
  have hRun :
      (s.put w c a).run files = outcome (s.put w c a) files :=
    rfl
  unfold attempt
  rw [outcome_bind, outcome_get]
  dsimp only
  rw [hRun]
  cases outcome (s.put w c a) files with
  | mk result files' => cases result <;> rfl

omit [Compression] in
theorem get?_put
    (s : MemoryStore)
    (b c : Checksum)
    (a : Asset) :
    (s.put c a).get? b =
      if c = b ∧ s.get? c = none then some a else s.get? b := by
  unfold MemoryStore.put MemoryStore.get?
  rw [Std.ExtTreeMap.getElem?_insertIfNew]
  simp only [Std.LawfulEqOrd.compare_eq_iff_eq,
    Std.ExtTreeMap.mem_iff_isSome_getElem?,
    Option.not_isSome_iff_eq_none]

variable
  {P : Checksum → Asset → Prop}
  {c : Checksum}
  {a : Asset}

/-
  A put keeps what a store holds, and leaves an asset that
  suits its checksum if it succeeds.
-/
theorem Keeps.attempt
    {st : Store}
    (hKeeps : st.Keeps P)
    (w : DiskWrite)
    (hSuits : P c a) :
    (outcome (attempt w c a) st).2.Keeps P ∧
      st.Grows (outcome (attempt w c a) st).2 ∧
        ((outcome (attempt w c a) st).1 = .ok () →
          ∃ b, P c b ∧
            (outcome (attempt w c a) st).2.Has c b) := by
  cases st with
  | memory s =>
      rw [outcome_attempt_memory]
      dsimp only
      refine ⟨?_, ?_, fun _ => ?_⟩
      · intro b b' hHeld
        rw [get?_put] at hHeld
        split at hHeld
        · next hNew =>
            rw [← hNew.1, ← Option.some.inj hHeld]
            exact hSuits
        · exact hKeeps b b' hHeld
      · intro b b' hHeld
        change (s.put c a).get? b = some b'
        rw [get?_put, if_neg]
        · exact hHeld
        · rintro ⟨rfl, hNone⟩
          rw [show s.get? c = some b' from hHeld] at hNone
          cases hNone
      · cases hOld : s.get? c with
        | none =>
            refine ⟨a, hSuits, ?_⟩
            change (s.put c a).get? c = some a
            rw [get?_put, if_pos ⟨rfl, hOld⟩]
        | some b =>
            refine ⟨b, hKeeps c b hOld, ?_⟩
            change (s.put c a).get? c = some b
            rw [get?_put, if_neg (by simp [hOld]), hOld]
  | directory s files =>
      rcases hKeeps with ⟨l, hKeeps⟩
      rw [outcome_attempt_directory]
      dsimp only
      rcases hKeeps.put c w hSuits with ⟨hKept, hAfter, hHas⟩
      exact ⟨⟨l, hKept⟩,
        fun b _ hHeld =>
          hKeeps.has_later b hKept hAfter.stays hHeld,
        hHas⟩

/-
  Of a put that fails nothing is left but a directory for the
  object, whatever is left of files that wait.
-/
theorem leftBy_of_error
    {w : DiskWrite}
    {st st' : Store}
    {e : AssetError}
    (hFailed : outcome (attempt w c a) st = (.error e, st')) :
    LeftBy c a st st' := by
  cases st with
  | memory s =>
      rw [outcome_attempt_memory] at hFailed
      cases congrArg Prod.fst hFailed
  | directory s files =>
      rw [outcome_attempt_directory,
        DirectoryStore.outcome_put] at hFailed
      have hLeft := congrArg Prod.snd hFailed
      have hError := congrArg Prod.fst hFailed
      dsimp only at hLeft hError
      rw [← hLeft]
      split at hError
      · cases hError
      · next hNew =>
          rw [if_neg hNew]
          generalize hMade :
            files.makeDirectories
              ((s.objectPath c).parent?.getD ⟨""⟩) = made
          rcases DirectoryStore.writeStaged_cases (s := s) hMade w
              (Compression.encode a.encode) with
            ⟨e', u, v, hBefore, hApart, hWrite⟩ |
            ⟨-, v, y, -, -, -, hWrite⟩
          · rw [hWrite]
            rcases hBefore with rfl | hShelf
            · exact .nothing ⟨v, rfl, hApart.objects⟩
            · rw [hShelf, ← hMade] at hApart
              exact .shelf ⟨v, rfl, hApart.objects⟩
          · rw [hWrite] at hError
            cases hError

/- What is held stays where the objects are the same. -/
theorem Keeps.of_sameObjects
    {st st' : Store}
    (hKeeps : st.Keeps P)
    (hSame : st.SameObjects st') :
    st'.Keeps P ∧ st.Grows st' := by
  cases st with
  | memory s =>
      rw [show st' = memory s from hSame]
      exact ⟨hKeeps, Grows.refl _⟩
  | directory s files =>
      rcases hSame with ⟨files', rfl, hSame⟩
      rcases hKeeps with ⟨l, hKeeps⟩
      rcases hKeeps.of_sameObjects hSame with ⟨hKept, hStays⟩
      refine ⟨⟨l, hKept⟩, fun b _ hHeld => ?_⟩
      apply hKeeps.has_later b hKept ?_ hHeld
      exact fun d n hNode => (hStays d).trans hNode

/- A put that fails takes nothing away. -/
theorem LeftBy.keeps
    {st st' : Store}
    (hLeft : LeftBy c a st st')
    (hKeeps : st.Keeps P)
    (hSuits : P c a) :
    st'.Keeps P ∧ st.Grows st' := by
  cases hLeft with
  | nothing hSame => exact hKeeps.of_sameObjects hSame
  | @shelf s files _ hSame =>
      rcases hKeeps with ⟨l, hKeeps⟩
      rcases hKeeps.makeShelf c rfl with ⟨hMade, hAfter, -, -⟩
      have hKept : (directory s _).Keeps P := ⟨l, hMade⟩
      rcases hKept.of_sameObjects hSame with ⟨hEnd, hMore⟩
      refine ⟨hEnd, Grows.trans (fun b _ hHeld => ?_) hMore⟩
      exact hKeeps.has_later b hMade hAfter.stays hHeld
  | object w hPut hSame =>
      rcases hKeeps.attempt w hSuits with ⟨hKept, hGrows, -⟩
      rw [hPut] at hKept hGrows
      rcases hKept.of_sameObjects hSame with ⟨hEnd, hMore⟩
      exact ⟨hEnd, hGrows.trans hMore⟩

/- An empty store keeps whatever is asked for. -/
theorem IsEmpty.keeps
    {st : Store}
    (hEmpty : st.IsEmpty) :
    st.Keeps P := by
  cases st with
  | memory s =>
      intro c a hHeld
      rw [show s = .empty from hEmpty] at hHeld
      unfold MemoryStore.get? MemoryStore.empty at hHeld
      rw [Std.ExtTreeMap.getElem?_empty] at hHeld
      cases hHeld
  | directory s files =>
      rcases hEmpty with ⟨l, hLocate, hDirectory, hNone⟩
      refine ⟨l, hLocate, hDirectory, ?_, ?_⟩
      · intro c n hNode
        rw [hNone _ (List.cons_ne_nil _ _)] at hNode
        cases hNode
      · intro c n hNode
        rw [DirectoryStore.place,
          hNone _ (List.cons_ne_nil _ _)] at hNode
        cases hNode

------------------------------------------------------------
-- Reading
------------------------------------------------------------

/- Assets that are all held are all had. -/
theorem fetch_eq
    (hLossless : Compression.IsLossless)
    {st : Store}
    {request : List Checksum}
    {f : Checksum → Asset}
    (hHas : ∀ c ∈ request, st.Has c (f c))
    (hShort :
      ∀ c ∈ request, (f c).encode.length < Codec.memoryLimit) :
    st.fetch false request =
      .ok (request.map (fun c => (c, f c))) := by
  cases st with
  | memory s =>
      have hFound :
          s.select request = request.map (fun c => (c, f c)) := by
        unfold MemoryStore.select
        clear hShort
        induction request with
        | nil => rfl
        | cons c rest ih =>
            have hFirst : s.get? c = some (f c) :=
              hHas c List.mem_cons_self
            rw [List.filterMap_cons, hFirst, ih]
            · rfl
            · exact fun b hB => hHas b (List.mem_cons_of_mem c hB)
      exact congrArg Except.ok hFound
  | directory s files =>
      exact DirectoryStore.fetch_eq hLossless hHas hShort

end Store

end SnapTree
