import SnapTree.Proofs.Storage.Frame
import SnapTree.Proofs.Storage.Store

/-
  This file proves that a store in a directory answers as a
  store in memory does.  Both hold what was put first under
  each checksum; a directory holds it as files, whose paths
  are found again and whose frames are read back.

  The compression may be any that loses nothing.  A directory
  can run out of room for paths, which memory cannot, so all
  paths of its objects have to be short enough.

  Key definitions include:
    * `StoreCall`
    * `Store.answers`
    * `StoreCall.expected`
    * `DirectoryStore.IsFresh`
    * `Store.Mirrors`

  Key theorems include:
    * `DirectoryStore.Keeps.put_eq_ok`
    * `DirectoryStore.Keeps.read_of_absent`
    * `Store.Mirrors.attempt`
    * `Store.Mirrors.attempt_of_fault`
    * `Store.Mirrors.fetch`
    * `Store.answers_alike`
-/

namespace SnapTree

------------------------------------------------------------
-- Calls and answers
------------------------------------------------------------

/-
  What can be asked of a store.  A put comes with the
  identifier that is drawn for it.
-/
inductive StoreCall where
  | put (id : Uuid) (c : Checksum) (a : Asset)
  | fetch (cancelled : Bool) (request : List Checksum)

/- What a store answers. -/
inductive StoreAnswer where
  | put (result : Except AssetError Unit)
  | fetched (result : Except AssetError (List (Checksum × Asset)))

namespace Store

variable [Compression]

/- The answer to one call, and the store after it. -/
def answer
    (st : Store) : StoreCall → StoreAnswer × Store
  | .put id c a =>
      let (result, st) := outcome (attempt { id } c a) st
      (.put result, st)
  | .fetch cancelled request =>
      (.fetched (st.fetch cancelled request), st)

/- The answers to calls that are made one after another. -/
def answers
    (st : Store) : List StoreCall → List StoreAnswer
  | [] => []
  | call :: calls =>
      (st.answer call).1 :: (st.answer call).2.answers calls

end Store

namespace StoreCall

/- What a call puts. -/
def entries : StoreCall → List (Checksum × Asset)
  | put _ c a => [(c, a)]
  | fetch _ _ => []

/-
  The answer to a call when the given assets have been put
  before, in that order: the first one under a checksum counts.
-/
def answerFrom
    (before : List (Checksum × Asset)) : StoreCall → StoreAnswer
  | put _ _ _ => .put (.ok ())
  | fetch true _ => .fetched (.error .cancelled)
  | fetch false request =>
      .fetched
        (.ok
          (request.filterMap
            (fun c =>
              (before.lookup c).map (fun a => (c, a)))))

/- The answers to calls, each from all that was put before. -/
def expected
    (before : List (Checksum × Asset)) :
    List StoreCall → List StoreAnswer
  | [] => []
  | call :: calls =>
      call.answerFrom before ::
        expected (before ++ call.entries) calls

/- All that a call puts is small enough to be held in memory. -/
def Fits
    (call : StoreCall) : Prop :=
  ∀ entry ∈ call.entries,
    entry.2.encode.length < Codec.memoryLimit

end StoreCall

------------------------------------------------------------
-- Room for paths
------------------------------------------------------------

namespace DirectoryStore

/- The path of no object is too long. -/
def HasRoom
    (s : DirectoryStore) : Prop :=
  ∀ c,
    (s.objectPath c).text.utf8ByteSize ≤ FileTree.maxPathSize

/-
  A store in a directory that has been opened, where no object
  is yet and no file waits.
-/
structure IsFresh
    (s : DirectoryStore)
    (files : FileTree) : Prop where
  opened : ∃ before, outcome s.create before = (.ok (), files)
  empty :
    ∀ p ∈ [s.objects, s.staging], ∀ l, files.locate p = .ok l →
      ∀ names, names ≠ [] → files.node? (l ++ names) = none
  room : s.HasRoom

/-
  Files can be written in the staging directory, where no name
  is that of a directory.
-/
def IsReady
    (s : DirectoryStore)
    (t : FileTree) : Prop :=
  ∃ l, t.locate s.staging = .ok l ∧
    t.node? l = some .directory ∧
      ∀ name, t.node? (l ++ [name]) ≠ some .directory

variable
  {s : DirectoryStore}
  {t : FileTree}

theorem makeDirectories_eq_ok
    {p : Path}
    {u : FileTree}
    (hText : p.text ≠ "")
    (hMade : outcome (makeDirectories p) t = (.ok (), u)) :
    t.Grows u ∧ u.isDirectory p = true := by
  have hGrows := FileTree.makeAll_grows (t := t) p.ancestors
  have hThere :=
    FileTree.isDirectory_of_makeDirectories (t := t) hText
  change t.Grows (t.makeDirectories p).2 at hGrows
  rw [outcome_makeDirectories] at hMade
  cases hResult : t.makeDirectories p with
  | mk result v =>
      rw [hResult] at hGrows hThere hMade
      cases result with
      | error e => cases congrArg Prod.fst hMade
      | ok _ =>
          have hLeft : v = u := congrArg Prod.snd hMade
          rw [← hLeft]
          exact ⟨hGrows, hThere rfl⟩

/- Both directories of a store are there when it is opened. -/
theorem isDirectory_of_create
    {before : FileTree}
    (hOpened : outcome s.create before = (.ok (), t)) :
    t.isDirectory s.objects = true ∧
      t.isDirectory s.staging = true := by
  rcases outcome_bind_eq_ok hOpened with
    ⟨_, u, hFirst, hSecond⟩
  have hObjects :=
    (makeDirectories_eq_ok (Path.text_join_ne (by decide) s.root)
      hFirst).2
  rcases makeDirectories_eq_ok
      (Path.text_join_ne (by decide) s.root) hSecond with
    ⟨hGrows, hStaging⟩
  exact ⟨hGrows.keepsDirectories.isDirectory hObjects, hStaging⟩

/- The parts of a store are as far into its directory. -/
theorem utf8ByteSize_objectPath
    (s : DirectoryStore)
    (c : Checksum) :
    (s.objectPath c).text.utf8ByteSize =
      (s.root.join ⟨""⟩).text.utf8ByteSize + 73 := by
  have hObjects :=
    Path.utf8ByteSize_join (q := ⟨"objects"⟩) (by decide) s.root
  have hSeven : "objects".utf8ByteSize = 7 := by decide
  rw [objectPath_eq, Path.utf8ByteSize_below,
    Path.utf8ByteSize_below, utf8ByteSize_shelfName,
    utf8ByteSize_objectName]
  unfold objects
  rw [hObjects]
  dsimp only
  omega

theorem utf8ByteSize_stagedPath
    (s : DirectoryStore)
    (id : Uuid) :
    (s.stagedPath id).text.utf8ByteSize =
      (s.root.join ⟨""⟩).text.utf8ByteSize + 44 := by
  have hStaging :=
    Path.utf8ByteSize_join (q := ⟨"tmp"⟩) (by decide) s.root
  have hThree : "tmp".utf8ByteSize = 3 := by decide
  rw [stagedPath_eq, Path.utf8ByteSize_below,
    utf8ByteSize_stagedName]
  unfold staging
  rw [hStaging]
  dsimp only
  omega

/- A store has room if its own path leaves some. -/
theorem hasRoom_of_size
    (hSize :
      s.root.text.utf8ByteSize + 74 ≤ FileTree.maxPathSize) :
    s.HasRoom := by
  intro c
  have hJoin :
      (s.root.join ⟨""⟩).text.utf8ByteSize ≤
        s.root.text.utf8ByteSize + 1 := by
    have hEmpty : (Path.mk "").isAbsolute = false := by decide
    have hSlash : "/".utf8ByteSize = 1 := by decide
    unfold Path.join
    rw [hEmpty]
    simp only [Bool.false_eq_true, if_false]
    split <;> simp [hSlash]
  rw [utf8ByteSize_objectPath]
  omega

/- A file can be made in the staging directory. -/
theorem locate_staged
    (hRoom : s.HasRoom)
    (hReady : s.IsReady t)
    (id : Uuid) :
    ∃ x, t.locate (s.stagedPath id) = .ok x ∧
      t.node? x ≠ some .directory := by
  have hName := isName_stagedName id
  rcases hReady with ⟨l, hLocate, hNode, hFree⟩
  refine ⟨l ++ [stagedName id], ?_, hFree _⟩
  have hSize := hRoom Checksum.null
  rw [utf8ByteSize_objectPath] at hSize
  have hShorter := utf8ByteSize_stagedPath s id
  rw [stagedPath_eq] at hShorter ⊢
  rw [FileTree.locate_below hLocate hName, if_neg,
    hName.follow_singleton hNode]
  omega

/- A staging directory stays as it is while objects are put. -/
theorem IsReady.of_continues
    (hReady : s.IsReady t)
    {l : Location}
    {c : Checksum}
    {u : FileTree}
    (hObjects : u.locate s.objects = .ok l)
    (hAfter : Continues l c t u) :
    s.IsReady u := by
  rcases hReady with ⟨m, hLocate, hNode, hFree⟩
  have hStaging := hAfter.directories.locate hLocate
  refine ⟨m, hStaging, hAfter.directories.directory m hNode, ?_⟩
  intro name hName
  rcases hAfter.new _ hName with hOld | hShelf
  · exact hFree name hOld
  · exact staging_ne_objects hObjects hStaging _ _ hShelf

namespace Keeps

variable [Compression]

variable
  {l : Location}
  {P : Checksum → Asset → Prop}
  (hKeeps : s.Keeps l P t)

include hKeeps

/- What a directory holds may be said in weaker words. -/
theorem mono
    {Q : Checksum → Asset → Prop}
    (hImplies : ∀ c a, P c a → Q c a) :
    s.Keeps l Q t where
  located := hKeeps.located
  directory := hKeeps.directory
  shelf := hKeeps.shelf
  object c n hNode := by
    rcases hKeeps.object c n hNode with ⟨hShelf, a, hA, hFile⟩
    exact ⟨hShelf, a, hImplies c a hA, hFile⟩

/- A put succeeds if there is room, unless the disk fails. -/
theorem put_eq_ok
    (hRoom : s.HasRoom)
    (hReady : s.IsReady t)
    {w : DiskWrite}
    (hSound : w.fault = none)
    (c : Checksum)
    (a : Asset) :
    (outcome (s.put w c a) t).1 = .ok () := by
  rw [outcome_put]
  by_cases hThere : t.pathExists (s.objectPath c) = true
  · rw [if_pos hThere]
  rw [if_neg hThere]
  have hShelfSize :
      ¬FileTree.maxPathSize <
        (s.objects.below (shelfName c)).text.utf8ByteSize := by
    have hSize := hRoom c
    rw [objectPath_eq, Path.utf8ByteSize_below] at hSize
    omega
  have hNoFile :
      ∀ bytes,
        t.node? (l ++ [shelfName c]) ≠ some (.file bytes) := by
    intro bytes hNode
    cases hKeeps.shelf c _ hNode
  generalize hShelfMade :
    t.makeDirectories ((s.objectPath c).parent?.getD ⟨""⟩) = made
  have hOk : made.1 = .ok () := by
    rw [hKeeps.parent?_objectPath] at hShelfMade
    rw [← hShelfMade]
    rcases FileTree.makeDirectories_below hKeeps.located
        (isName_shelfName c) hKeeps.directory with
      ⟨e, -, hSize | ⟨bytes, hNode⟩⟩ | ⟨hOk, -⟩ | ⟨hOk, -⟩
    · exact absurd hSize hShelfSize
    · exact absurd hNode (hNoFile bytes)
    · rw [hOk]
    · rw [hOk]
  rcases hKeeps.makeShelf c hShelfMade with
    ⟨hMade, hAfter, -, hShelf⟩
  rcases locate_staged hRoom
      (hReady.of_continues hMade.located hAfter) w.id with
    ⟨x, hStaged, hFree⟩
  have hTarget : made.2.locate (s.objectPath c) = .ok (place l c) := by
    rw [hMade.locate_objectPath c (hShelf hOk),
      if_neg (Nat.not_lt.2 (hRoom c))]
  have hPlace : made.2.node? (place l c) ≠ some .directory := by
    intro hNode
    rcases (hMade.object c _ hNode).2 with ⟨b, -, hFile⟩
    cases hFile
  exact writeStaged_eq_ok
    (hShelfMade.trans (Prod.ext hOk rfl)) hSound hStaged hFree
    hTarget hPlace _

/- No file is found where nothing was put. -/
theorem read_of_absent
    (hRoom : s.HasRoom)
    {c : Checksum}
    (hAbsent : ∀ a, ¬P c a) :
    t.read (s.objectPath c) = .error .notFound := by
  have hNone : t.node? (place l c) = none := by
    cases hNode : t.node? (place l c) with
    | none => rfl
    | some n =>
        rcases hKeeps.object c n hNode with ⟨-, a, hA, -⟩
        exact absurd hA (hAbsent a)
  unfold FileTree.read
  cases hShelf : t.node? (l ++ [shelfName c]) with
  | none =>
      have hLocate :
          t.locate (s.objectPath c) = .error .notFound := by
        rw [objectPath_eq,
          FileTree.locate_below_below hKeeps.located
            (isName_objectName c) (isName_shelfName c),
          if_neg (by
            rw [← objectPath_eq]
            exact Nat.not_lt.2 (hRoom c)),
          FileTree.follow_cons hKeeps.directory
            ((isName_shelfName c).next?_eq l)]
        unfold FileTree.follow
        rw [hShelf]
      rw [hLocate]
  | some n =>
      have hDirectory := hKeeps.shelf c n hShelf
      rw [hDirectory] at hShelf
      rw [hKeeps.locate_objectPath c hShelf,
        if_neg (Nat.not_lt.2 (hRoom c))]
      dsimp only
      rw [hNone]

end Keeps

end DirectoryStore

------------------------------------------------------------
-- What was put first
------------------------------------------------------------

/- What is put under a checksum counts if it is the first. -/
theorem lookup_put
    (before : List (Checksum × Asset))
    (b c : Checksum)
    (a : Asset) :
    (before ++ [(c, a)]).lookup b =
      if c = b ∧ before.lookup c = none then some a
      else before.lookup b := by
  rw [List.lookup_append, List.lookup_cons, List.lookup_nil]
  by_cases hSame : b = c
  · subst hSame
    cases hFirst : before.lookup b with
    | none => simp
    | some a' => simp
  · have hOther : (b == c) = false := by simpa using hSame
    rw [hOther, if_neg (fun hBoth => hSame hBoth.1.symm)]
    simp

theorem mem_of_lookup
    {before : List (Checksum × Asset)}
    {c : Checksum}
    {a : Asset}
    (hFirst : before.lookup c = some a) :
    (c, a) ∈ before := by
  rcases List.lookup_eq_some_iff.1 hFirst with ⟨_, _, rfl, -⟩
  exact List.mem_append_right _ List.mem_cons_self

namespace Store

variable [Compression]

/-
  A store holds what was put first under each checksum.  One in
  a directory can also go on: its paths are short enough, and
  files can be written in its staging directory.
-/
def Mirrors
    (before : List (Checksum × Asset)) : Store → Prop
  | memory s => ∀ c, s.get? c = before.lookup c
  | directory s files =>
      s.HasRoom ∧ s.IsReady files ∧
        (∃ l,
          s.Keeps l (fun c a => before.lookup c = some a)
            files) ∧
        ∀ c a, before.lookup c = some a → s.Has files c a

/- A store in memory that holds nothing. -/
theorem mirrors_memory :
    (memory .empty).Mirrors [] := by
  intro c
  unfold MemoryStore.get? MemoryStore.empty
  rw [Std.ExtTreeMap.getElem?_empty, List.lookup_nil]

omit [Compression] in
theorem isEmpty_directory
    {s : DirectoryStore}
    {files : FileTree}
    (hFresh : s.IsFresh files) :
    (directory s files).IsEmpty := by
  rcases hFresh.opened with ⟨before, hOpened⟩
  rcases FileTree.isDirectory_iff.1
      (DirectoryStore.isDirectory_of_create hOpened).1 with
    ⟨l, hLocate, hNode⟩
  exact ⟨l, hLocate, hNode,
    hFresh.empty _ List.mem_cons_self l hLocate⟩

/- A store in a directory that was just opened. -/
theorem mirrors_directory
    {s : DirectoryStore}
    {files : FileTree}
    (hFresh : s.IsFresh files) :
    (directory s files).Mirrors [] := by
  rcases hFresh.opened with ⟨before, hOpened⟩
  rcases FileTree.isDirectory_iff.1
      (DirectoryStore.isDirectory_of_create hOpened).2 with
    ⟨m, hLocate, hNode⟩
  have hReady : s.IsReady files := by
    refine ⟨m, hLocate, hNode, fun name => ?_⟩
    rw [hFresh.empty s.staging (by simp) m hLocate [name]
      (List.cons_ne_nil _ _)]
    exact nofun
  exact ⟨hFresh.room, hReady, (isEmpty_directory hFresh).keeps,
    fun c a hFirst => nomatch hFirst⟩

variable {before : List (Checksum × Asset)}

/- What is held under a checksum is not put again. -/
theorem put_of_held
    {s : DirectoryStore}
    {files : FileTree}
    {c : Checksum}
    {a : Asset}
    (hHas : s.Has files c a)
    (w : DiskWrite)
    (b : Asset) :
    outcome (s.put w c b) files = (.ok (), files) := by
  rw [DirectoryStore.outcome_put, if_pos]
  rcases FileTree.read_eq_ok_iff.1 hHas with
    ⟨l, hLocate, hNode⟩
  exact FileTree.pathExists_iff.2
    ⟨l, hLocate, by rw [hNode]; rfl⟩

section Putting

variable
  {s : DirectoryStore}
  {files : FileTree}
  {c : Checksum}
  (hMirrors : (directory s files).Mirrors before)

include hMirrors

/- Only the first asset under a checksum counts. -/
theorem mirrors_again
    {first : Asset}
    (hFirst : before.lookup c = some first)
    (a : Asset) :
    (directory s files).Mirrors (before ++ [(c, a)]) := by
  have hSame :
      ∀ b, (before ++ [(c, a)]).lookup b = before.lookup b := by
    intro b
    rw [lookup_put, hFirst, if_neg (by simp)]
  rcases hMirrors with ⟨hRoom, hReady, ⟨l, hKeeps⟩, hHas⟩
  refine ⟨hRoom, hReady, ⟨l, ?_⟩, ?_⟩
  · exact hKeeps.mono (fun b b' hOld => by rw [hSame, hOld])
  · intro b b' hOld
    rw [hSame] at hOld
    exact hHas b b' hOld

/- The first asset under a checksum counts if it was put. -/
theorem mirrors_new
    (hFirst : before.lookup c = none)
    (w : DiskWrite)
    (a : Asset) :
    let put := outcome (s.put w c a) files
    (put.1 = .ok () →
      (directory s put.2).Mirrors (before ++ [(c, a)])) ∧
    (∀ e, put.1 = .error e →
      (directory s put.2).Mirrors before) := by
  have hSuits : (before ++ [(c, a)]).lookup c = some a := by
    rw [lookup_put, if_pos ⟨rfl, hFirst⟩]
  have hStill :
      ∀ b b', before.lookup b = some b' →
        (before ++ [(c, a)]).lookup b = some b' := by
    intro b b' hOld
    rw [List.lookup_append, hOld]
    rfl
  rcases hMirrors with ⟨hRoom, hReady, ⟨l, hKeeps⟩, hHas⟩
  rcases (hKeeps.mono hStill).put c w hSuits with
    ⟨hKept, hAfter, hNew⟩
  have hReadyAfter := hReady.of_continues hKept.located hAfter
  have hStay :
      ∀ b b', before.lookup b = some b' →
        s.Has (outcome (s.put w c a) files).2 b b' :=
    fun b b' hOld =>
      hKeeps.has_later b hKept hAfter.stays (hHas b b' hOld)
  intro put
  constructor
  · intro hOk
    refine ⟨hRoom, hReadyAfter, ⟨l, hKept⟩, ?_⟩
    intro b b' hHeld
    rw [lookup_put] at hHeld
    split at hHeld
    · next hSame =>
        rcases hNew hOk with ⟨a', hA, hPut⟩
        rw [hSuits] at hA
        rw [← hSame.1, ← Option.some.inj hHeld,
          Option.some.inj hA]
        exact hPut
    · exact hStay b b' hHeld
  · intro e hFailed
    refine ⟨hRoom, hReadyAfter, ⟨l, ?_⟩, hStay⟩
    rcases hKeeps.put_cases c w a with
      ⟨e', u, hLeft, -, hPut⟩ | ⟨-, hPut⟩ |
      ⟨u, -, -, -, -, -, hPut⟩
    · rw [show put.2 = u from congrArg Prod.snd hPut]
      exact hLeft
    · cases hFailed.symm.trans (congrArg Prod.fst hPut)
    · cases hFailed.symm.trans (congrArg Prod.fst hPut)

end Putting

/-
  A put succeeds unless the disk fails, and what is held after
  it is what it put, if that is the first under its checksum.
  If the disk does fail, what is held is as before.
-/
theorem Mirrors.attempt
    {st : Store}
    (hMirrors : st.Mirrors before)
    (w : DiskWrite)
    (c : Checksum)
    (a : Asset) :
    (w.fault = none → (outcome (attempt w c a) st).1 = .ok ()) ∧
      ((outcome (attempt w c a) st).1 = .ok () →
        (outcome (attempt w c a) st).2.Mirrors
          (before ++ [(c, a)])) ∧
      (∀ e, (outcome (attempt w c a) st).1 = .error e →
        (outcome (attempt w c a) st).2.Mirrors before) := by
  cases st with
  | memory s =>
      rw [outcome_attempt_memory]
      refine ⟨fun _ => rfl, fun _ b => ?_,
        fun _ hFailed => nomatch hFailed⟩
      rw [get?_put, hMirrors c, hMirrors b, lookup_put]
  | directory s files =>
      rw [outcome_attempt_directory]
      dsimp only
      constructor
      · intro hSound
        rcases hMirrors with ⟨hRoom, hReady, ⟨l, hKeeps⟩, -⟩
        exact hKeeps.put_eq_ok hRoom hReady hSound c a
      · rcases Option.eq_none_or_eq_some (before.lookup c) with
          hFirst | ⟨first, hFirst⟩
        · exact mirrors_new hMirrors hFirst w a
        · have hHas := hMirrors.2.2.2 c first hFirst
          rw [put_of_held hHas]
          exact ⟨fun _ => mirrors_again hMirrors hFirst a,
            fun _ hFailed => nomatch hFailed⟩

/- What is new is not put if the disk fails. -/
theorem Mirrors.attempt_of_fault
    {s : DirectoryStore}
    {files : FileTree}
    (hMirrors : (directory s files).Mirrors before)
    {w : DiskWrite}
    {fault : DiskFault}
    (hFault : w.fault = some fault)
    {c : Checksum}
    (hNew : before.lookup c = none)
    (a : Asset) :
    ∃ e files',
      outcome (Store.attempt w c a) (directory s files) =
          (.error e, directory s files') ∧
        (directory s files').Mirrors before := by
  have hAbsent : files.pathExists (s.objectPath c) ≠ true := by
    intro hThere
    rcases hMirrors.2.2.1 with ⟨l, hKeeps⟩
    rcases hKeeps.has_of_pathExists c hThere with ⟨b, hB, -⟩
    rw [hNew] at hB
    cases hB
  rcases DirectoryStore.writeStaged_of_fault (s := s) hFault
      (s.objectPath c) (Compression.encode a.encode) files with
    ⟨e, files', hFailed⟩
  have hPut :
      outcome (Store.attempt w c a) (directory s files) =
        (.error e, directory s files') := by
    rw [outcome_attempt_directory, DirectoryStore.outcome_put,
      if_neg hAbsent, hFailed]
  rcases hMirrors.attempt w c a with ⟨-, -, hLeft⟩
  rw [hPut] at hLeft
  exact ⟨e, files', hPut, hLeft e rfl⟩

/- All that is asked for and was put is had. -/
theorem Mirrors.fetch
    (hLossless : Compression.IsLossless)
    {st : Store}
    (hMirrors : st.Mirrors before)
    (hShort :
      ∀ entry ∈ before,
        entry.2.encode.length < Codec.memoryLimit)
    (request : List Checksum) :
    st.fetch false request =
      .ok
        (request.filterMap
          (fun c =>
            (before.lookup c).map (fun a => (c, a)))) := by
  cases st with
  | memory s =>
      apply congrArg Except.ok
      unfold MemoryStore.select
      apply List.filterMap_congr
      intro c _
      rw [hMirrors c]
  | directory s files =>
      rcases hMirrors with ⟨hRoom, -, ⟨l, hKeeps⟩, hHas⟩
      apply DirectoryStore.fetch_eq_filterMap hLossless
      · intro c _
        unfold DirectoryStore.readObject
        cases hFirst : before.lookup c with
        | none =>
            rw [hKeeps.read_of_absent hRoom
              (fun a hA => by
                rw [hFirst] at hA
                cases hA)]
            rfl
        | some a =>
            rw [show files.read (s.objectPath c) = _ from
              hHas c a hFirst]
            rfl
      · intro c _ a hFirst
        exact hShort (c, a) (mem_of_lookup hFirst)

------------------------------------------------------------
-- One call after another
------------------------------------------------------------

/- Of one call, the answer and what is held after it. -/
theorem Mirrors.answer
    (hLossless : Compression.IsLossless)
    {st : Store}
    (hMirrors : st.Mirrors before)
    (hShort :
      ∀ entry ∈ before,
        entry.2.encode.length < Codec.memoryLimit)
    (call : StoreCall) :
    (st.answer call).1 = call.answerFrom before ∧
      (st.answer call).2.Mirrors (before ++ call.entries) := by
  cases call with
  | put id c a =>
      rcases hMirrors.attempt { id } c a with ⟨hOk, hAfter, -⟩
      exact ⟨congrArg StoreAnswer.put (hOk rfl),
        hAfter (hOk rfl)⟩
  | fetch cancelled request =>
      have hSame :
          before ++ (StoreCall.fetch cancelled request).entries =
            before :=
        List.append_nil before
      rw [hSame]
      refine ⟨?_, hMirrors⟩
      cases cancelled with
      | true => cases st <;> rfl
      | false =>
          exact congrArg StoreAnswer.fetched
            (hMirrors.fetch hLossless hShort request)

/- Of all calls, the answers. -/
theorem Mirrors.answers
    (hLossless : Compression.IsLossless)
    {st : Store}
    (hMirrors : st.Mirrors before)
    (hShort :
      ∀ entry ∈ before,
        entry.2.encode.length < Codec.memoryLimit)
    {calls : List StoreCall}
    (hFits : ∀ call ∈ calls, call.Fits) :
    st.answers calls = StoreCall.expected before calls := by
  induction calls generalizing st before with
  | nil => rfl
  | cons call calls ih =>
      rcases hMirrors.answer hLossless hShort call with
        ⟨hAnswer, hAfter⟩
      have hLater :
          ∀ entry ∈ before ++ call.entries,
            entry.2.encode.length < Codec.memoryLimit := by
        intro entry hEntry
        rcases List.mem_append.1 hEntry with hOld | hNew
        · exact hShort entry hOld
        · exact hFits call List.mem_cons_self entry hNew
      have hRest :=
        ih hAfter hLater
          (fun other hOther =>
            hFits other (List.mem_cons_of_mem call hOther))
      unfold Store.answers StoreCall.expected
      rw [hAnswer, hRest]

/-
  A store in a directory that was just opened answers all calls
  as one in memory does, whatever compression that loses nothing
  it uses and whatever identifiers are drawn: a put succeeds,
  the first asset put under a checksum is the one that is had,
  whatever is asked for is had in the order of the request and
  as often, unless it is not known, and a cancelled fetch has
  nothing.
-/
theorem answers_alike
    (hLossless : Compression.IsLossless)
    {s : DirectoryStore}
    {files : FileTree}
    (hFresh : s.IsFresh files)
    {calls : List StoreCall}
    (hFits : ∀ call ∈ calls, call.Fits) :
    (directory s files).answers calls =
        (memory .empty).answers calls ∧
      (memory .empty).answers calls =
        StoreCall.expected [] calls := by
  have hNothing :
      ∀ entry ∈ ([] : List (Checksum × Asset)),
        entry.2.encode.length < Codec.memoryLimit :=
    fun _ hEntry => nomatch hEntry
  have hDirectory :=
    (mirrors_directory hFresh).answers hLossless hNothing hFits
  have hMemory := mirrors_memory.answers hLossless hNothing hFits
  exact ⟨hDirectory.trans hMemory.symm, hMemory⟩

end Store

------------------------------------------------------------
-- A store that was just opened
------------------------------------------------------------

namespace DirectoryStore

/- A store next to nothing else. -/
def small : DirectoryStore :=
  ⟨⟨"store"⟩⟩

def smallFiles : FileTree :=
  (outcome small.create (FileTree.ofWorkingDirectory ["w"])).2

theorem isFresh_small :
    small.IsFresh smallFiles := by
  have hKeys :
      smallFiles.nodes.keys =
        [[], ["w"], ["w", "store"], ["w", "store", "objects"],
          ["w", "store", "tmp"]] := by
    decide +kernel
  refine ⟨⟨FileTree.ofWorkingDirectory ["w"], ?_⟩, ?_,
    hasRoom_of_size (by decide)⟩
  · exact Prod.ext (by decide +kernel) rfl
  · intro p hP l hLocate names hNames
    have hAbsent : l ++ names ∉ smallFiles.nodes.keys := by
      have hThere :
          ∃ name ∈ ["objects", "tmp"],
            l = ["w", "store"] ++ [name] := by
        rcases List.mem_cons.1 hP with rfl | hP
        · have hObjects :
              smallFiles.locate small.objects =
                .ok ["w", "store", "objects"] := by
            decide +kernel
          rw [hObjects] at hLocate
          exact ⟨"objects", by simp, (Except.ok.inj hLocate).symm⟩
        · rw [List.mem_singleton.1 hP] at hLocate
          have hStaging :
              smallFiles.locate small.staging =
                .ok ["w", "store", "tmp"] := by
            decide +kernel
          rw [hStaging] at hLocate
          exact ⟨"tmp", by simp, (Except.ok.inj hLocate).symm⟩
      rcases hThere with ⟨name, -, rfl⟩
      rw [hKeys]
      simp [hNames]
    unfold FileTree.node?
    rw [if_neg (by simp [hNames])]
    rw [Std.ExtTreeMap.mem_keys] at hAbsent
    exact Std.ExtTreeMap.getElem?_eq_none hAbsent

end DirectoryStore

namespace Store

/-
  Of an asset put twice under a checksum and once under another,
  whatever else is put and asked for.
-/
theorem answers_alike_notes :
    let c := Checksum.null
    let d : Checksum := ⟨Vector.replicate 32 1⟩
    let unknown : Checksum := ⟨Vector.replicate 32 2⟩
    let id : Uuid := ⟨Vector.replicate 16 7⟩
    let calls : List StoreCall :=
      [.put .nil c (.text "a"), .put id c (.text "b"),
        .put id d (.text "a"), .fetch false [d, unknown, c, d],
        .fetch true [c]]
    Compression.IsLossless ∧
      DirectoryStore.small.IsFresh DirectoryStore.smallFiles ∧
      (∀ call ∈ calls, call.Fits) ∧
      (directory DirectoryStore.small
          DirectoryStore.smallFiles).answers calls =
        [.put (.ok ()), .put (.ok ()), .put (.ok ()),
          .fetched
            (.ok
              [(d, .text "a"), (c, .text "a"),
                (d, .text "a")]),
          .fetched (.error .cancelled)] := by
  intro c d unknown id calls
  have hFits : ∀ call ∈ calls, call.Fits := by
    have hPuts :
        calls.flatMap StoreCall.entries =
          [(c, .text "a"), (c, .text "b"), (d, .text "a")] :=
      rfl
    have hShort :
        ∀ entry ∈ calls.flatMap StoreCall.entries,
          entry.2.encode.length < Codec.memoryLimit := by
      rw [hPuts]
      decide +kernel
    exact fun call hCall entry hEntry =>
      hShort entry (List.mem_flatMap.2 ⟨call, hCall, hEntry⟩)
  rcases answers_alike Frame.isLossless
      DirectoryStore.isFresh_small hFits with ⟨hSame, hMemory⟩
  refine ⟨Frame.isLossless, DirectoryStore.isFresh_small, hFits,
    ?_⟩
  rw [hSame, hMemory]
  rfl

end Store

end SnapTree
