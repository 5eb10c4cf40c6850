import SnapTree.Proofs.Data.Attempts
import SnapTree.Proofs.Storage.Components
import SnapTree.Proofs.Storage.Objects

/-
  This file proves what writing by way of the staging directory
  does.  A file that waits is never among the objects, so they
  stay as they are until it is renamed.  If the disk fails, the
  file may be left where it is, whole or in part.

  Key definitions include:
    * `DirectoryStore.SameObjects`
    * `DirectoryStore.Apart`

  Key theorems include:
    * `DirectoryStore.staged_ne`
    * `DirectoryStore.apart_insert`
    * `DirectoryStore.writeStaged_cases`
    * `DirectoryStore.writeStaged_eq_ok`
-/

namespace SnapTree

------------------------------------------------------------
-- Names of files that wait
------------------------------------------------------------

namespace Uuid

/- The text of an identifier is digits and hyphens. -/
theorem mem_toString
    {u : Uuid}
    {c : Char}
    (hMem : c ∈ (toString u).toList) :
    c = '-' ∨ c ∈ Hex.ofBytes u.toList := by
  change c ∈ (String.ofList _).toList at hMem
  rw [String.toList_ofList] at hMem
  have hGroup :
      ∀ start size,
        c ∈ ((Hex.ofBytes u.toList).drop start).take size →
          c ∈ Hex.ofBytes u.toList :=
    fun _ _ h => List.mem_of_mem_drop (List.mem_of_mem_take h)
  simp only [List.mem_append, List.mem_cons] at hMem
  grind

theorem length_toString
    (u : Uuid) :
    (toString u).toList.length = 36 := by
  have hDigits : (Hex.ofBytes u.toList).length = 32 := by
    rw [Hex.length_ofBytes]
    simp [toList]
  change (String.ofList _).toList.length = 36
  rw [String.toList_ofList]
  simp [hDigits]

end Uuid

namespace DirectoryStore

/- The name of a file that waits. -/
def stagedName
    (id : Uuid) : String :=
  s!"{id}.tmp"

theorem toList_stagedName
    (id : Uuid) :
    (stagedName id).toList =
      (toString id).toList ++ ['.', 't', 'm', 'p'] := by
  have hText : stagedName id = toString id ++ ".tmp" := rfl
  rw [hText, String.toList_append]
  rfl

theorem plain_of_mem_stagedName
    {id : Uuid}
    {c : Char}
    (hMem : c ∈ (stagedName id).toList) :
    c ≠ '/' ∧ c ≠ Char.ofNat 0 ∧ c.utf8Size = 1 := by
  have hEnding :
      ∀ d ∈ ['-', '.', 't', 'm', 'p'],
        d ≠ '/' ∧ d ≠ Char.ofNat 0 ∧ d.utf8Size = 1 := by
    simp only [List.forall_mem_cons]
    exact ⟨by decide, by decide, by decide, by decide, by decide,
      nofun⟩
  rw [toList_stagedName, List.mem_append] at hMem
  rcases hMem with hText | hEnd
  · rcases Uuid.mem_toString hText with rfl | hDigit
    · exact hEnding _ List.mem_cons_self
    · rcases Hex.plain_of_mem_ofBytes hDigit with
        ⟨hSlash, -, hNull⟩
      exact ⟨hSlash, hNull, Hex.utf8Size_of_mem_ofBytes hDigit⟩
  · exact hEnding c (List.mem_cons_of_mem _ hEnd)

theorem length_stagedName
    (id : Uuid) :
    (stagedName id).toList.length = 40 := by
  rw [toList_stagedName, List.length_append, Uuid.length_toString]
  rfl

theorem utf8ByteSize_stagedName
    (id : Uuid) :
    (stagedName id).utf8ByteSize = 40 := by
  rw [← String.ofList_toList (s := stagedName id),
    utf8ByteSize_ofList_eq
      (fun c hC => (plain_of_mem_stagedName hC).2.2),
    length_stagedName]

theorem isName_stagedName
    (id : Uuid) :
    FileTree.IsName (stagedName id) := by
  have hLength := length_stagedName id
  have hOther :
      ∀ name : String, name.toList.length < 40 →
        stagedName id ≠ name := by
    rintro name hShort rfl
    omega
  refine ⟨⟨?_, ?_, hOther ".." (by decide)⟩, ?_, ?_⟩
  · exact fun hMem => (plain_of_mem_stagedName hMem).1 rfl
  · have hNotNone := hOther "" (by decide)
    have hNotDot := hOther "." (by decide)
    simp [Path.isIdle, hNotNone, hNotDot]
  · exact fun hMem => (plain_of_mem_stagedName hMem).2.1 rfl
  · rw [utf8ByteSize_stagedName]
    decide

variable {s : DirectoryStore}

/- A file waits one name below the staging directory. -/
theorem stagedPath_eq
    (s : DirectoryStore)
    (id : Uuid) :
    s.stagedPath id = s.staging.below (stagedName id) := by
  apply Path.join_name (isName_stagedName id)
  · exact Path.text_join_ne (by decide) s.root
  · unfold staging
    rw [Path.getLast?_join (by decide) (by decide)]
    decide

------------------------------------------------------------
-- Away from the objects
------------------------------------------------------------

variable {t u : FileTree}

/- A name behind a path is found where the path is followed. -/
theorem exists_front
    {p : Path}
    {name : String}
    {x : Location}
    (hName : FileTree.IsName name)
    (hLocate : t.locate (p.join ⟨name⟩) = .ok x) :
    ∃ l,
      t.follow p.front
          (if p.isAbsolute then [] else t.workingDirectory) =
        .ok l ∧ x = l ++ [name] := by
  have hRelative := Path.isAbsolute_name hName
  have hPieces : (Path.mk name).pieces = [name] := by
    unfold Path.pieces
    rw [Path.splitSlashes_of_notMem hName.slash]
    simp
  rcases FileTree.locate_eq_ok_iff.1 hLocate with
    ⟨-, -, -, hFollow⟩
  rw [Path.pieces_join hRelative, Path.isAbsolute_join hRelative,
    hPieces] at hFollow
  rcases FileTree.exists_of_follow_append hFollow with
    ⟨l, hFront, hBack⟩
  rcases FileTree.exists_next_of_follow hBack with
    ⟨-, next, hNext, hRest⟩
  rw [hName.next?_eq] at hNext
  refine ⟨l, hFront, ?_⟩
  rw [← Except.ok.inj hRest, Option.some.inj hNext]

/- Objects and files that wait are in different directories. -/
theorem staging_ne_objects
    {l m : Location}
    (hObjects : t.locate s.objects = .ok l)
    (hStaging : t.locate s.staging = .ok m)
    (names names' : List String) :
    m ++ names ≠ l ++ names' := by
  have hObjectsName : FileTree.IsName "objects" :=
    ⟨⟨by decide, by decide, by decide⟩, by decide, by decide⟩
  have hStagingName : FileTree.IsName "tmp" :=
    ⟨⟨by decide, by decide, by decide⟩, by decide, by decide⟩
  rcases exists_front hObjectsName hObjects with
    ⟨r, hRoot, rfl⟩
  rcases exists_front hStagingName hStaging with
    ⟨r', hRoot', rfl⟩
  rw [hRoot] at hRoot'
  rw [← Except.ok.inj hRoot', List.append_assoc,
    List.append_assoc]
  intro hSame
  have hNames := List.append_cancel_left hSame
  exact absurd (List.cons_eq_cons.1 hNames).1 (by decide)

/- A file that waits is not among the objects. -/
theorem staged_ne
    {id : Uuid}
    {l x : Location}
    (hStaged : t.locate (s.stagedPath id) = .ok x)
    (hObjects : t.locate s.objects = .ok l)
    (names : List String) :
    x ≠ l ++ names := by
  rw [stagedPath_eq] at hStaged
  rcases FileTree.exists_of_locate_below (isName_stagedName id)
      (Path.text_join_ne (by decide) s.root) hStaged with
    ⟨m, hStaging, -, rfl⟩
  exact staging_ne_objects hObjects hStaging _ names

/-
  The directory of all objects is where it was, and all that
  is in it is as it was.  Anything else may have changed.
-/
structure SameObjects
    (s : DirectoryStore)
    (t u : FileTree) : Prop where
  located :
    ∀ l, t.locate s.objects = .ok l → u.locate s.objects = .ok l
  node :
    ∀ l, t.locate s.objects = .ok l →
      ∀ names, u.node? (l ++ names) = t.node? (l ++ names)

theorem SameObjects.refl
    (s : DirectoryStore)
    (t : FileTree) :
    s.SameObjects t t :=
  ⟨fun _ h => h, fun _ _ _ => rfl⟩

theorem SameObjects.trans
    {v : FileTree}
    (hFirst : s.SameObjects t u)
    (hSecond : s.SameObjects u v) :
    s.SameObjects t v where
  located l hLocate :=
    hSecond.located l (hFirst.located l hLocate)
  node l hLocate names := by
    rw [hSecond.node l (hFirst.located l hLocate),
      hFirst.node l hLocate]

/- The trees differ in files only, none of them an object. -/
structure Apart
    (s : DirectoryStore)
    (t u : FileTree) : Prop where
  objects : s.SameObjects t u
  directories : t.SameDirectories u

theorem Apart.refl
    (s : DirectoryStore)
    (t : FileTree) :
    s.Apart t t :=
  ⟨.refl s t, .refl t⟩

theorem Apart.trans
    {v : FileTree}
    (hFirst : s.Apart t u)
    (hSecond : s.Apart u v) :
    s.Apart t v :=
  ⟨hFirst.objects.trans hSecond.objects,
    hFirst.directories.trans hSecond.directories⟩

section Staged

variable
  {id : Uuid}
  {x : Location}
  (hStaged : t.locate (s.stagedPath id) = .ok x)
  (hNode : t.node? x ≠ some .directory)

include hStaged hNode

/- Whatever is written to a file that waits. -/
theorem apart_insert
    (bytes : List UInt8) :
    s.Apart t (t.insert x (.file bytes)) := by
  have hSame := FileTree.sameDirectories_insert hNode bytes
  refine ⟨⟨?_, ?_⟩, hSame⟩
  · exact fun l => hSame.keepsDirectories.locate
  · intro l hObjects names
    rw [FileTree.node?_insert (FileTree.ne_nil_of_node? hNode),
      if_neg (staged_ne hStaged hObjects names)]

/- A file that waits may be removed. -/
theorem apart_remove :
    s.Apart t (t.remove x) := by
  have hSame := FileTree.sameDirectories_remove hNode
  refine ⟨⟨?_, ?_⟩, hSame⟩
  · exact fun l => hSame.keepsDirectories.locate
  · intro l hObjects names
    rw [FileTree.node?_remove (FileTree.ne_nil_of_node? hNode),
      if_neg (staged_ne hStaged hObjects names)]

end Staged

------------------------------------------------------------
-- One step of writing after another
------------------------------------------------------------

theorem outcome_step
    (f : FileTree → Except FileError FileTree)
    (t : FileTree) :
    outcome (step f) t =
      match f t with
      | .ok u => (.ok (), u)
      | .error e => (.error (.file e), t) := by
  unfold step
  rw [outcome_bind, outcome_get]
  dsimp only
  cases f t <;> rfl

theorem outcome_makeDirectories
    (p : Path)
    (t : FileTree) :
    outcome (makeDirectories p) t =
      match t.makeDirectories p with
      | (.ok _, u) => (.ok (), u)
      | (.error e, u) => (.error (.file e), u) := by
  unfold makeDirectories
  rw [outcome_bind, outcome_get]
  dsimp only
  cases t.makeDirectories p with
  | mk result u => cases result <;> rfl

/- The directory is made as far as it can be, or not at all. -/
theorem makeParent_cases
    {target : Path}
    {made : Except FileError Unit × FileTree}
    (hMade :
      t.makeDirectories (target.parent?.getD ⟨""⟩) = made)
    (fault : Option DiskFault) :
    (∃ e u, (u = t ∨ u = made.2) ∧
      outcome (makeParent target fault) t = (.error e, u)) ∨
    (made.1 = .ok () ∧
      outcome (makeParent target fault) t = (.ok (), made.2)) := by
  unfold makeParent
  split
  · next e => exact Or.inl ⟨.file e, t, Or.inl rfl, rfl⟩
  · rw [outcome_makeDirectories, hMade]
    rcases made with ⟨e | _, u⟩
    · exact Or.inl ⟨.file e, u, Or.inr rfl, rfl⟩
    · exact Or.inr ⟨rfl, rfl⟩

/-
  A file is written in whole.  Or else it is not created, or a
  part of it is written.
-/
theorem fill_cases
    (p : Path)
    (bytes : List UInt8)
    (fault : Option DiskFault)
    (t : FileTree) :
    (∃ e, outcome (fill p bytes fault) t = (.error e, t)) ∨
    ∃ x, t.locate p = .ok x ∧ t.node? x ≠ some .directory ∧
      ((∃ e part,
        outcome (fill p bytes fault) t =
          (.error e, t.insert x (.file part))) ∨
      outcome (fill p bytes fault) t =
        (.ok (), t.insert x (.file bytes))) := by
  unfold fill
  split
  · next e => exact Or.inl ⟨.file e, rfl⟩
  · next count e =>
      rw [outcome_bind, outcome_step]
      rcases FileTree.writeFile_cases t p (bytes.take count) with
        ⟨e', hWrite⟩ | ⟨x, hLocate, hNode, hWrite⟩
      · rw [hWrite]
        exact Or.inl ⟨_, rfl⟩
      · rw [hWrite]
        exact Or.inr ⟨x, hLocate, hNode, Or.inl ⟨_, _, rfl⟩⟩
  · rw [outcome_step]
    rcases FileTree.writeFile_cases t p bytes with
      ⟨e, hWrite⟩ | ⟨x, hLocate, hNode, hWrite⟩
    · rw [hWrite]
      exact Or.inl ⟨_, rfl⟩
    · rw [hWrite]
      exact Or.inr ⟨x, hLocate, hNode, Or.inr rfl⟩

section Settling

variable
  {p : Path}
  {x : Location}
  {bytes : List UInt8}
  (hLocate : t.locate p = .ok x)
  (hFile : t.node? x = some (.file bytes))

include hLocate hFile

/-
  A file is renamed.  Or else it is removed, unless that cannot
  be done either.
-/
theorem settle_cases
    (target : Path)
    (fault : Option DiskFault) :
    (∃ e u, (u = t ∨ u = t.remove x) ∧
      outcome (settle p target fault) t = (.error e, u)) ∨
    ∃ y, t.locate target = .ok y ∧ t.node? y ≠ some .directory ∧
      outcome (settle p target fault) t =
        (.ok (), (t.remove x).insert y (.file bytes)) := by
  have hRemoved := FileTree.removeFile_eq hLocate hFile
  unfold settle
  split
  · next removed e =>
      cases removed with
      | true => exact Or.inl ⟨.file e, _, Or.inr hRemoved, rfl⟩
      | false => exact Or.inl ⟨.file e, t, Or.inl rfl, rfl⟩
  · rw [outcome_bind, outcome_get]
    dsimp only
    rcases FileTree.rename_cases hLocate hFile target with
      ⟨e, hRename⟩ | ⟨y, hTarget, hNode, hRename⟩
    · rw [hRename]
      exact Or.inl ⟨.file e, _, Or.inr hRemoved, rfl⟩
    · rw [hRename]
      exact Or.inr ⟨y, hTarget, hNode, rfl⟩

end Settling

/-
  What comes of writing a file.  Nothing but its directory and
  files that wait have changed if it fails, and if it does not,
  these and the file itself.
-/
theorem writeStaged_cases
    {target : Path}
    {made : Except FileError Unit × FileTree}
    (hMade :
      t.makeDirectories (target.parent?.getD ⟨""⟩) = made)
    (w : DiskWrite)
    (bytes : List UInt8) :
    (∃ e u v, (u = t ∨ u = made.2) ∧ s.Apart u v ∧
      outcome (s.writeStaged w target bytes) t = (.error e, v)) ∨
    (made.1 = .ok () ∧
      ∃ v y, s.Apart made.2 v ∧ v.locate target = .ok y ∧
        v.node? y ≠ some .directory ∧
          outcome (s.writeStaged w target bytes) t =
            (.ok (), v.insert y (.file bytes))) := by
  unfold writeStaged
  rw [outcome_bind]
  rcases makeParent_cases hMade w.fault with
    ⟨e, u, hLeft, hParent⟩ | ⟨hOk, hParent⟩
  · rw [hParent]
    exact Or.inl ⟨e, u, u, hLeft, .refl s u, rfl⟩
  rw [hParent]
  dsimp only
  rw [outcome_bind]
  rcases fill_cases (s.stagedPath w.id) bytes w.fault made.2 with
    ⟨e, hFill⟩ | ⟨x, hStaged, hNode, ⟨e, part, hFill⟩ | hFill⟩
  · rw [hFill]
    exact Or.inl ⟨e, _, _, Or.inr rfl, .refl s _, rfl⟩
  · rw [hFill]
    exact Or.inl
      ⟨e, _, _, Or.inr rfl, apart_insert hStaged hNode part, rfl⟩
  rw [hFill]
  dsimp only
  -- The file waits, and it is all there.
  have hWaits := apart_insert hStaged hNode bytes
  have hThere :
      (made.2.insert x (.file bytes)).locate
          (s.stagedPath w.id) =
        .ok x :=
    hWaits.directories.keepsDirectories.locate hStaged
  have hFile :
      (made.2.insert x (.file bytes)).node? x =
        some (.file bytes) := by
    rw [FileTree.node?_insert (FileTree.ne_nil_of_node? hNode),
      if_pos rfl]
  have hGone :=
    apart_remove hThere (by rw [hFile]; exact nofun)
  rcases settle_cases hThere hFile target w.fault with
    ⟨e, u, hLeft, hSettle⟩ | ⟨y, hTarget, hPlace, hSettle⟩
  · rw [hSettle]
    refine Or.inl ⟨e, made.2, u, Or.inr rfl, ?_, rfl⟩
    rcases hLeft with rfl | rfl
    · exact hWaits
    · exact hWaits.trans hGone
  · rw [hSettle]
    refine Or.inr ⟨hOk, _, y, hWaits.trans hGone, ?_, ?_, rfl⟩
    · exact hGone.directories.keepsDirectories.locate hTarget
    · rw [Ne, hGone.directories.directory]
      exact hPlace

/- No file is written if the disk fails. -/
theorem writeStaged_of_fault
    {w : DiskWrite}
    {fault : DiskFault}
    (hFault : w.fault = some fault)
    (target : Path)
    (bytes : List UInt8)
    (t : FileTree) :
    ∃ e v,
      outcome (s.writeStaged w target bytes) t = (.error e, v) := by
  unfold writeStaged
  rw [hFault]
  cases fault with
  | directory e =>
      rw [outcome_bind]
      exact ⟨.file e, t, rfl⟩
  | create e =>
      apply outcome_bind_eq_error
      intro _ u
      rw [outcome_bind]
      exact ⟨.file e, u, rfl⟩
  | write count e =>
      apply outcome_bind_eq_error
      intro _ u
      have hFill :
          ∃ e' v,
            outcome
                (fill (s.stagedPath w.id) bytes
                  (some (.write count e))) u =
              (.error e', v) := by
        unfold fill
        apply outcome_bind_eq_error
        exact fun _ v => ⟨.file e, v, outcome_throw _ v⟩
      rcases hFill with ⟨e', v, hFill⟩
      rw [outcome_bind, hFill]
      exact ⟨e', v, rfl⟩
  | rename removed e =>
      apply outcome_bind_eq_error
      intro _ u
      apply outcome_bind_eq_error
      intro _ v
      cases removed with
      | true => exact ⟨.file e, _, rfl⟩
      | false => exact ⟨.file e, v, rfl⟩

/- A file is written if the disk does not fail and has room. -/
theorem writeStaged_eq_ok
    {target : Path}
    {made : FileTree}
    (hMade :
      t.makeDirectories (target.parent?.getD ⟨""⟩) =
        (.ok (), made))
    {w : DiskWrite}
    (hSound : w.fault = none)
    {x y : Location}
    (hStaged : made.locate (s.stagedPath w.id) = .ok x)
    (hNode : made.node? x ≠ some .directory)
    (hTarget : made.locate target = .ok y)
    (hPlace : made.node? y ≠ some .directory)
    (bytes : List UInt8) :
    (outcome (s.writeStaged w target bytes) t).1 = .ok () := by
  have hSame := FileTree.sameDirectories_insert hNode bytes
  have hFile :
      (made.insert x (.file bytes)).node? x =
        some (.file bytes) := by
    rw [FileTree.node?_insert (FileTree.ne_nil_of_node? hNode),
      if_pos rfl]
  have hRename :=
    FileTree.rename_eq_ok
      (hSame.keepsDirectories.locate hStaged) hFile
      (hSame.keepsDirectories.locate hTarget)
      (by
        rw [Ne, hSame.directory]
        exact hPlace)
  unfold writeStaged makeParent fill settle
  rw [hSound, outcome_bind, outcome_makeDirectories, hMade]
  dsimp only
  rw [outcome_bind, outcome_step,
    FileTree.writeFile_eq_ok hStaged hNode]
  dsimp only
  rw [outcome_bind, outcome_get]
  dsimp only
  rw [hRename]
  rfl

end DirectoryStore

end SnapTree
