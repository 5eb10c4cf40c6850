import SnapTree.Proofs.Storage.Paths
import SnapTree.Storage.FileTree

/-
  This file proves how paths are followed in a file tree that
  changes: what they lead to stays where it is as long as no
  directory is lost.  A name written behind a path leads one
  location further.

  Key definitions include:
    * `FileTree.insert`
    * `FileTree.KeepsDirectories`
    * `FileTree.SameDirectories`
    * `FileTree.Grows`

  Key theorems include:
    * `FileTree.locate_eq_ok_iff`
    * `FileTree.read_eq_ok_iff`
    * `FileTree.KeepsDirectories.locate`
    * `FileTree.sameDirectories_insert`
    * `FileTree.grows_insert`
    * `FileTree.locate_behind`
    * `FileTree.isDirectory_of_makeDirectories`
    * `FileTree.makeDirectories_below`
    * `FileTree.rename_cases`
-/

namespace SnapTree

namespace FileTree

/- A file tree with something else at one location. -/
def insert
    (t : FileTree)
    (location : Location)
    (node : FileNode) : FileTree :=
  { t with nodes := t.nodes.insert location node }

@[simp]
theorem workingDirectory_insert
    (t : FileTree)
    (location : Location)
    (node : FileNode) :
    (t.insert location node).workingDirectory =
      t.workingDirectory :=
  rfl

theorem node?_insert
    {t : FileTree}
    {location : Location}
    {node : FileNode}
    (hBelow : location ≠ [])
    (l : Location) :
    (t.insert location node).node? l =
      if location = l then some node else t.node? l := by
  unfold node? insert
  by_cases hRoot : l = []
  · rw [if_pos hRoot, if_neg (by rw [hRoot]; exact hBelow),
      if_pos hRoot]
  · rw [if_neg hRoot, if_neg hRoot,
      Std.ExtTreeMap.getElem?_insert]
    simp only [Std.LawfulEqOrd.compare_eq_iff_eq]

theorem node?_remove
    {t : FileTree}
    {location : Location}
    (hBelow : location ≠ [])
    (l : Location) :
    (t.remove location).node? l =
      if location = l then none else t.node? l := by
  unfold node? remove
  by_cases hRoot : l = []
  · rw [if_pos hRoot, if_neg (by rw [hRoot]; exact hBelow),
      if_pos hRoot]
  · rw [if_neg hRoot, if_neg hRoot,
      Std.ExtTreeMap.getElem?_erase]
    simp only [Std.LawfulEqOrd.compare_eq_iff_eq]

/- Nothing but a directory stands at the root. -/
theorem ne_nil_of_node?
    {t : FileTree}
    {location : Location}
    (hNode : t.node? location ≠ some .directory) :
    location ≠ [] := by
  rintro rfl
  exact hNode rfl

------------------------------------------------------------
-- One piece after another
------------------------------------------------------------

/- Where a piece leads from a directory, if its size allows. -/
def next?
    (piece : String)
    (location : Location) : Option Location :=
  if Path.isIdle piece then some location
  else if piece = ".." then some location.dropLast
  else if maxNameSize < piece.utf8ByteSize then none
  else some (location ++ [piece])

theorem follow_cons
    {t : FileTree}
    {piece : String}
    {l next : Location}
    (hNode : t.node? l = some .directory)
    (hNext : next? piece l = some next)
    (rest : List String) :
    t.follow (piece :: rest) l = t.follow rest next := by
  unfold next? at hNext
  rw [follow, hNode]
  dsimp only
  repeat' split at hNext
  · simp_all
  · simp_all
  · cases hNext
  · next hIdle hUp hSize =>
      rw [if_neg hIdle, if_neg hUp, if_neg hSize,
        Option.some.inj hNext]

/- A path is followed from directory to directory. -/
theorem exists_next_of_follow
    {t : FileTree}
    {piece : String}
    {rest : List String}
    {l l' : Location}
    (hFollow : t.follow (piece :: rest) l = .ok l') :
    t.node? l = some .directory ∧
      ∃ next, next? piece l = some next ∧
        t.follow rest next = .ok l' := by
  unfold follow at hFollow
  unfold next?
  cases hNode : t.node? l with
  | none =>
      rw [hNode] at hFollow
      cases hFollow
  | some n =>
      rw [hNode] at hFollow
      cases n with
      | file bytes => cases hFollow
      | directory =>
          refine ⟨rfl, ?_⟩
          dsimp only at hFollow
          repeat' split at hFollow
          · simp_all
          · simp_all
          · cases hFollow
          · next hIdle hUp hSize =>
              rw [if_neg hIdle, if_neg hUp, if_neg hSize]
              exact ⟨_, rfl, hFollow⟩

------------------------------------------------------------
-- What paths lead to
------------------------------------------------------------

/- A path that leads somewhere is sound as a whole. -/
theorem locate_eq_ok_iff
    {t : FileTree}
    {p : Path}
    {l : Location} :
    t.locate p = .ok l ↔
      Char.ofNat 0 ∉ p.text.toList ∧ p.text ≠ "" ∧
        p.text.utf8ByteSize ≤ maxPathSize ∧
          t.follow p.pieces
              (if p.isAbsolute then [] else t.workingDirectory) =
            .ok l := by
  unfold locate
  split
  · next hNull =>
      rw [List.contains_iff_mem] at hNull
      exact ⟨nofun, fun h => absurd hNull h.1⟩
  · next hNull =>
      rw [List.contains_iff_mem] at hNull
      split
      · next hText => exact ⟨nofun, fun h => absurd hText h.2.1⟩
      · next hText =>
          split
          · next hSize =>
              exact ⟨nofun,
                fun h => absurd h.2.2.1 (Nat.not_le.2 hSize)⟩
          · next hSize =>
              exact ⟨fun h =>
                ⟨hNull, hText, Nat.not_lt.1 hSize, h⟩,
                fun h => h.2.2.2⟩

theorem read_eq_ok_iff
    {t : FileTree}
    {p : Path}
    {bytes : List UInt8} :
    t.read p = .ok bytes ↔
      ∃ l, t.locate p = .ok l ∧
        t.node? l = some (.file bytes) := by
  unfold read
  cases hLocate : t.locate p with
  | error e => exact ⟨nofun, fun ⟨_, h, _⟩ => nomatch h⟩
  | ok l =>
      dsimp only
      cases hNode : t.node? l with
      | none =>
          refine ⟨nofun, ?_⟩
          rintro ⟨l', hSame, hFile⟩
          rw [← Except.ok.inj hSame, hNode] at hFile
          cases hFile
      | some n =>
          cases n with
          | directory =>
              refine ⟨nofun, ?_⟩
              rintro ⟨l', hSame, hFile⟩
              rw [← Except.ok.inj hSame, hNode] at hFile
              cases hFile
          | file held =>
              constructor
              · intro hOk
                exact ⟨l, rfl, by rw [hNode, Except.ok.inj hOk]⟩
              · rintro ⟨l', hSame, hFile⟩
                rw [← Except.ok.inj hSame, hNode] at hFile
                rw [FileNode.file.inj (Option.some.inj hFile)]

theorem pathExists_iff
    {t : FileTree}
    {p : Path} :
    t.pathExists p = true ↔
      ∃ l, t.locate p = .ok l ∧ (t.node? l).isSome = true := by
  unfold pathExists lookup?
  cases hLocate : t.locate p with
  | error e => simp
  | ok l => simp

theorem isDirectory_iff
    {t : FileTree}
    {p : Path} :
    t.isDirectory p = true ↔
      ∃ l, t.locate p = .ok l ∧ t.node? l = some .directory := by
  unfold isDirectory lookup?
  cases hLocate : t.locate p with
  | error e => simp
  | ok l => simp

------------------------------------------------------------
-- Directories that stay
------------------------------------------------------------

/- All directories of one tree are directories of the other. -/
structure KeepsDirectories (t u : FileTree) : Prop where
  workingDirectory : u.workingDirectory = t.workingDirectory
  directory :
    ∀ l : Location,
      t.node? l = some .directory → u.node? l = some .directory

namespace KeepsDirectories

variable {t u : FileTree} (hKeeps : t.KeepsDirectories u)

include hKeeps

theorem follow
    {pieces : List String}
    {l l' : Location}
    (hFollow : t.follow pieces l = .ok l') :
    u.follow pieces l = .ok l' := by
  induction pieces generalizing l with
  | nil => exact hFollow
  | cons piece rest ih =>
      rcases exists_next_of_follow hFollow with
        ⟨hNode, next, hNext, hRest⟩
      rw [follow_cons (hKeeps.directory l hNode) hNext]
      exact ih hRest

/- Paths are followed from directory to directory. -/
theorem locate
    {p : Path}
    {l : Location}
    (hLocate : t.locate p = .ok l) :
    u.locate p = .ok l := by
  rw [locate_eq_ok_iff] at hLocate ⊢
  rcases hLocate with ⟨hNull, hText, hSize, hFollow⟩
  rw [hKeeps.workingDirectory]
  exact ⟨hNull, hText, hSize, hKeeps.follow hFollow⟩

theorem isDirectory
    {p : Path}
    (hThere : t.isDirectory p = true) :
    u.isDirectory p = true := by
  rcases isDirectory_iff.1 hThere with ⟨l, hLocate, hNode⟩
  exact isDirectory_iff.2
    ⟨l, hKeeps.locate hLocate, hKeeps.directory l hNode⟩

end KeepsDirectories

/- Two trees have the same directories. -/
structure SameDirectories (t u : FileTree) : Prop where
  workingDirectory : u.workingDirectory = t.workingDirectory
  directory :
    ∀ l : Location,
      u.node? l = some .directory ↔ t.node? l = some .directory

namespace SameDirectories

variable {t u v : FileTree}

theorem refl
    (t : FileTree) :
    t.SameDirectories t :=
  ⟨rfl, fun _ => Iff.rfl⟩

theorem trans
    (hFirst : t.SameDirectories u)
    (hSecond : u.SameDirectories v) :
    t.SameDirectories v where
  workingDirectory :=
    hSecond.workingDirectory.trans hFirst.workingDirectory
  directory l :=
    (hSecond.directory l).trans (hFirst.directory l)

theorem keepsDirectories
    (hSame : t.SameDirectories u) :
    t.KeepsDirectories u :=
  ⟨hSame.workingDirectory, fun l => (hSame.directory l).2⟩

end SameDirectories

section Files

variable
  {t : FileTree}
  {location : Location}
  (hNode : t.node? location ≠ some .directory)

include hNode

/- A file may be written where no directory is. -/
theorem sameDirectories_insert
    (bytes : List UInt8) :
    t.SameDirectories (t.insert location (.file bytes)) := by
  refine ⟨rfl, fun l => ?_⟩
  rw [node?_insert (ne_nil_of_node? hNode)]
  split
  · next hSame =>
      rw [← hSame]
      exact ⟨nofun, fun h => absurd h hNode⟩
  · exact Iff.rfl

/- Where no directory is, what is there may be taken away. -/
theorem sameDirectories_remove :
    t.SameDirectories (t.remove location) := by
  refine ⟨rfl, fun l => ?_⟩
  rw [node?_remove (ne_nil_of_node? hNode)]
  split
  · next hSame =>
      rw [← hSame]
      exact ⟨nofun, fun h => absurd h hNode⟩
  · exact Iff.rfl

end Files

------------------------------------------------------------
-- Growing trees
------------------------------------------------------------

/- All that stands in one tree stands in the other as well. -/
structure Grows (t u : FileTree) : Prop where
  workingDirectory : u.workingDirectory = t.workingDirectory
  node :
    ∀ (l : Location) (n : FileNode),
      t.node? l = some n → u.node? l = some n

theorem Grows.refl
    (t : FileTree) :
    t.Grows t :=
  ⟨rfl, fun _ _ h => h⟩

theorem Grows.trans
    {t u v : FileTree}
    (hFirst : t.Grows u)
    (hSecond : u.Grows v) :
    t.Grows v where
  workingDirectory :=
    hSecond.workingDirectory.trans hFirst.workingDirectory
  node l n hNode := hSecond.node l n (hFirst.node l n hNode)

theorem Grows.keepsDirectories
    {t u : FileTree}
    (hGrows : t.Grows u) :
    t.KeepsDirectories u :=
  ⟨hGrows.workingDirectory, fun l => hGrows.node l _⟩

/- A tree grows by what is put where nothing stood. -/
theorem grows_insert
    {t : FileTree}
    {location : Location}
    (hNone : t.node? location = none)
    (node : FileNode) :
    t.Grows (t.insert location node) where
  workingDirectory := rfl
  node l n hNode := by
    have hBelow : location ≠ [] := by
      intro hRoot
      rw [hRoot] at hNone
      cases hNone
    rw [node?_insert hBelow, if_neg]
    · exact hNode
    · intro hSame
      rw [hSame, hNode] at hNone
      cases hNone

------------------------------------------------------------
-- Names behind a path
------------------------------------------------------------

variable {t : FileTree}

/- The pieces at the end of a path are followed last. -/
theorem follow_append
    {front : List String}
    {l l' : Location}
    (hFollow : t.follow front l = .ok l')
    (back : List String) :
    t.follow (front ++ back) l = t.follow back l' := by
  induction front generalizing l with
  | nil =>
      rw [Except.ok.inj hFollow]
      rfl
  | cons piece rest ih =>
      rcases exists_next_of_follow hFollow with
        ⟨hNode, next, hNext, hRest⟩
      rw [List.cons_append, follow_cons hNode hNext]
      exact ih hRest

theorem exists_of_follow_append
    {front back : List String}
    {l l' : Location}
    (hFollow : t.follow (front ++ back) l = .ok l') :
    ∃ middle, t.follow front l = .ok middle ∧
      t.follow back middle = .ok l' := by
  induction front generalizing l with
  | nil => exact ⟨l, rfl, hFollow⟩
  | cons piece rest ih =>
      rcases exists_next_of_follow hFollow with
        ⟨hNode, next, hNext, hRest⟩
      rw [follow_cons hNode hNext]
      exact ih hRest

/- A name that a directory can hold. -/
structure IsName (name : String) : Prop
    extends Path.IsPlain name where
  null : Char.ofNat 0 ∉ name.toList
  size : name.utf8ByteSize ≤ maxNameSize

theorem IsName.next?_eq
    {name : String}
    (hName : IsName name)
    (l : Location) :
    next? name l = some (l ++ [name]) := by
  unfold next?
  rw [hName.idle, if_neg Bool.false_ne_true, if_neg hName.up,
    if_neg (Nat.not_lt.2 hName.size)]

theorem IsName.follow_singleton
    {name : String}
    (hName : IsName name)
    {l : Location}
    (hNode : t.node? l = some .directory) :
    t.follow [name] l = .ok (l ++ [name]) :=
  follow_cons hNode (hName.next?_eq l) []

/- A path that leads somewhere is not empty. -/
theorem text_ne_of_locate
    {p : Path}
    {l : Location}
    (hLocate : t.locate p = .ok l) :
    p.text ≠ "" :=
  (locate_eq_ok_iff.1 hLocate).2.1

/-
  What is written behind a path is looked for where the path
  leads, unless the longer path is too long.
-/
theorem locate_behind
    {p q : Path}
    {names : List String}
    {l : Location}
    (hLocate : t.locate p = .ok l)
    (hPieces : q.pieces = p.pieces ++ names)
    (hAbsolute : q.isAbsolute = p.isAbsolute)
    (hText : q.text ≠ "")
    (hNull :
      Char.ofNat 0 ∈ q.text.toList →
        Char.ofNat 0 ∈ p.text.toList) :
    t.locate q =
      if maxPathSize < q.text.utf8ByteSize then
        .error .nameTooLong
      else t.follow names l := by
  rcases locate_eq_ok_iff.1 hLocate with
    ⟨hNullP, -, -, hFollow⟩
  have hNullQ :
      ¬q.text.toList.contains (Char.ofNat 0) = true := by
    rw [List.contains_iff_mem]
    exact fun hMem => hNullP (hNull hMem)
  unfold locate
  rw [if_neg hNullQ, if_neg hText, hPieces, hAbsolute,
    follow_append hFollow]

/- What comes of a directory that has to be there. -/
theorem ensureDirectory_eq
    {p : Path}
    {l : Location}
    (hLocate : t.locate p = .ok l) :
    t.ensureDirectory p =
      match t.node? l with
      | none => .ok (t.insert l .directory)
      | some .directory => .ok t
      | some (.file _) => .error .alreadyExists := by
  have hMake :
      t.makeDirectory p =
        (t.node? l).elim (.ok (t.insert l .directory))
          (fun _ => .error .alreadyExists) := by
    unfold makeDirectory
    rw [hLocate]
    dsimp only
    cases t.node? l <;> rfl
  have hThere :
      t.isDirectory p = (t.node? l == some .directory) := by
    unfold isDirectory lookup?
    rw [hLocate]
  unfold ensureDirectory
  rw [hMake, hThere]
  cases t.node? l with
  | none => rfl
  | some n => cases n <;> rfl

theorem ensureDirectory_of_error
    {p : Path}
    {e : FileError}
    (hLocate : t.locate p = .error e) :
    t.ensureDirectory p = .error e := by
  unfold ensureDirectory makeDirectory isDirectory lookup?
  rw [hLocate]
  rfl

------------------------------------------------------------
-- Directories that are made
------------------------------------------------------------

/- A directory that has to be there is there. -/
theorem ensureDirectory_of_ok
    {u : FileTree}
    {p : Path}
    (hMade : t.ensureDirectory p = .ok u) :
    t.Grows u ∧ u.isDirectory p = true := by
  cases hLocate : t.locate p with
  | error e =>
      rw [ensureDirectory_of_error hLocate] at hMade
      cases hMade
  | ok l =>
      rw [ensureDirectory_eq hLocate] at hMade
      cases hNode : t.node? l with
      | none =>
          rw [hNode] at hMade
          have hGrows := grows_insert hNode .directory
          have hBelow : l ≠ [] := by
            intro hRoot
            rw [hRoot] at hNode
            cases hNode
          rw [← Except.ok.inj hMade]
          refine ⟨hGrows, isDirectory_iff.2 ⟨l, ?_, ?_⟩⟩
          · exact hGrows.keepsDirectories.locate hLocate
          · rw [node?_insert hBelow, if_pos rfl]
      | some n =>
          rw [hNode] at hMade
          cases n with
          | file bytes => cases hMade
          | directory =>
              rw [← Except.ok.inj hMade]
              exact ⟨Grows.refl t,
                isDirectory_iff.2 ⟨l, hLocate, hNode⟩⟩

/-
  A directory is made at once, or when its ancestors are there.
  If neither can be done, no more than ancestors were made.
-/
theorem makeAll_cons_cases
    {p : Path}
    (hText : p.text ≠ "")
    (parents : List Path) :
    let made := t.makeAll (p :: parents)
    let above := (t.makeAll parents).2
    (∃ e, made.1 = .error e ∧
      (made.2 = t ∨ made.2 = above)) ∨
    (made.1 = .ok () ∧
      (t.ensureDirectory p = .ok made.2 ∨
        above.ensureDirectory p = .ok made.2)) := by
  intro made above
  have hMade : made = t.makeAll (p :: parents) := rfl
  unfold FileTree.makeAll at hMade
  rw [if_neg hText] at hMade
  split at hMade
  · next u hOnce =>
      rw [hMade]
      exact Or.inr ⟨rfl, Or.inl hOnce⟩
  · next hOnce =>
      cases hAbove : t.makeAll parents with
      | mk result u =>
          rw [hAbove] at hMade
          have hLeft : above = u := congrArg Prod.snd hAbove
          rw [hLeft]
          cases result with
          | error e =>
              rw [hMade]
              exact Or.inl ⟨e, rfl, Or.inr rfl⟩
          | ok _ =>
              dsimp only at hMade
              split at hMade
              · next v hThen =>
                  rw [hMade]
                  exact Or.inr ⟨rfl, Or.inr hThen⟩
              · next e hThen =>
                  rw [hMade]
                  exact Or.inl ⟨e, rfl, Or.inr rfl⟩
  · next e _ hOnce =>
      rw [hMade]
      exact Or.inl ⟨e, rfl, Or.inl rfl⟩

/- Making directories takes nothing away. -/
theorem makeAll_grows
    (paths : List Path) :
    t.Grows (t.makeAll paths).2 := by
  induction paths with
  | nil => exact Grows.refl t
  | cons p parents ih =>
      by_cases hText : p.text = ""
      · unfold makeAll
        rw [if_pos hText]
        exact Grows.refl t
      · rcases makeAll_cons_cases (t := t) hText parents with
          ⟨e, -, hLeft | hLeft⟩ | ⟨-, hMade | hMade⟩
        · rw [hLeft]
          exact Grows.refl t
        · rw [hLeft]
          exact ih
        · exact (ensureDirectory_of_ok hMade).1
        · exact ih.trans (ensureDirectory_of_ok hMade).1

/- A directory that was made with its ancestors is there. -/
theorem isDirectory_of_makeDirectories
    {p : Path}
    (hText : p.text ≠ "")
    (hMade : (t.makeDirectories p).1 = .ok ()) :
    (t.makeDirectories p).2.isDirectory p = true := by
  have hAll :
      ∃ parents, t.makeDirectories p = t.makeAll (p :: parents) :=
    ⟨_, rfl⟩
  rcases hAll with ⟨parents, hAll⟩
  rw [hAll] at hMade ⊢
  rcases makeAll_cons_cases (t := t) hText parents with
    ⟨e, hFailed, -⟩ | ⟨-, hOnce | hThen⟩
  · rw [hFailed] at hMade
    cases hMade
  · exact (ensureDirectory_of_ok hOnce).2
  · exact (ensureDirectory_of_ok hThen).2

section Below

variable
  {p : Path}
  {dir name : String}
  {l : Location}
  (hLocate : t.locate p = .ok l)
  (hName : IsName name)

include hLocate hName

/- One name behind a path. -/
theorem locate_below :
    t.locate (p.below name) =
      if maxPathSize < (p.below name).text.utf8ByteSize then
        .error .nameTooLong
      else t.follow [name] l := by
  have hText := text_ne_of_locate hLocate
  apply locate_behind hLocate (Path.pieces_below hName.toIsPlain)
    (Path.isAbsolute_below hText) Path.text_below_ne
  rw [Path.toList_below, List.mem_append, List.mem_cons]
  rintro (hMem | hSlash | hMem)
  · exact hMem
  · exact absurd hSlash (by decide)
  · exact absurd hMem hName.null

omit hLocate in
/- What one name behind a path leads to is in a directory. -/
theorem exists_of_locate_below
    {x : Location}
    (hText : p.text ≠ "")
    (hBelow : t.locate (p.below name) = .ok x) :
    ∃ l, t.locate p = .ok l ∧ t.node? l = some .directory ∧
      x = l ++ [name] := by
  rcases locate_eq_ok_iff.1 hBelow with
    ⟨hNull, -, hSize, hFollow⟩
  rw [Path.pieces_below hName.toIsPlain,
    Path.isAbsolute_below hText] at hFollow
  rcases exists_of_follow_append hFollow with
    ⟨l, hFront, hBack⟩
  rcases exists_next_of_follow hBack with
    ⟨hNode, next, hNext, hRest⟩
  rw [hName.next?_eq] at hNext
  refine ⟨l, locate_eq_ok_iff.2 ⟨?_, hText, ?_, hFront⟩, hNode, ?_⟩
  · rw [Path.toList_below, List.mem_append, not_or] at hNull
    exact hNull.1
  · refine Nat.le_trans ?_ hSize
    unfold Path.below
    rw [String.utf8ByteSize_append, String.utf8ByteSize_append,
      Nat.add_assoc]
    exact Nat.le_add_right _ _
  · rw [← Except.ok.inj hRest, Option.some.inj hNext]

/- Two names behind a path. -/
theorem locate_below_below
    (hDir : IsName dir) :
    t.locate ((p.below dir).below name) =
      if maxPathSize <
          ((p.below dir).below name).text.utf8ByteSize then
        .error .nameTooLong
      else t.follow [dir, name] l := by
  have hText := text_ne_of_locate hLocate
  apply locate_behind hLocate
  · rw [Path.pieces_below hName.toIsPlain,
      Path.pieces_below hDir.toIsPlain, List.append_assoc]
    rfl
  · rw [Path.isAbsolute_below Path.text_below_ne,
      Path.isAbsolute_below hText]
  · exact Path.text_below_ne
  · rw [Path.toList_below, Path.toList_below]
    simp only [List.mem_append, List.mem_cons]
    rintro ((hMem | hSlash | hMem) | hSlash | hMem)
    · exact hMem
    · exact absurd hSlash (by decide)
    · exact absurd hMem hDir.null
    · exact absurd hSlash (by decide)
    · exact absurd hMem hName.null

/-
  A directory made behind a path to a directory is all that is
  made, if anything is.  It cannot be made if its path is too
  long, or if a file stands in its place.
-/
theorem makeDirectories_below
    (hNode : t.node? l = some .directory) :
    let made := t.makeDirectories (p.below name)
    (∃ e, made = (.error e, t) ∧
      (maxPathSize < (p.below name).text.utf8ByteSize ∨
        ∃ bytes, t.node? (l ++ [name]) = some (.file bytes))) ∨
    (made = (.ok (), t) ∧
      t.node? (l ++ [name]) = some .directory) ∨
    (made = (.ok (), t.insert (l ++ [name]) .directory) ∧
      t.node? (l ++ [name]) = none) := by
  intro made
  have hMade :
      ∃ parents, made = t.makeAll (p.below name :: parents) :=
    ⟨_, rfl⟩
  rcases hMade with ⟨parents, hMade⟩
  rw [hMade, makeAll, if_neg Path.text_below_ne]
  have hBelow := locate_below hLocate hName
  rw [hName.follow_singleton hNode] at hBelow
  split at hBelow
  · next hSize =>
      rw [ensureDirectory_of_error hBelow]
      exact Or.inl ⟨_, rfl, Or.inl hSize⟩
  · rw [ensureDirectory_eq hBelow]
    cases hThere : t.node? (l ++ [name]) with
    | none => exact Or.inr (Or.inr ⟨rfl, rfl⟩)
    | some n =>
        cases n with
        | file bytes =>
            exact Or.inl ⟨_, rfl, Or.inr ⟨bytes, rfl⟩⟩
        | directory => exact Or.inr (Or.inl ⟨rfl, rfl⟩)

end Below

------------------------------------------------------------
-- Files
------------------------------------------------------------

/- A file is written where no directory is, if anywhere. -/
theorem writeFile_cases
    (t : FileTree)
    (p : Path)
    (bytes : List UInt8) :
    (∃ e, t.writeFile p bytes = .error e) ∨
    ∃ x, t.locate p = .ok x ∧ t.node? x ≠ some .directory ∧
      t.writeFile p bytes = .ok (t.insert x (.file bytes)) := by
  unfold writeFile
  cases hLocate : t.locate p with
  | error e => exact Or.inl ⟨e, rfl⟩
  | ok x =>
      dsimp only
      by_cases hNode : t.node? x = some .directory
      · rw [if_pos hNode]
        exact Or.inl ⟨_, rfl⟩
      · rw [if_neg hNode]
        exact Or.inr ⟨x, rfl, hNode, rfl⟩

theorem writeFile_eq_ok
    {p : Path}
    {x : Location}
    (hLocate : t.locate p = .ok x)
    (hNode : t.node? x ≠ some .directory)
    (bytes : List UInt8) :
    t.writeFile p bytes = .ok (t.insert x (.file bytes)) := by
  unfold writeFile
  rw [hLocate]
  exact if_neg hNode

section Renaming

variable
  {p : Path}
  {x : Location}
  {bytes : List UInt8}
  (hLocate : t.locate p = .ok x)
  (hFile : t.node? x = some (.file bytes))

include hLocate hFile

/- A file is renamed to where no directory is. -/
theorem rename_eq_ok
    {q : Path}
    {y : Location}
    (hTarget : t.locate q = .ok y)
    (hNode : t.node? y ≠ some .directory) :
    t.rename p q =
      .ok ((t.remove x).insert y (.file bytes)) := by
  unfold rename
  rw [hLocate, hTarget]
  dsimp only
  rw [hFile]
  cases hThere : t.node? y with
  | none => rfl
  | some n =>
      cases n with
      | file _ => rfl
      | directory => exact absurd hThere hNode

/- A file is renamed to where it can be, if anywhere. -/
theorem rename_cases
    (q : Path) :
    (∃ e, t.rename p q = .error e) ∨
    ∃ y, t.locate q = .ok y ∧ t.node? y ≠ some .directory ∧
      t.rename p q =
        .ok ((t.remove x).insert y (.file bytes)) := by
  cases hTarget : t.locate q with
  | error e =>
      unfold rename
      rw [hLocate, hTarget]
      exact Or.inl ⟨e, rfl⟩
  | ok y =>
      by_cases hNode : t.node? y = some .directory
      · unfold rename
        rw [hLocate, hTarget]
        dsimp only
        rw [hFile, hNode]
        exact Or.inl ⟨_, rfl⟩
      · exact Or.inr
          ⟨y, rfl, hNode, rename_eq_ok hLocate hFile hTarget hNode⟩

theorem removeFile_eq :
    t.removeFile p = t.remove x := by
  unfold removeFile
  rw [hLocate]
  dsimp only
  rw [hFile]

end Renaming

end FileTree

end SnapTree
