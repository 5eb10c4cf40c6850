import SnapTree.Proofs.Data.Results
import SnapTree.Proofs.Storage.Staging

/-
  This file proves that a store in a directory keeps what was
  put into it: a put that succeeds leaves an object under its
  checksum, and one that fails leaves all objects as they were.
  What is read of it is what was put if the compression loses
  nothing.

  Key definitions include:
    * `Compression.IsLossless`
    * `DirectoryStore.Continues`
    * `DirectoryStore.Has`
    * `DirectoryStore.Keeps`

  Key theorems include:
    * `DirectoryStore.Keeps.put_cases`
    * `DirectoryStore.Keeps.put`
    * `DirectoryStore.fetch_eq`
-/

namespace SnapTree

variable [Compression]

/-
  Decoding undoes encoding, of all that can be held in memory.
-/
def Compression.IsLossless : Prop :=
  ∀ bytes : List UInt8, bytes.length < Codec.memoryLimit →
    decode (encode bytes) = .ok bytes

namespace DirectoryStore

variable {s : DirectoryStore}

------------------------------------------------------------
-- What a put does
------------------------------------------------------------

/- A put does nothing if anything stands at the path. -/
theorem outcome_put
    (w : DiskWrite)
    (c : Checksum)
    (a : Asset)
    (t : FileTree) :
    outcome (s.put w c a) t =
      if t.pathExists (s.objectPath c) then (.ok (), t)
      else
        outcome
          (s.writeStaged w (s.objectPath c)
            (Compression.encode a.encode)) t := by
  unfold put
  rw [outcome_bind, outcome_get]
  dsimp only
  split
  · rfl
  · rfl

/-
  One tree continues another as a put may: no directory is
  lost, none is new but that of the object, and what is at the
  places of objects stays there.
-/
structure Continues
    (l : Location)
    (c : Checksum)
    (t u : FileTree) : Prop where
  directories : t.KeepsDirectories u
  new :
    ∀ x, u.node? x = some .directory →
      t.node? x = some .directory ∨ x = l ++ [shelfName c]
  stays :
    ∀ b n, t.node? (place l b) = some n →
      u.node? (place l b) = some n

namespace Continues

variable {l : Location} {c : Checksum} {t u v : FileTree}

omit [Compression]

theorem refl
    (l : Location)
    (c : Checksum)
    (t : FileTree) :
    Continues l c t t :=
  ⟨⟨rfl, fun _ h => h⟩, fun _ => Or.inl, fun _ _ h => h⟩

theorem trans
    (hFirst : Continues l c t u)
    (hSecond : Continues l c u v) :
    Continues l c t v where
  directories :=
    { workingDirectory :=
        hSecond.directories.workingDirectory.trans
          hFirst.directories.workingDirectory
      directory := fun x hX =>
        hSecond.directories.directory x
          (hFirst.directories.directory x hX) }
  new x hX :=
    (hSecond.new x hX).elim (hFirst.new x) Or.inr
  stays b n hNode := hSecond.stays b n (hFirst.stays b n hNode)

/- The directory of the object is made. -/
theorem insert_shelf
    (hNone : t.node? (l ++ [shelfName c]) = none) :
    Continues l c t (t.insert (l ++ [shelfName c]) .directory) where
  directories :=
    (FileTree.grows_insert hNone .directory).keepsDirectories
  new x hX := by
    rw [FileTree.node?_insert (shelf_ne_nil l c)] at hX
    split at hX
    · next hSame => exact Or.inr hSame.symm
    · exact Or.inl hX
  stays b := (FileTree.grows_insert hNone .directory).node _

/- The object is added to the others. -/
theorem insert_object
    (hNone : t.node? (place l c) = none)
    (bytes : List UInt8) :
    Continues l c t (t.insert (place l c) (.file bytes)) where
  directories :=
    (FileTree.grows_insert hNone (.file bytes)).keepsDirectories
  new x hX := by
    have hNode : t.node? (place l c) ≠ some .directory := by
      rw [hNone]
      exact nofun
    exact Or.inl
      ((FileTree.sameDirectories_insert hNode bytes).directory x
        |>.1 hX)
  stays b := (FileTree.grows_insert hNone (.file bytes)).node _

/- Files change that are not objects. -/
theorem of_apart
    (hObjects : t.locate s.objects = .ok l)
    (hApart : s.Apart t u) :
    Continues l c t u where
  directories := hApart.directories.keepsDirectories
  new x hX := Or.inl ((hApart.directories.directory x).1 hX)
  stays b n hNode := by
    rw [place, hApart.objects.node l hObjects]
    exact hNode

end Continues

------------------------------------------------------------
-- What a directory keeps
------------------------------------------------------------

/- An asset can be read where its object belongs. -/
def Has
    (s : DirectoryStore)
    (t : FileTree)
    (c : Checksum)
    (a : Asset) : Prop :=
  t.read (s.objectPath c) = .ok (Compression.encode a.encode)

/-
  The directory of all objects is at `l`, what it may hold at
  the places of objects are directories of such, and frames of
  assets that suit their checksums.
-/
structure Keeps
    (s : DirectoryStore)
    (l : Location)
    (P : Checksum → Asset → Prop)
    (t : FileTree) : Prop where
  located : t.locate s.objects = .ok l
  directory : t.node? l = some .directory
  shelf :
    ∀ (c : Checksum) (n : FileNode),
      t.node? (l ++ [shelfName c]) = some n → n = .directory
  object :
    ∀ (c : Checksum) (n : FileNode),
      t.node? (place l c) = some n →
        t.node? (l ++ [shelfName c]) = some .directory ∧
          ∃ a, P c a ∧ n = .file (Compression.encode a.encode)

namespace Keeps

variable
  {l : Location}
  {P : Checksum → Asset → Prop}
  {t : FileTree}
  (hKeeps : s.Keeps l P t)
  (c : Checksum)

include hKeeps

/- Where the path of an object leads if there is a shelf. -/
theorem locate_objectPath
    (hShelf : t.node? (l ++ [shelfName c]) = some .directory) :
    t.locate (s.objectPath c) =
      if FileTree.maxPathSize <
          (s.objectPath c).text.utf8ByteSize then
        .error .nameTooLong
      else .ok (place l c) := by
  have hShelfName := isName_shelfName c
  have hObjectName := isName_objectName c
  have hFollow :
      t.follow [shelfName c, objectName c] l =
        .ok (place l c) := by
    rw [FileTree.follow_cons hKeeps.directory
      (hShelfName.next?_eq l),
      hObjectName.follow_singleton hShelf]
    simp [place]
  rw [objectPath_eq,
    FileTree.locate_below_below hKeeps.located hObjectName
      hShelfName, hFollow]

/- The path of an object leads nowhere else. -/
theorem eq_place
    {l' : Location}
    (hLocate : t.locate (s.objectPath c) = .ok l') :
    l' = place l c ∧
      t.node? (l ++ [shelfName c]) = some .directory := by
  have hShelfName := isName_shelfName c
  have hObjectName := isName_objectName c
  rw [objectPath_eq,
    FileTree.locate_below_below hKeeps.located hObjectName
      hShelfName] at hLocate
  split at hLocate
  · cases hLocate
  · rcases FileTree.exists_next_of_follow hLocate with
      ⟨-, shelf, hShelf, hLocate⟩
    rw [hShelfName.next?_eq] at hShelf
    rcases FileTree.exists_next_of_follow hLocate with
      ⟨hNode, object, hObject, hLocate⟩
    rw [hObjectName.next?_eq, ← Option.some.inj hShelf] at hObject
    rw [← Option.some.inj hShelf] at hNode
    refine ⟨?_, hNode⟩
    rw [← Except.ok.inj hLocate, ← Option.some.inj hObject]
    simp [place]

/- What it takes for anything to stand at the path of an object. -/
theorem pathExists_iff :
    t.pathExists (s.objectPath c) = true ↔
      (s.objectPath c).text.utf8ByteSize ≤ FileTree.maxPathSize ∧
        (t.node? (place l c)).isSome = true := by
  rw [FileTree.pathExists_iff]
  constructor
  · rintro ⟨l', hLocate, hThere⟩
    rcases hKeeps.eq_place c hLocate with ⟨rfl, hShelf⟩
    rw [hKeeps.locate_objectPath c hShelf] at hLocate
    split at hLocate
    · cases hLocate
    · next hSize => exact ⟨Nat.not_lt.1 hSize, hThere⟩
  · rintro ⟨hSize, hThere⟩
    rcases Option.isSome_iff_exists.1 hThere with ⟨n, hNode⟩
    refine ⟨place l c, ?_, hThere⟩
    rw [hKeeps.locate_objectPath c (hKeeps.object c n hNode).1,
      if_neg (Nat.not_lt.2 hSize)]

/- An object can be read if its path is not too long. -/
theorem has_of_node
    {a : Asset}
    (hSize :
      (s.objectPath c).text.utf8ByteSize ≤ FileTree.maxPathSize)
    (hNode :
      t.node? (place l c) =
        some (.file (Compression.encode a.encode))) :
    s.Has t c a := by
  apply FileTree.read_eq_ok_iff.2
  refine ⟨place l c, ?_, hNode⟩
  rw [hKeeps.locate_objectPath c (hKeeps.object c _ hNode).1,
    if_neg (Nat.not_lt.2 hSize)]

/- What stands at the path of an object can be read. -/
theorem has_of_pathExists
    (hThere : t.pathExists (s.objectPath c) = true) :
    ∃ a, P c a ∧ s.Has t c a := by
  rcases (hKeeps.pathExists_iff c).1 hThere with ⟨hSize, hSome⟩
  rcases Option.isSome_iff_exists.1 hSome with ⟨n, hNode⟩
  rcases (hKeeps.object c n hNode).2 with ⟨a, hSuits, rfl⟩
  exact ⟨a, hSuits, hKeeps.has_of_node c hSize hNode⟩

/- What is read at the path of an object is at its place. -/
theorem has_iff
    {a : Asset} :
    s.Has t c a ↔
      (s.objectPath c).text.utf8ByteSize ≤ FileTree.maxPathSize ∧
        t.node? (place l c) =
          some (.file (Compression.encode a.encode)) := by
  constructor
  · intro hHas
    rcases FileTree.read_eq_ok_iff.1 hHas with
      ⟨l', hLocate, hNode⟩
    have hSize := (FileTree.locate_eq_ok_iff.1 hLocate).2.2.1
    rw [(hKeeps.eq_place c hLocate).1] at hNode
    exact ⟨hSize, hNode⟩
  · rintro ⟨hSize, hNode⟩
    exact hKeeps.has_of_node c hSize hNode

/- An object that stays at its place can still be read. -/
theorem has_later
    {Q : Checksum → Asset → Prop}
    {u : FileTree}
    (hLater : s.Keeps l Q u)
    (hStays :
      ∀ b n, t.node? (place l b) = some n →
        u.node? (place l b) = some n)
    {a : Asset}
    (hHas : s.Has t c a) :
    s.Has u c a := by
  rcases (hKeeps.has_iff c).1 hHas with ⟨hSize, hNode⟩
  exact hLater.has_of_node c hSize (hStays c _ hNode)

omit c in
/- Nothing that is kept is lost where the objects stay. -/
theorem of_sameObjects
    {u : FileTree}
    (hSame : s.SameObjects t u) :
    s.Keeps l P u ∧
      ∀ b, u.node? (place l b) = t.node? (place l b) := by
  have hNode := hSame.node l hKeeps.located
  have hRoot := hNode []
  rw [List.append_nil] at hRoot
  refine ⟨⟨hSame.located l hKeeps.located, ?_, ?_, ?_⟩, ?_⟩
  · rw [hRoot]
    exact hKeeps.directory
  · intro b n hShelf
    rw [hNode] at hShelf
    exact hKeeps.shelf b n hShelf
  · intro b n hObject
    rw [place, hNode] at hObject
    rw [hNode]
    exact hKeeps.object b n hObject
  · exact fun b => hNode _

/- A shelf may be added. -/
theorem insert_shelf
    (hNone : t.node? (l ++ [shelfName c]) = none) :
    s.Keeps l P (t.insert (l ++ [shelfName c]) .directory) := by
  have hGrows := FileTree.grows_insert hNone .directory
  refine ⟨hGrows.keepsDirectories.locate hKeeps.located,
    hGrows.node l _ hKeeps.directory, ?_, ?_⟩
  · intro b n hNode
    rw [FileTree.node?_insert (shelf_ne_nil l c)] at hNode
    split at hNode
    · exact (Option.some.inj hNode).symm
    · exact hKeeps.shelf b n hNode
  · intro b n hNode
    rw [FileTree.node?_insert (shelf_ne_nil l c),
      if_neg (shelf_ne_place l c b)] at hNode
    rcases hKeeps.object b n hNode with ⟨hShelf, hFrame⟩
    exact ⟨hGrows.node _ _ hShelf, hFrame⟩

/- The frame of an asset that suits may be added. -/
theorem insert_object
    {a : Asset}
    (hShelf : t.node? (l ++ [shelfName c]) = some .directory)
    (hNone : t.node? (place l c) = none)
    (hSuits : P c a) :
    s.Keeps l P
      (t.insert (place l c) (.file (Compression.encode a.encode))) := by
  have hGrows :=
    FileTree.grows_insert hNone (.file (Compression.encode a.encode))
  refine ⟨hGrows.keepsDirectories.locate hKeeps.located,
    hGrows.node l _ hKeeps.directory, ?_, ?_⟩
  · intro b n hNode
    rw [FileTree.node?_insert (place_ne_nil l c),
      if_neg (Ne.symm (shelf_ne_place l b c))] at hNode
    exact hKeeps.shelf b n hNode
  · intro b n hNode
    rw [FileTree.node?_insert (place_ne_nil l c)] at hNode
    split at hNode
    · next hPlace =>
        rcases place_injective hPlace with rfl
        exact ⟨hGrows.node _ _ hShelf, a, hSuits,
          (Option.some.inj hNode).symm⟩
    · rcases hKeeps.object b n hNode with ⟨hThere, hFrame⟩
      exact ⟨hGrows.node _ _ hThere, hFrame⟩

/- The shelf of an object is the parent of its path. -/
theorem parent?_objectPath :
    (s.objectPath c).parent?.getD ⟨""⟩ =
      s.objects.below (shelfName c) := by
  rw [objectPath_eq,
    Path.parent?_below
      (FileTree.text_ne_of_locate hKeeps.located)
      (isName_shelfName c).toIsPlain
      (isName_objectName c).toIsPlain]
  rfl

/- What a put has done when the shelf is to be there. -/
theorem makeShelf
    {made : Except FileError Unit × FileTree}
    (hMade :
      t.makeDirectories ((s.objectPath c).parent?.getD ⟨""⟩) =
        made) :
    s.Keeps l P made.2 ∧ Continues l c t made.2 ∧
      (∀ b, made.2.node? (place l b) = t.node? (place l b)) ∧
        (made.1 = .ok () →
          made.2.node? (l ++ [shelfName c]) =
            some .directory) := by
  rw [hKeeps.parent?_objectPath] at hMade
  rcases FileTree.makeDirectories_below hKeeps.located
      (isName_shelfName c) hKeeps.directory with
    ⟨e, hResult, -⟩ | ⟨hResult, hNode⟩ | ⟨hResult, hNone⟩
  · rw [← hMade, hResult]
    exact ⟨hKeeps, .refl l c t, fun _ => rfl,
      fun hOk => nomatch hOk⟩
  · rw [← hMade, hResult]
    exact ⟨hKeeps, .refl l c t, fun _ => rfl, fun _ => hNode⟩
  · rw [← hMade, hResult]
    refine ⟨hKeeps.insert_shelf c hNone, .insert_shelf hNone,
      fun b => ?_, fun _ => ?_⟩
    · rw [FileTree.node?_insert (shelf_ne_nil l c),
        if_neg (shelf_ne_place l c b)]
    · rw [FileTree.node?_insert (shelf_ne_nil l c), if_pos rfl]

/-
  What comes of a put.  It fails and adds no object, or there is
  an object already, or it adds one where there was none.
-/
theorem put_cases
    (w : DiskWrite)
    (a : Asset) :
    (∃ e u, s.Keeps l P u ∧ Continues l c t u ∧
      outcome (s.put w c a) t = (.error e, u)) ∨
    (t.pathExists (s.objectPath c) = true ∧
      outcome (s.put w c a) t = (.ok (), t)) ∨
    (∃ u, s.Keeps l P u ∧ Continues l c t u ∧
      (s.objectPath c).text.utf8ByteSize ≤
        FileTree.maxPathSize ∧
      u.node? (l ++ [shelfName c]) = some .directory ∧
      u.node? (place l c) = none ∧
      outcome (s.put w c a) t =
        (.ok (),
          u.insert (place l c)
            (.file (Compression.encode a.encode)))) := by
  rw [outcome_put]
  by_cases hThere : t.pathExists (s.objectPath c) = true
  · rw [if_pos hThere]
    exact Or.inr (Or.inl ⟨hThere, rfl⟩)
  rw [if_neg hThere]
  generalize hShelfMade :
    t.makeDirectories ((s.objectPath c).parent?.getD ⟨""⟩) = made
  rcases hKeeps.makeShelf c hShelfMade with
    ⟨hMade, hAfter, hPlaces, -⟩
  rcases writeStaged_cases (s := s) hShelfMade w
      (Compression.encode a.encode) with
    ⟨e, u, v, hLeft, hApart, hWrite⟩ |
    ⟨-, v, y, hApart, hTarget, -, hWrite⟩
  · have hBefore : s.Keeps l P u ∧ Continues l c t u := by
      rcases hLeft with rfl | rfl
      · exact ⟨hKeeps, .refl l c u⟩
      · exact ⟨hMade, hAfter⟩
    exact Or.inl ⟨e, v,
      (hBefore.1.of_sameObjects hApart.objects).1,
      hBefore.2.trans (.of_apart hBefore.1.located hApart),
      hWrite⟩
  · rcases hMade.of_sameObjects hApart.objects with
      ⟨hKept, hStay⟩
    rcases hKept.eq_place c hTarget with ⟨rfl, hShelf⟩
    have hSize := (FileTree.locate_eq_ok_iff.1 hTarget).2.2.1
    have hNone : v.node? (place l c) = none := by
      rw [hStay, hPlaces]
      rw [hKeeps.pathExists_iff, not_and] at hThere
      exact Option.not_isSome_iff_eq_none.1 (hThere hSize)
    exact Or.inr (Or.inr ⟨v, hKept,
      hAfter.trans (.of_apart hMade.located hApart), hSize,
      hShelf, hNone, hWrite⟩)

/-
  A put keeps what a directory holds, and leaves an asset that
  suits its checksum if it succeeds.
-/
theorem put
    (w : DiskWrite)
    {a : Asset}
    (hSuits : P c a) :
    s.Keeps l P (outcome (s.put w c a) t).2 ∧
      Continues l c t (outcome (s.put w c a) t).2 ∧
        ((outcome (s.put w c a) t).1 = .ok () →
          ∃ b, P c b ∧
            s.Has (outcome (s.put w c a) t).2 c b) := by
  rcases hKeeps.put_cases c w a with
    ⟨e, u, hKept, hAfter, hPut⟩ | ⟨hThere, hPut⟩ |
    ⟨u, hKept, hAfter, hSize, hShelf, hNone, hPut⟩
  · rw [hPut]
    exact ⟨hKept, hAfter, fun hOk => nomatch hOk⟩
  · rw [hPut]
    exact ⟨hKeeps, .refl l c t,
      fun _ => hKeeps.has_of_pathExists c hThere⟩
  · rw [hPut]
    have hEnd := hKept.insert_object c hShelf hNone hSuits
    refine ⟨hEnd, hAfter.trans (.insert_object hNone _),
      fun _ => ⟨a, hSuits, hEnd.has_of_node c hSize ?_⟩⟩
    rw [FileTree.node?_insert (place_ne_nil l c), if_pos rfl]

end Keeps

------------------------------------------------------------
-- Reading
------------------------------------------------------------

/-
  The objects that are there are had, in the order in which
  they are asked for.  The others are left out.
-/
theorem fetch_eq_filterMap
    (hLossless : Compression.IsLossless)
    {t : FileTree}
    {request : List Checksum}
    {f : Checksum → Option Asset}
    (hRead :
      ∀ c ∈ request,
        s.readObject t c =
          .ok ((f c).map
            (fun a => (c, Compression.encode a.encode))))
    (hShort :
      ∀ c ∈ request, ∀ a, f c = some a →
        a.encode.length < Codec.memoryLimit) :
    s.fetch t false request =
      .ok (request.filterMap
        (fun c => (f c).map (fun a => (c, a)))) := by
  -- The objects found, each with the asset that is in it.
  let found : List (Checksum × Asset) :=
    request.filterMap (fun c => (f c).map (fun a => (c, a)))
  have hFound :
      (request.map
          (fun c =>
            (f c).map
              (fun a => (c, Compression.encode a.encode)))).filterMap
            id =
        found.map
          (fun entry => (entry.1, Compression.encode entry.2.encode)) := by
    rw [List.filterMap_map, List.map_filterMap]
    apply List.filterMap_congr
    intro c _
    rw [Option.map_map]
    rfl
  have hDecode :
      (found.map
          (fun entry =>
            (entry.1, Compression.encode entry.2.encode))).mapM
          decodeObject =
        .ok found := by
    rw [List.mapM_map]
    refine (mapM_eq_ok (g := id) ?_).trans (by rw [List.map_id])
    rintro ⟨c, a⟩ hEntry
    rcases List.mem_filterMap.1 hEntry with ⟨b, hB, hSome⟩
    rcases Option.map_eq_some_iff.1 hSome with ⟨a', hA, hSame⟩
    rcases Prod.mk.inj hSame with ⟨rfl, rfl⟩
    have hFits := hShort b hB a' hA
    unfold decodeObject
    dsimp only [Function.comp_apply]
    rw [hLossless _ hFits]
    dsimp only
    rw [Asset.decode?_encode _ hFits]
    rfl
  unfold fetch
  rw [if_neg Bool.false_ne_true, mapM_eq_ok hRead]
  dsimp only
  rw [hFound, hDecode]

/- Objects that are all there are all had. -/
theorem fetch_eq
    (hLossless : Compression.IsLossless)
    {t : FileTree}
    {request : List Checksum}
    {f : Checksum → Asset}
    (hHas : ∀ c ∈ request, s.Has t c (f c))
    (hShort :
      ∀ c ∈ request, (f c).encode.length < Codec.memoryLimit) :
    s.fetch t false request =
      .ok (request.map (fun c => (c, f c))) := by
  have hRead :
      ∀ c ∈ request,
        s.readObject t c =
          .ok ((some (f c)).map
            (fun a => (c, Compression.encode a.encode))) := by
    intro c hC
    unfold readObject
    rw [show t.read (s.objectPath c) = _ from hHas c hC]
    rfl
  have hFits :
      ∀ c ∈ request, ∀ a, some (f c) = some a →
        a.encode.length < Codec.memoryLimit := by
    intro c hC a hA
    rw [← Option.some.inj hA]
    exact hShort c hC
  rw [fetch_eq_filterMap hLossless hRead hFits]
  exact congrArg Except.ok
    (congrFun List.filterMap_eq_map request)

end DirectoryStore

end SnapTree
