import SnapTree.Proofs.Digest.Digits
import SnapTree.Proofs.Merkle.Faithful
import SnapTree.Proofs.Storage.FileTree
import SnapTree.Storage.DirectoryStore

/-
  This file proves where the objects of a store in a directory
  are: in a directory named by two digits of their checksum,
  under the other digits, so no two of them share a place.

  Key definitions include:
    * `DirectoryStore.shelfName`
    * `DirectoryStore.objectName`
    * `DirectoryStore.place`

  Key theorems include:
    * `DirectoryStore.objectPath_eq`
    * `DirectoryStore.place_injective`
-/

namespace SnapTree

------------------------------------------------------------
-- Digits
------------------------------------------------------------

namespace Hex

/- No digit has a meaning in a path. -/
theorem digit_plain :
    ∀ n < 16,
      digit n ≠ '/' ∧ digit n ≠ '.' ∧ digit n ≠ Char.ofNat 0 := by
  decide

theorem plain_of_mem_ofBytes
    {bytes : List UInt8}
    {c : Char}
    (hMem : c ∈ ofBytes bytes) :
    c ≠ '/' ∧ c ≠ '.' ∧ c ≠ Char.ofNat 0 := by
  rcases exists_digit_of_mem_ofBytes hMem with ⟨n, hN, rfl⟩
  exact digit_plain n hN

/- A digit takes one byte. -/
theorem utf8Size_of_mem_ofBytes
    {bytes : List UInt8}
    {c : Char}
    (hMem : c ∈ ofBytes bytes) :
    c.utf8Size = 1 := by
  have hSizes : ∀ n < 16, (digit n).utf8Size = 1 := by decide
  rcases exists_digit_of_mem_ofBytes hMem with ⟨n, hN, rfl⟩
  exact hSizes n hN

end Hex

/- Characters of one byte each take as many as they are. -/
theorem utf8ByteSize_ofList_eq
    {text : List Char}
    (hSizes : ∀ c ∈ text, c.utf8Size = 1) :
    (String.ofList text).utf8ByteSize = text.length := by
  induction text with
  | nil => simp
  | cons c rest ih =>
      rw [utf8ByteSize_ofList_cons,
        hSizes c List.mem_cons_self,
        ih (fun d hD => hSizes d (List.mem_cons_of_mem c hD)),
        List.length_cons]
      omega

------------------------------------------------------------
-- Names of objects
------------------------------------------------------------

/- A name is seen from where one is. -/
theorem Path.isAbsolute_name
    {name : String}
    (hName : FileTree.IsName name) :
    (Path.mk name).isAbsolute = false := by
  unfold isAbsolute
  cases hChars : name.toList with
  | nil => rfl
  | cons c rest =>
      have hSlash : c ≠ '/' := by
        rintro rfl
        apply hName.slash
        rw [hChars]
        exact List.mem_cons_self
      simp [hSlash]

/- A name is written behind a path that does not end in a slash. -/
theorem Path.join_name
    {p : Path}
    {name : String}
    (hName : FileTree.IsName name)
    (hText : p.text ≠ "")
    (hLast : p.text.toList.getLast? ≠ some '/') :
    p.join ⟨name⟩ = p.below name := by
  unfold join
  rw [isAbsolute_name hName]
  simp [hText, hLast, below]

theorem Path.getLast?_below
    {p : Path}
    {name : String}
    (hName : FileTree.IsName name) :
    (p.below name).text.toList.getLast? ≠ some '/' := by
  intro hLast
  have hSome : name.toList ≠ [] := by
    intro hNil
    have hEmpty : name = "" := String.toList_injective hNil
    have hIdle := hName.idle
    rw [hEmpty] at hIdle
    revert hIdle
    decide
  rw [toList_below, List.getLast?_append, List.getLast?_cons,
    List.getLast?_eq_some_getLast hSome] at hLast
  apply hName.slash
  rw [← Option.some.inj hLast]
  exact List.getLast_mem hSome

/- What is written behind a joined path can be joined with it. -/
theorem Path.join_below
    {p q : Path}
    {name : String}
    (hText : q.text ≠ "")
    (hAbsolute : q.isAbsolute = false) :
    p.join (q.below name) = (p.join q).below name := by
  unfold join
  rw [isAbsolute_below hText, hAbsolute]
  simp only [Bool.false_eq_true, if_false]
  split <;> simp [below, String.append_assoc]

/- A path behind another is as much longer as it is itself. -/
theorem Path.utf8ByteSize_join
    {q : Path}
    (hAbsolute : q.isAbsolute = false)
    (p : Path) :
    (p.join q).text.utf8ByteSize =
      (p.join ⟨""⟩).text.utf8ByteSize + q.text.utf8ByteSize := by
  have hEmpty : (Path.mk "").isAbsolute = false := by decide
  unfold join
  rw [hAbsolute, hEmpty]
  simp only [Bool.false_eq_true, if_false]
  split <;> simp

theorem Path.utf8ByteSize_below
    (p : Path)
    (name : String) :
    (p.below name).text.utf8ByteSize =
      p.text.utf8ByteSize + 1 + name.utf8ByteSize := by
  have hSlash : "/".utf8ByteSize = 1 := by decide
  unfold below
  rw [String.utf8ByteSize_append, String.utf8ByteSize_append,
    hSlash]

/- A path behind another ends as it does itself. -/
theorem Path.getLast?_join
    {q : Path}
    (hAbsolute : q.isAbsolute = false)
    (hText : q.text ≠ "")
    (p : Path) :
    (p.join q).text.toList.getLast? =
      q.text.toList.getLast? := by
  have hSome : q.text.toList ≠ [] := by
    intro hNil
    exact hText (String.toList_injective hNil)
  unfold join
  rw [hAbsolute]
  simp only [Bool.false_eq_true, if_false]
  split <;>
    simp [List.getLast?_append, List.getLast?_cons,
      List.getLast?_eq_some_getLast hSome]

theorem Path.text_join_ne
    {q : Path}
    (hText : q.text ≠ "")
    (p : Path) :
    (p.join q).text ≠ "" := by
  unfold join
  split
  · exact hText
  · split <;> simp [hText]

namespace DirectoryStore

/- The directory that holds the object of a checksum. -/
def shelfName
    (c : Checksum) : String :=
  String.ofList ((Hex.ofBytes c.toList).take 2)

/- The name of an object in its directory. -/
def objectName
    (c : Checksum) : String :=
  String.ofList ((Hex.ofBytes c.toList).drop 2)

theorem length_digits
    (c : Checksum) :
    (Hex.ofBytes c.toList).length = 64 := by
  rw [Hex.length_ofBytes]
  simp [Checksum.toList]

/- Some digits make a name. -/
theorem isName_ofList
    {bytes : List UInt8}
    {digits : List Char}
    (hDigits : ∀ d ∈ digits, d ∈ Hex.ofBytes bytes)
    (hSome : 1 < digits.length)
    (hFew : digits.length ≤ 62) :
    FileTree.IsName (String.ofList digits) := by
  have hPlain :
      ∀ d ∈ digits, d ≠ '/' ∧ d ≠ '.' ∧ d ≠ Char.ofNat 0 :=
    fun d hD => Hex.plain_of_mem_ofBytes (hDigits d hD)
  have hLength : (String.ofList digits).toList = digits :=
    String.toList_ofList
  refine ⟨⟨?_, ?_, ?_⟩, ?_, ?_⟩
  · rw [hLength]
    exact fun hMem => (hPlain _ hMem).1 rfl
  · have hNotNone : String.ofList digits ≠ "" := by
      intro hSame
      rw [hSame] at hLength
      rw [← hLength] at hSome
      simp at hSome
    have hNotDot : String.ofList digits ≠ "." := by
      intro hSame
      rw [hSame] at hLength
      rw [← hLength] at hSome
      simp at hSome
    simp [Path.isIdle, hNotNone, hNotDot]
  · intro hSame
    rw [hSame] at hLength
    apply (hPlain '.' ?_).2.1 rfl
    rw [← hLength]
    decide
  · rw [hLength]
    exact fun hMem => (hPlain _ hMem).2.2 rfl
  · rw [utf8ByteSize_ofList_eq
      (fun d hD => Hex.utf8Size_of_mem_ofBytes (hDigits d hD))]
    unfold FileTree.maxNameSize
    omega

theorem isName_shelfName
    (c : Checksum) :
    FileTree.IsName (shelfName c) := by
  have hLength := length_digits c
  apply isName_ofList (fun _ hD => List.mem_of_mem_take hD)
  · rw [List.length_take]
    omega
  · rw [List.length_take]
    omega

theorem utf8ByteSize_shelfName
    (c : Checksum) :
    (shelfName c).utf8ByteSize = 2 := by
  unfold shelfName
  rw [utf8ByteSize_ofList_eq
      (fun d hD =>
        Hex.utf8Size_of_mem_ofBytes (List.mem_of_mem_take hD)),
    List.length_take, length_digits]
  rfl

theorem utf8ByteSize_objectName
    (c : Checksum) :
    (objectName c).utf8ByteSize = 62 := by
  unfold objectName
  rw [utf8ByteSize_ofList_eq
      (fun d hD =>
        Hex.utf8Size_of_mem_ofBytes (List.mem_of_mem_drop hD)),
    List.length_drop, length_digits]

theorem isName_objectName
    (c : Checksum) :
    FileTree.IsName (objectName c) := by
  have hLength := length_digits c
  apply isName_ofList (fun _ hD => List.mem_of_mem_drop hD)
  · rw [List.length_drop]
    omega
  · rw [List.length_drop]
    omega

/- An object is two names below the directory of all objects. -/
theorem objectPath_eq
    (s : DirectoryStore)
    (c : Checksum) :
    s.objectPath c =
      (s.objects.below (shelfName c)).below (objectName c) := by
  have hText : (Path.mk "objects").text ≠ "" := by decide
  have hAbsolute : (Path.mk "objects").isAbsolute = false := by
    decide
  have hShelf := isName_shelfName c
  have hObject := isName_objectName c
  have hRelative :
      relativePath c =
        ((Path.mk "objects").below (shelfName c)).below
          (objectName c) := by
    rw [← Path.join_name hObject Path.text_below_ne
        (Path.getLast?_below hShelf),
      ← Path.join_name hShelf hText (by decide)]
    rfl
  unfold objectPath objects
  rw [hRelative, Path.join_below Path.text_below_ne,
    Path.join_below hText hAbsolute]
  rw [Path.isAbsolute_below hText, hAbsolute]

/- Where the object of a checksum is. -/
def place
    (l : Location)
    (c : Checksum) : Location :=
  l ++ [shelfName c, objectName c]

theorem shelf_ne_nil
    (l : Location)
    (c : Checksum) :
    l ++ [shelfName c] ≠ [] := by
  simp

theorem place_ne_nil
    (l : Location)
    (c : Checksum) :
    place l c ≠ [] := by
  simp [place]

/- No object is where a shelf is. -/
theorem shelf_ne_place
    (l : Location)
    (b c : Checksum) :
    l ++ [shelfName b] ≠ place l c := by
  intro hSame
  have hLength := congrArg List.length hSame
  simp [place] at hLength

/- No two checksums share a place. -/
theorem place_injective
    {l : Location}
    {b c : Checksum}
    (hSame : place l b = place l c) :
    b = c := by
  unfold place at hSame
  have hNames := List.append_cancel_left hSame
  rcases List.cons_eq_cons.1 hNames with ⟨hShelf, hTail⟩
  have hObject := (List.cons_eq_cons.1 hTail).1
  apply Checksum.toList_injective
  apply Hex.ofBytes_injective
  rw [← List.take_append_drop 2 (Hex.ofBytes b.toList),
    ← List.take_append_drop 2 (Hex.ofBytes c.toList),
    String.ofList_injective hShelf,
    String.ofList_injective hObject]

end DirectoryStore

end SnapTree
