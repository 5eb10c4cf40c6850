import SnapTree.Storage.Path
import Mathlib.Tactic.Common

/-
  This file proves what becomes of the parts of a path when a
  name is written behind it: there is one piece more, and the
  path is the parent of the new one.

  Key definitions include:
    * `Path.IsPlain`
    * `Path.below`

  Key theorems include:
    * `Path.splitSlashes_append`
    * `Path.intercalate_pieces`
    * `Path.pieces_below`
    * `Path.parent?_below`
-/

namespace SnapTree

/- The size of a text is that of its characters together. -/
theorem utf8ByteSize_ofList_cons
    (c : Char)
    (rest : List Char) :
    (String.ofList (c :: rest)).utf8ByteSize =
      c.utf8Size + (String.ofList rest).utf8ByteSize := by
  rw [← List.singleton_append, String.ofList_append,
    String.utf8ByteSize_append, ← String.singleton_eq_ofList,
    String.utf8ByteSize_singleton]

namespace Path

------------------------------------------------------------
-- Splitting at slashes
------------------------------------------------------------

theorem splitSlashes_ne_nil
    (text : List Char) :
    splitSlashes text ≠ [] := by
  cases text with
  | nil => simp [splitSlashes]
  | cons c rest =>
      unfold splitSlashes
      split
      · simp
      · split <;> simp

/- A slash between two texts separates their pieces. -/
theorem splitSlashes_append
    (front back : List Char) :
    splitSlashes (front ++ '/' :: back) =
      splitSlashes front ++ splitSlashes back := by
  induction front with
  | nil => simp [splitSlashes]
  | cons c rest ih =>
      by_cases hSlash : c = '/'
      · simp [splitSlashes, hSlash, ih]
      · simp only [List.cons_append, splitSlashes,
          if_neg hSlash, ih]
        cases hRest : splitSlashes rest with
        | nil => exact absurd hRest (splitSlashes_ne_nil rest)
        | cons piece pieces => rfl

/- A text without slashes is one piece. -/
theorem splitSlashes_of_notMem
    {text : List Char}
    (hSlash : '/' ∉ text) :
    splitSlashes text = [text] := by
  induction text with
  | nil => rfl
  | cons c rest ih =>
      rw [List.mem_cons, not_or] at hSlash
      unfold splitSlashes
      rw [if_neg (Ne.symm hSlash.1), ih hSlash.2]

/- Pieces make up a text again with slashes between them. -/
theorem intercalate_splitSlashes
    (text : List Char) :
    ['/'].intercalate (splitSlashes text) = text := by
  induction text with
  | nil => rfl
  | cons c rest ih =>
      have hSome := splitSlashes_ne_nil rest
      unfold splitSlashes
      by_cases hSlash : c = '/'
      · rw [if_pos hSlash, List.intercalate_cons_of_ne_nil hSome,
          ih, hSlash]
        rfl
      · rw [if_neg hSlash]
        cases hRest : splitSlashes rest with
        | nil => exact absurd hRest hSome
        | cons piece pieces =>
            dsimp only
            rw [List.intercalate_cons_cons_left, ← hRest, ih]

theorem pieces_ne_nil
    (p : Path) :
    p.pieces ≠ [] := by
  unfold pieces
  simp [splitSlashes_ne_nil]

/- A path is its pieces with slashes between them. -/
theorem intercalate_pieces
    (p : Path) :
    "/".intercalate p.pieces = p.text := by
  apply String.toList_injective
  rw [String.toList_intercalate]
  unfold pieces
  rw [List.map_map]
  have hSame : String.toList ∘ String.ofList = id := by
    funext text
    exact String.toList_ofList
  rw [hSame, List.map_id]
  exact intercalate_splitSlashes p.text.toList

------------------------------------------------------------
-- Names written behind paths
------------------------------------------------------------

/- A name that stands for itself behind a slash. -/
structure IsPlain (name : String) : Prop where
  slash : '/' ∉ name.toList
  idle : isIdle name = false
  up : name ≠ ".."

/- The path of a name in the directory that a path leads to. -/
def below
    (p : Path)
    (name : String) : Path :=
  ⟨p.text ++ "/" ++ name⟩

variable {p : Path} {name : String}

theorem toList_below :
    (p.below name).text.toList =
      p.text.toList ++ '/' :: name.toList := by
  simp [below]

theorem text_below_ne :
    (p.below name).text ≠ "" := by
  intro hNone
  have hNil := congrArg String.toList hNone
  rw [toList_below] at hNil
  simp at hNil

theorem pieces_below
    (hPlain : IsPlain name) :
    (p.below name).pieces = p.pieces ++ [name] := by
  unfold pieces
  rw [toList_below, splitSlashes_append,
    splitSlashes_of_notMem hPlain.slash, List.map_append]
  simp

theorem isAbsolute_below
    (hText : p.text ≠ "") :
    (p.below name).isAbsolute = p.isAbsolute := by
  unfold isAbsolute
  rw [toList_below]
  cases hChars : p.text.toList with
  | nil =>
      apply absurd _ hText
      apply String.toList_injective
      rw [hChars]
      rfl
  | cons c rest => rfl

theorem lead?_below
    (hText : p.text ≠ "")
    (hPlain : IsPlain name) :
    (p.below name).lead? = p.lead? := by
  unfold lead?
  rw [isAbsolute_below hText, pieces_below hPlain]
  cases hPieces : p.pieces with
  | nil => exact absurd hPieces (pieces_ne_nil p)
  | cons piece rest => rfl

theorem body_below
    (hText : p.text ≠ "")
    (hPlain : IsPlain name) :
    (p.below name).body = p.body ++ [name] := by
  unfold body
  rw [lead?_below hText hPlain, pieces_below hPlain]
  split
  · rw [List.drop_append_of_le_length]
    exact List.length_pos_iff.2 (pieces_ne_nil p)
  · rfl

/- A piece at the end that says something is not dropped. -/
theorem dropIdle_append
    (pieces : List String)
    (hIdle : isIdle name = false) :
    dropIdle (pieces ++ [name]) = pieces ++ [name] := by
  unfold dropIdle
  rw [List.reverse_append, List.reverse_singleton,
    List.singleton_append,
    List.dropWhile_cons_of_neg (by simp [hIdle]),
    List.reverse_cons, List.reverse_reverse]

/- The first piece of an absolute path is empty. -/
theorem head?_pieces_of_isAbsolute
    (hAbsolute : p.isAbsolute = true) :
    p.pieces.head? = some "" := by
  unfold isAbsolute at hAbsolute
  unfold pieces
  cases hChars : p.text.toList with
  | nil => simp [hChars] at hAbsolute
  | cons c rest =>
      have hSlash : c = '/' := by simpa [hChars] using hAbsolute
      rw [hSlash]
      rfl

/- A first part that is no name is followed by a slash. -/
theorem text_eq_of_head?
    {first : String}
    (hHead : p.pieces.head? = some first)
    (hBody : p.pieces.drop 1 ≠ []) :
    p.text =
      first ++ "/" ++ "/".intercalate (p.pieces.drop 1) := by
  have hText := intercalate_pieces p
  cases hPieces : p.pieces with
  | nil => exact absurd hPieces (pieces_ne_nil p)
  | cons piece rest =>
      rw [hPieces] at hHead hBody hText
      rw [← hText, ← Option.some.inj hHead]
      exact String.intercalate_cons_of_ne_nil hBody

/- A first part and the pieces after it make up a path. -/
theorem eq_lead_body
    (hBody : p.body ≠ []) :
    (match p.lead? with
      | some .root => ⟨"/" ++ "/".intercalate p.body⟩
      | some _ =>
          ⟨"." ++
            (if p.body.isEmpty then ""
              else "/" ++ "/".intercalate p.body)⟩
      | none => ⟨"/".intercalate p.body⟩ : Path) = p := by
  have hEmpty : p.body.isEmpty = false := by
    rw [List.isEmpty_eq_false_iff]
    exact hBody
  rw [hEmpty]
  by_cases hAbsolute : p.isAbsolute = true
  · have hLead : p.lead? = some .root := if_pos hAbsolute
    have hPieces : p.body = p.pieces.drop 1 := by
      unfold body
      rw [hLead]
      rfl
    rw [hPieces] at hBody ⊢
    rw [hLead]
    exact congrArg Path.mk
      (text_eq_of_head? (head?_pieces_of_isAbsolute hAbsolute)
        hBody).symm
  · by_cases hHere : p.pieces.head? = some "."
    · have hLead : p.lead? = some .here := by
        unfold lead?
        rw [if_neg hAbsolute, if_pos hHere]
      have hPieces : p.body = p.pieces.drop 1 := by
        unfold body
        rw [hLead]
        rfl
      rw [hPieces] at hBody ⊢
      rw [hLead]
      have hText := text_eq_of_head? hHere hBody
      rw [String.append_assoc] at hText
      exact congrArg Path.mk hText.symm
    · have hLead : p.lead? = none := by
        unfold lead?
        rw [if_neg hAbsolute, if_neg hHere]
      have hPieces : p.body = p.pieces := by
        unfold body
        rw [hLead]
        rfl
      rw [hPieces, hLead]
      exact congrArg Path.mk (intercalate_pieces p)

/-
  Of two names written behind a path, the first is that of the
  parent.
-/
theorem parent?_below
    {dir : String}
    (hText : p.text ≠ "")
    (hDir : IsPlain dir)
    (hPlain : IsPlain name) :
    ((p.below dir).below name).parent? = some (p.below dir) := by
  have hBody : (p.below dir).body = p.body ++ [dir] :=
    body_below hText hDir
  have hSome : (p.below dir).body ≠ [] := by simp [hBody]
  have hBefore :
      dropIdle (p.below dir).body = (p.below dir).body := by
    rw [hBody]
    exact dropIdle_append _ hDir.idle
  unfold parent?
  rw [body_below text_below_ne hPlain,
    dropIdle_append _ hPlain.idle, List.reverse_append,
    List.reverse_singleton, List.singleton_append,
    lead?_below text_below_ne hPlain]
  dsimp only
  rw [List.reverse_reverse, hBefore]
  exact congrArg some (eq_lead_body hSome)

end Path

end SnapTree
