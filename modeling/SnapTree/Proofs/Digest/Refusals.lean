import SnapTree.Digest.Checksum
import Mathlib.Data.List.Basic
import Mathlib.Tactic.Common

/-
  This file proves that the text of a refusal says all about
  it: from the message the length of the text can be told, or
  the text, its first bad byte and the place of that byte.

  Key definitions include:
    * `Checksum.ParseError.spelled`
    * `Checksum.ParseError.escapes`

  Key theorems include:
    * `Checksum.ParseError.spelled_injective`
    * `Checksum.ParseError.message_injective`
-/

namespace SnapTree

/- A mark that does not come again divides a list in one way. -/
theorem append_inj_of_last_mark
    {α : Type}
    {front front' back back' : List α}
    {mark : α}
    (hBack : mark ∉ back)
    (hBack' : mark ∉ back')
    (hSame : front ++ mark :: back = front' ++ mark :: back') :
    front = front' ∧ back = back' := by
  rcases List.append_eq_append_iff.1 hSame with
    ⟨between, hFront, hMark⟩ | ⟨between, hFront, hMark⟩
  · cases between with
    | nil =>
        exact ⟨by simpa using hFront.symm, by simpa using hMark⟩
    | cons x between =>
        rw [(List.cons_eq_cons.1 hMark).2] at hBack
        simp at hBack
  · cases between with
    | nil =>
        exact ⟨by simpa using hFront, by simpa using hMark.symm⟩
    | cons x between =>
        rw [(List.cons_eq_cons.1 hMark).2] at hBack'
        simp at hBack'

namespace Checksum

namespace ParseError

------------------------------------------------------------
-- Bytes between quotes
------------------------------------------------------------

/- A byte as it is spelled between quotes. -/
def spelled
    (n : Nat) : List Char :=
  if n = 0 then ['\\', '0']
  else if n = 9 then ['\\', 't']
  else if n = 10 then ['\\', 'n']
  else if n = 13 then ['\\', 'r']
  else if n = 39 then ['\\', quote]
  else if n = 92 then ['\\', '\\']
  else if n < 32 ∨ n = 127 then
    ['\\', 'u', '\x7b'] ++ hexDigits n ++ ['\x7d']
  else [Char.ofNat n]

/- The bytes that are not spelled as they are. -/
def escapes : List Nat :=
  List.range 32 ++ [39, 92, 127]

theorem toList_quoted
    (b : UInt8) :
    (quoted b).toList =
      quote :: (spelled b.toNat ++ [quote]) :=
  String.toList_ofList

theorem mem_escapes
    {n : Nat} :
    n ∈ escapes ↔ n < 32 ∨ n = 39 ∨ n = 92 ∨ n = 127 := by
  simp [escapes]

theorem spelled_of_notMem
    {n : Nat}
    (hPlain : n ∉ escapes) :
    spelled n = [Char.ofNat n] := by
  rw [mem_escapes] at hPlain
  unfold spelled
  iterate 7 rw [if_neg (by omega)]

theorem length_spelled_of_mem :
    ∀ n ∈ escapes, 1 < (spelled n).length := by
  decide

theorem spelled_inj_of_mem :
    ∀ m ∈ escapes, ∀ n ∈ escapes,
      spelled m = spelled n → m = n := by
  decide +kernel

theorem toNat_ofNat_of_lt
    {n : Nat}
    (hByte : n < 256) :
    (Char.ofNat n).toNat = n := by
  rw [Char.ofNat, dif_pos (Or.inl (by omega))]
  rfl

/- Bytes are told apart by how they are spelled. -/
theorem spelled_injective
    {m n : Nat}
    (hM : m < 256)
    (hN : n < 256)
    (hSame : spelled m = spelled n) :
    m = n := by
  by_cases hEscM : m ∈ escapes
  · by_cases hEscN : n ∈ escapes
    · exact spelled_inj_of_mem m hEscM n hEscN hSame
    · have hLong := length_spelled_of_mem m hEscM
      rw [hSame, spelled_of_notMem hEscN] at hLong
      simp at hLong
  · by_cases hEscN : n ∈ escapes
    · have hLong := length_spelled_of_mem n hEscN
      rw [← hSame, spelled_of_notMem hEscM] at hLong
      simp at hLong
    · rw [spelled_of_notMem hEscM, spelled_of_notMem hEscN]
        at hSame
      have hCode :=
        congrArg Char.toNat (List.singleton_inj.1 hSame)
      rwa [toNat_ofNat_of_lt hM, toNat_ofNat_of_lt hN] at hCode

/- Only the quote, whose number is 39, is spelled with one. -/
theorem quote_notMem_spelled :
    ∀ n < 256, n ≠ 39 → quote ∉ spelled n := by
  decide +kernel

theorem spelled_ne_nil :
    ∀ n < 256, spelled n ≠ [] := by
  decide +kernel

/- A text that ends in the spelling of a quote has no other end. -/
theorem append_spelled_quote_ne
    {front front' : List Char}
    {n : Nat}
    (hByte : n < 256)
    (hOther : n ≠ 39) :
    front ++ quote :: spelled 39 ≠
      front' ++ quote :: spelled n := by
  intro hSame
  have hLast := congrArg List.getLast? hSame
  have hQuote :
      (front ++ quote :: spelled 39).getLast? = some quote := by
    simp [spelled]
  rw [hQuote, List.getLast?_append_cons,
    List.getLast?_cons_of_ne_nil (spelled_ne_nil n hByte)]
    at hLast
  exact quote_notMem_spelled n hByte hOther
    (List.mem_of_getLast? hLast.symm)

/-
  The spelling of a byte behind a quote tells where it starts
  and which byte it is.  Only the quote is spelled with a
  quote, which then comes last.
-/
theorem append_quote_spelled_inj
    {front front' : List Char}
    {m n : Nat}
    (hM : m < 256)
    (hN : n < 256)
    (hSame :
      front ++ quote :: spelled m =
        front' ++ quote :: spelled n) :
    front = front' ∧ m = n := by
  by_cases hQuoteM : m = 39
  · by_cases hQuoteN : n = 39
    · rw [hQuoteM, hQuoteN] at hSame ⊢
      exact ⟨List.append_cancel_right hSame, rfl⟩
    · rw [hQuoteM] at hSame
      exact absurd hSame (append_spelled_quote_ne hN hQuoteN)
  · by_cases hQuoteN : n = 39
    · rw [hQuoteN] at hSame
      exact absurd hSame.symm
        (append_spelled_quote_ne hM hQuoteM)
    · rcases append_inj_of_last_mark
        (quote_notMem_spelled m hM hQuoteM)
        (quote_notMem_spelled n hN hQuoteN) hSame with
        ⟨hFront, hSpelled⟩
      exact ⟨hFront, spelled_injective hM hN hSpelled⟩

------------------------------------------------------------
-- Messages
------------------------------------------------------------

theorem toDigits_injective
    {m n : Nat}
    (hSame : Nat.toDigits 10 m = Nat.toDigits 10 n) :
    m = n := by
  have hValue :=
    congrArg (fun digits => Nat.ofDigitChars 10 digits 0) hSame
  rwa [Nat.ofDigitChars_toDigits (by decide) (by decide),
    Nat.ofDigitChars_toDigits (by decide) (by decide)] at hValue

theorem blank_notMem_toDigits
    (n : Nat) :
    ' ' ∉ Nat.toDigits 10 n := by
  intro hMem
  have hDigit :=
    Nat.isDigit_of_mem_toDigits (by decide) (by decide) hMem
  exact absurd hDigit (by decide)

theorem toList_message_length
    (n : Nat) :
    (message (.length n)).toList =
      "invalid checksum length: expected 64 characters, got ".toList
        ++ Nat.toDigits 10 n := by
  have hText :
      message (.length n) =
        "invalid checksum length: expected 64 characters, got "
          ++ n.repr := rfl
  rw [hText, String.toList_append, Nat.toList_repr]

/- The last blank is in front of the place of the byte. -/
theorem toList_message_digit
    (text : String)
    (bad : Hex.BadDigit) :
    (message (.digit text bad)).toList =
      "invalid checksum '".toList ++
        (text.toList ++ "': Invalid character ".toList ++
          quote :: spelled bad.found.toNat ++
            "' at position".toList ++
              ' ' :: Nat.toDigits 10 bad.position) := by
  have hText :
      message (.digit text bad) =
        "invalid checksum '" ++ text ++
          "': Invalid character " ++ quoted bad.found ++
            (" at position " ++ bad.position.repr) := rfl
  have hBehind :
      "' at position".toList ++ [' '] =
        quote :: " at position ".toList := by
    decide +kernel
  have hBlank :
      "' at position".toList ++
          ' ' :: Nat.toDigits 10 bad.position =
        quote :: " at position ".toList ++
          Nat.toDigits 10 bad.position := by
    rw [← hBehind, List.append_assoc]
    rfl
  rw [hText, List.append_assoc _ _ (' ' :: _), hBlank]
  simp only [String.toList_append, Nat.toList_repr,
    toList_quoted, List.append_assoc, List.cons_append,
    List.nil_append]

theorem message_length_ne_digit
    {n : Nat}
    {text : String}
    {bad : Hex.BadDigit} :
    message (.length n) ≠ message (.digit text bad) := by
  intro hSame
  have hLead :=
    congrArg (fun message => message.toList.take 18) hSame
  rw [toList_message_length, toList_message_digit,
    List.take_append_of_le_length (by decide +kernel),
    List.take_append_of_le_length (by decide +kernel)] at hLead
  exact absurd hLead (by decide +kernel)

/- Refusals are told apart by their messages. -/
theorem message_injective
    {e e' : ParseError}
    (hSame : e.message = e'.message) :
    e = e' := by
  cases e with
  | length n =>
      cases e' with
      | length n' =>
          have hText := congrArg String.toList hSame
          rw [toList_message_length, toList_message_length]
            at hText
          rw [toDigits_injective (List.append_cancel_left hText)]
      | digit text' bad' =>
          exact absurd hSame message_length_ne_digit
  | digit text bad =>
      cases e' with
      | length n' =>
          exact absurd hSame.symm message_length_ne_digit
      | digit text' bad' =>
          have hText := congrArg String.toList hSame
          rw [toList_message_digit, toList_message_digit]
            at hText
          -- From the right: the place, the byte, the text.
          rcases append_inj_of_last_mark
            (blank_notMem_toDigits _) (blank_notMem_toDigits _)
            (List.append_cancel_left hText) with
            ⟨hFront, hPlace⟩
          rcases append_quote_spelled_inj
            bad.found.toNat_lt bad'.found.toNat_lt
            (List.append_cancel_right hFront) with
            ⟨hBefore, hFound⟩
          have hShown : text = text' :=
            String.toList_injective
              (List.append_cancel_right hBefore)
          have hByte : bad.found = bad'.found :=
            UInt8.toNat_inj.1 hFound
          have hPosition : bad.position = bad'.position :=
            toDigits_injective hPlace
          cases bad
          cases bad'
          cases hShown
          cases hByte
          cases hPosition
          rfl

end ParseError

end Checksum

end SnapTree
