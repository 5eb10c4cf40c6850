import SnapTree.Digest.Hex
import Mathlib.Tactic.Common

/-
  This file proves that hexadecimal text is read as it is
  written.  What is written are lowercase digits; what is read
  are digits of either case; and where a byte is no digit, the
  reader reports the first one and the place it has in the
  text.

  Bytes of text are looked at as the characters with their
  numbers, so that one notion of a digit serves for both.

  Key definitions include:
    * `Hex.IsLowerDigit`
    * `Hex.IsDigit`
    * `Hex.BadDigit.IsFirstOf`

  Key theorems include:
    * `Hex.ofBytes_injective`
    * `Hex.digits_of_decodeAt`
    * `Hex.decode_eq_error_iff`
-/

namespace SnapTree

namespace Hex

------------------------------------------------------------
-- Digits
------------------------------------------------------------

/- A digit as it is written. -/
def IsLowerDigit
    (c : Char) : Prop :=
  ('0' ≤ c ∧ c ≤ '9') ∨ ('a' ≤ c ∧ c ≤ 'f')

/- A digit of either case. -/
def IsDigit
    (c : Char) : Prop :=
  IsLowerDigit c ∨ ('A' ≤ c ∧ c ≤ 'F')

instance
    (c : Char) : Decidable (IsLowerDigit c) := by
  unfold IsLowerDigit
  infer_instance

instance
    (c : Char) : Decidable (IsDigit c) := by
  unfold IsDigit
  infer_instance

theorem isLowerDigit_iff
    {c : Char} :
    IsLowerDigit c ↔
      (48 ≤ c.toNat ∧ c.toNat ≤ 57) ∨
        (97 ≤ c.toNat ∧ c.toNat ≤ 102) :=
  Iff.rfl

theorem isDigit_iff
    {c : Char} :
    IsDigit c ↔
      (48 ≤ c.toNat ∧ c.toNat ≤ 57) ∨
        (65 ≤ c.toNat ∧ c.toNat ≤ 70) ∨
          (97 ≤ c.toNat ∧ c.toNat ≤ 102) := by
  have hUpper :
      'A' ≤ c ∧ c ≤ 'F' ↔ 65 ≤ c.toNat ∧ c.toNat ≤ 70 :=
    Iff.rfl
  rw [IsDigit, isLowerDigit_iff, hUpper]
  omega

theorem toNat_toLower
    (c : Char) :
    c.toLower.toNat =
      if 65 ≤ c.toNat ∧ c.toNat ≤ 90 then c.toNat + 32
      else c.toNat := by
  have hUpper :
      (c.val ≥ 'A'.val ∧ c.val ≤ 'Z'.val) ↔
        65 ≤ c.toNat ∧ c.toNat ≤ 90 :=
    Iff.rfl
  unfold Char.toLower
  by_cases hIn : c.val ≥ 'A'.val ∧ c.val ≤ 'Z'.val
  · rw [dif_pos hIn, if_pos (hUpper.1 hIn)]
    have hSmall := (hUpper.1 hIn).2
    show (c.val + 32).toNat = c.toNat + 32
    rw [UInt32.toNat_add]
    show (c.toNat + 32) % 2 ^ 32 = c.toNat + 32
    omega
  · rw [dif_neg hIn, if_neg (fun h => hIn (hUpper.2 h))]

/- Digits of either case are those with a digit as lower case. -/
theorem isDigit_iff_toLower
    {c : Char} :
    IsDigit c ↔ IsLowerDigit c.toLower := by
  rw [isDigit_iff, isLowerDigit_iff, toNat_toLower]
  split <;> omega

theorem toLower_of_isLowerDigit
    {c : Char}
    (hDigit : IsLowerDigit c) :
    c.toLower = c := by
  rw [isLowerDigit_iff] at hDigit
  apply Char.toNat_inj.1
  rw [toNat_toLower, if_neg (by omega)]

------------------------------------------------------------
-- Writing
------------------------------------------------------------

theorem toNat_digit :
    ∀ n < 16,
      (digit n).toNat = if n < 10 then 48 + n else 87 + n := by
  decide

theorem digit_injective
    {m n : Nat}
    (hM : m < 16)
    (hN : n < 16)
    (hSame : digit m = digit n) :
    m = n := by
  have hCode := congrArg Char.toNat hSame
  rw [toNat_digit m hM, toNat_digit n hN] at hCode
  split at hCode <;> split at hCode <;> omega

theorem ofByte_injective
    {a b : UInt8}
    (hSame : ofByte a = ofByte b) :
    a = b := by
  have hA := a.toNat_lt
  have hB := b.toNat_lt
  rcases List.cons_eq_cons.1 hSame with ⟨hHigh, hTail⟩
  have hHigh := digit_injective (by omega) (by omega) hHigh
  have hLow :=
    digit_injective (by omega) (by omega)
      (List.cons_eq_cons.1 hTail).1
  apply UInt8.toNat_inj.1
  omega

/- Byte strings are told apart by their digits. -/
theorem ofBytes_injective
    {as bs : List UInt8}
    (hSame : ofBytes as = ofBytes bs) :
    as = bs := by
  induction as generalizing bs with
  | nil =>
      cases bs with
      | nil => rfl
      | cons b bs => simp [ofBytes, ofByte] at hSame
  | cons a as ih =>
      cases bs with
      | nil => simp [ofBytes, ofByte] at hSame
      | cons b bs =>
          unfold ofBytes at hSame
          rw [List.flatMap_cons, List.flatMap_cons] at hSame
          rcases List.append_inj hSame rfl with ⟨hHead, hTail⟩
          rw [ofByte_injective hHead, ih hTail]

theorem length_ofBytes
    (bytes : List UInt8) :
    (ofBytes bytes).length = 2 * bytes.length := by
  induction bytes with
  | nil => rfl
  | cons b bytes ih =>
      unfold ofBytes at ih ⊢
      rw [List.flatMap_cons, List.length_append, ih,
        List.length_cons]
      simp only [ofByte, List.length_cons, List.length_nil]
      omega

/- What is written consists of digits. -/
theorem exists_digit_of_mem_ofBytes
    {bytes : List UInt8}
    {c : Char}
    (hMem : c ∈ ofBytes bytes) :
    ∃ n < 16, c = digit n := by
  unfold ofBytes at hMem
  rcases List.mem_flatMap.1 hMem with ⟨b, -, hB⟩
  have hFits := b.toNat_lt
  simp only [ofByte, List.mem_cons, List.not_mem_nil,
    or_false] at hB
  rcases hB with hHigh | hLow
  · exact ⟨_, by omega, hHigh⟩
  · exact ⟨_, by omega, hLow⟩

theorem isLowerDigit_of_mem_ofBytes
    {bytes : List UInt8}
    {c : Char}
    (hMem : c ∈ ofBytes bytes) :
    IsLowerDigit c := by
  rcases exists_digit_of_mem_ofBytes hMem with ⟨n, hN, rfl⟩
  rw [isLowerDigit_iff, toNat_digit n hN]
  split <;> omega

------------------------------------------------------------
-- Reading one digit
------------------------------------------------------------

theorem value?_eq_none_iff
    {b : UInt8} :
    value? b = none ↔ ¬ IsDigit (Char.ofUInt8 b) := by
  have hCode : (Char.ofUInt8 b).toNat = b.toNat := rfl
  rw [isDigit_iff, hCode]
  simp only [value?]
  split
  · simp; omega
  · split
    · simp; omega
    · split
      · simp; omega
      · simp; omega

theorem isDigit_of_value?
    {b : UInt8}
    {v : Nat}
    (hValue : value? b = some v) :
    IsDigit (Char.ofUInt8 b) := by
  by_contra hNot
  rw [value?_eq_none_iff.2 hNot] at hValue
  cases hValue

/- A digit that is read is the one that is written, in some case. -/
theorem digit_of_value?
    {b : UInt8}
    {v : Nat}
    (hValue : value? b = some v) :
    v < 16 ∧ digit v = (Char.ofUInt8 b).toLower := by
  have hCode : (Char.ofUInt8 b).toNat = b.toNat := rfl
  have hFits :
      v < 16 ∧
        (if v < 10 then 48 + v else 87 + v) =
          (if 65 ≤ b.toNat ∧ b.toNat ≤ 90 then b.toNat + 32
            else b.toNat) := by
    simp only [value?] at hValue
    split at hValue
    · cases hValue
      rw [if_pos (by omega), if_neg (by omega)]
      omega
    · split at hValue
      · cases hValue
        rw [if_neg (by omega), if_pos (by omega)]
        omega
      · split at hValue
        · cases hValue
          rw [if_neg (by omega), if_neg (by omega)]
          omega
        · cases hValue
  refine ⟨hFits.1, Char.toNat_inj.1 ?_⟩
  rw [toNat_digit v hFits.1, toNat_toLower, hCode]
  exact hFits.2

/- Two digits make one byte, which is written as these two. -/
theorem ofByte_of_values
    {high low : UInt8}
    {h l : Nat}
    (hHigh : value? high = some h)
    (hLow : value? low = some l) :
    ofByte (UInt8.ofNat (16 * h + l)) =
      [(Char.ofUInt8 high).toLower,
        (Char.ofUInt8 low).toLower] := by
  rcases digit_of_value? hHigh with ⟨hH, hHigh⟩
  rcases digit_of_value? hLow with ⟨hL, hLow⟩
  have hByte :
      (UInt8.ofNat (16 * h + l)).toNat = 16 * h + l := by
    rw [UInt8.toNat_ofNat']
    omega
  have hUpper : (16 * h + l) / 16 = h := by omega
  have hLower : (16 * h + l) % 16 = l := by omega
  rw [ofByte, hByte, hUpper, hLower, hHigh, hLow]

------------------------------------------------------------
-- Reading a text
------------------------------------------------------------

/- A byte is the first of a text that is no digit. -/
structure BadDigit.IsFirstOf
    (bad : BadDigit)
    (text : List UInt8) : Prop where
  found : text[bad.position]? = some bad.found
  noDigit : ¬ IsDigit (Char.ofUInt8 bad.found)
  earlier :
    ∀ i < bad.position, ∀ b, text[i]? = some b →
      IsDigit (Char.ofUInt8 b)

/- There is one first byte that is no digit. -/
theorem BadDigit.IsFirstOf.unique
    {bad other : BadDigit}
    {text : List UInt8}
    (hBad : bad.IsFirstOf text)
    (hOther : other.IsFirstOf text) :
    bad = other := by
  rcases Nat.lt_trichotomy bad.position other.position with
    hBefore | hSame | hBehind
  · exact absurd (hOther.earlier _ hBefore _ hBad.found)
      hBad.noDigit
  · have hFound := hBad.found
    rw [hSame, hOther.found] at hFound
    cases bad
    cases other
    simp_all
  · exact absurd (hBad.earlier _ hBehind _ hOther.found)
      hOther.noDigit

/- In front of the first byte that is no digit are digits. -/
theorem BadDigit.isFirstOf_iff
    {bad : BadDigit}
    {text : List UInt8} :
    bad.IsFirstOf text ↔
      ∃ front rest,
        text = front ++ bad.found :: rest ∧
          bad.position = front.length ∧
            (∀ b ∈ front, IsDigit (Char.ofUInt8 b)) ∧
              ¬ IsDigit (Char.ofUInt8 bad.found) := by
  constructor
  · intro hFirst
    rcases List.getElem?_eq_some_iff.1 hFirst.found with
      ⟨hInside, hFound⟩
    refine ⟨text.take bad.position,
      text.drop (bad.position + 1), ?_, ?_, ?_,
      hFirst.noDigit⟩
    · rw [← hFound, ← List.drop_eq_getElem_cons hInside,
        List.take_append_drop]
    · rw [List.length_take]
      omega
    · intro b hMem
      rcases List.getElem?_of_mem hMem with ⟨i, hI⟩
      rw [List.getElem?_take] at hI
      split at hI
      · next hBefore =>
          exact hFirst.earlier i hBefore b hI
      · cases hI
  · rintro ⟨front, rest, rfl, hPosition, hFront, hNot⟩
    refine ⟨?_, hNot, ?_⟩
    · rw [hPosition, List.getElem?_append_right (Nat.le_refl _),
        Nat.sub_self]
      rfl
    · intro i hBefore b hI
      rw [List.getElem?_append_left (by omega)] at hI
      exact hFront b (List.mem_of_getElem? hI)

/-
  A reader that stops has read digits up to the byte where it
  stops.  The reader takes two bytes a step, so the byte is
  the first or the second of its step or one of a later step.
-/
theorem split_of_decodeAt
    {position : Nat}
    {text : List UInt8}
    {bad : BadDigit}
    (hRead : decodeAt position text = .error bad) :
    ∃ front rest,
      text = front ++ bad.found :: rest ∧
        bad.position = position + front.length ∧
          (∀ b ∈ front, IsDigit (Char.ofUInt8 b)) ∧
            ¬ IsDigit (Char.ofUInt8 bad.found) := by
  fun_induction decodeAt position text with
  | case1 position high low rest hHigh =>
      cases hRead
      exact ⟨[], low :: rest, rfl, rfl, by simp,
        value?_eq_none_iff.1 hHigh⟩
  | case2 position high low rest h hHigh hLow =>
      cases hRead
      refine ⟨[high], rest, rfl, rfl, ?_,
        value?_eq_none_iff.1 hLow⟩
      intro b hMem
      rw [List.mem_singleton.1 hMem]
      exact isDigit_of_value? hHigh
  | case3 position high low rest h hHigh l hLow e hRest ih =>
      cases hRead
      rcases ih hRest with
        ⟨front, behind, rfl, hPosition, hFront, hNot⟩
      refine ⟨high :: low :: front, behind, rfl, ?_, ?_, hNot⟩
      · rw [hPosition, List.length_cons, List.length_cons]
        omega
      · simp only [List.mem_cons, forall_eq_or_imp]
        exact ⟨isDigit_of_value? hHigh,
          isDigit_of_value? hLow, hFront⟩
  | case4 => cases hRead
  | case5 => cases hRead

/-
  A reader that comes to the end of pairs of bytes has read
  digits only, which are those of its result in some case.
-/
theorem digits_of_decodeAt
    {position : Nat}
    {text bytes : List UInt8}
    (hRead : decodeAt position text = .ok bytes)
    (hEven : text.length % 2 = 0) :
    (∀ b ∈ text, IsDigit (Char.ofUInt8 b)) ∧
      ofBytes bytes =
        text.map (fun b => (Char.ofUInt8 b).toLower) := by
  fun_induction decodeAt position text generalizing bytes with
  | case1 => cases hRead
  | case2 => cases hRead
  | case3 => cases hRead
  | case4 position high low rest h hHigh l hLow read hRest ih =>
      cases hRead
      have hEvenRest : rest.length % 2 = 0 := by
        rw [List.length_cons, List.length_cons] at hEven
        omega
      rcases ih hRest hEvenRest with ⟨hDigits, hWritten⟩
      constructor
      · simp only [List.mem_cons, forall_eq_or_imp]
        exact ⟨isDigit_of_value? hHigh,
          isDigit_of_value? hLow, hDigits⟩
      · have hCons :
            ofBytes (UInt8.ofNat (16 * h + l) :: read) =
              ofByte (UInt8.ofNat (16 * h + l)) ++
                ofBytes read := rfl
        rw [hCons, ofByte_of_values hHigh hLow, hWritten]
        rfl
  | case5 text position hShort =>
      cases hRead
      -- A text without a pair is empty, as its length is even.
      cases text with
      | nil => exact ⟨by simp, rfl⟩
      | cons b rest =>
          cases rest with
          | nil => simp at hEven
          | cons c rest => exact absurd rfl (hShort b c rest)

/- What stops the reader is the first byte that is no digit. -/
theorem decode_eq_error_iff
    {text : List UInt8}
    {bad : BadDigit}
    (hEven : text.length % 2 = 0) :
    decode text = .error bad ↔ bad.IsFirstOf text := by
  have hStops :
      ∀ {other : BadDigit}, decode text = .error other →
        other.IsFirstOf text := by
    intro other hRead
    rw [BadDigit.isFirstOf_iff]
    simpa using split_of_decodeAt hRead
  refine ⟨hStops, fun hFirst => ?_⟩
  cases hRead : decode text with
  | error other => rw [(hStops hRead).unique hFirst]
  | ok bytes =>
      have hDigits := (digits_of_decodeAt hRead hEven).1
      exact absurd
        (hDigits _ (List.mem_of_getElem? hFirst.found))
        hFirst.noDigit

end Hex

end SnapTree
