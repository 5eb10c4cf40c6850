import SnapTree.Binary.Codec
import Mathlib.Tactic.Ring

/-
  This file proves that the writers and readers of binary
  formats fit together: a reader gives back the value that was
  written and leaves alone what follows it.

  A count is a 64-bit number, so this holds of values whose
  written form is no longer than a memory can hold.

  Key definitions include:
    * `memoryLimit`
    * `Codec.Lawful`

  Key theorems include:
    * `Codec.Lawful.encode_injective`
    * `Codec.Lawful.refine`
    * `Codec.Lawful.pair`
    * `Codec.Lawful.list`
    * `Codec.lawful_text`
    * `Codec.lawful_enumeration`
-/

namespace SnapTree

------------------------------------------------------------
-- Numbers as bytes
------------------------------------------------------------

@[simp]
theorem length_littleEndian
    (width n : Nat) :
    (littleEndian width n).length = width := by
  induction width generalizing n with
  | zero => rfl
  | succ width ih => simp [littleEndian, ih]

/- A number that fits in the width is read back. -/
theorem ofLittleEndian_littleEndian
    {width n : Nat}
    (hFits : n < 256 ^ width) :
    ofLittleEndian (littleEndian width n) = n := by
  induction width generalizing n with
  | zero =>
      have hZero : n = 0 := by simpa using hFits
      simp [littleEndian, ofLittleEndian, hZero]
  | succ width ih =>
      have hHigh : n / 256 < 256 ^ width := by
        rw [Nat.div_lt_iff_lt_mul (by decide)]
        simpa [Nat.pow_succ] using hFits
      simp only [littleEndian, ofLittleEndian, ih hHigh,
        UInt8.toNat_ofNat']
      omega

/- The bytes that a loop over a byte array has yet to list. -/
theorem toList_loop_eq
    (bytes : ByteArray)
    (i : Nat)
    (listed : List UInt8) :
    ByteArray.toList.loop bytes i listed =
      listed.reverse ++ bytes.data.toList.drop i := by
  induction hLeft : bytes.size - i generalizing i listed with
  | zero =>
      have hDone : bytes.data.toList.length ≤ i := by
        have hSize : bytes.data.toList.length = bytes.size :=
          rfl
        omega
      rw [ByteArray.toList.loop, if_neg (by omega),
        List.drop_eq_nil_of_le hDone, List.append_nil]
  | succ left ih =>
      have hInside : i < bytes.size := by omega
      have hLength : i < bytes.data.toList.length :=
        hInside
      have hByte : bytes.get! i = bytes.data.toList[i] := by
        rw [ByteArray.get!]
        exact getElem!_pos bytes.data i hInside
      rw [ByteArray.toList.loop, if_pos hInside,
        ih (i + 1) _ (by omega), List.drop_eq_getElem_cons
          hLength, hByte]
      simp

/- The bytes of a byte array, listed. -/
theorem byteArray_toList
    (bytes : ByteArray) :
    bytes.toList = bytes.data.toList := by
  rw [ByteArray.toList, toList_loop_eq]
  rfl

/- A text has as many bytes as its size says. -/
theorem length_utf8
    (s : String) :
    s.toUTF8.toList.length = s.utf8ByteSize := by
  rw [byteArray_toList]
  rfl

theorem splitFront_append
    {α : Type}
    (front rest : List α) :
    splitFront front.length (front ++ rest) =
      some (front, rest) := by
  simp [splitFront]

namespace Codec

variable {α β : Type}

------------------------------------------------------------
-- Lawful formats
------------------------------------------------------------

/- No byte string in memory is as long as this. -/
@[irreducible]
def memoryLimit : Nat :=
  2 ^ 63

/-
  A writer and a reader that fit together.  No value is
  written as nothing at all, so a list has no more items than
  bytes.
-/
structure Lawful
    (c : Codec α) : Prop where
  encode_ne_nil : ∀ a, c.encode a ≠ []
  decode_encode :
    ∀ a rest, (c.encode a).length < memoryLimit →
      c.decode (c.encode a ++ rest) = some (a, rest)

namespace Lawful

variable {c : Codec α} {d : Codec β}

/- Different values are written differently. -/
theorem encode_injective
    (hLawful : c.Lawful)
    {a b : α}
    (hShort : (c.encode a).length < memoryLimit)
    (hSame : c.encode a = c.encode b) :
    a = b := by
  have hLeft := hLawful.decode_encode a [] hShort
  have hRight :=
    hLawful.decode_encode b [] (hSame ▸ hShort)
  rw [hSame, hRight] at hLeft
  exact (congrArg Prod.fst (Option.some.inj hLeft)).symm

/- A view of values that can be taken back keeps the laws. -/
theorem refine
    (hLawful : c.Lawful)
    {view : β → α}
    {make? : α → Option β}
    (hMake : ∀ b, make? (view b) = some b) :
    (c.refine view make?).Lawful where
  encode_ne_nil b := hLawful.encode_ne_nil (view b)
  decode_encode b rest hShort := by
    simp only [Codec.refine] at hShort ⊢
    rw [hLawful.decode_encode (view b) rest hShort]
    simp [hMake]

theorem rename
    (hLawful : c.Lawful)
    {view : β → α}
    {make : α → β}
    (hMake : ∀ b, make (view b) = b) :
    (c.rename view make).Lawful :=
  hLawful.refine (fun b => congrArg some (hMake b))

/- Two lawful formats in a row are lawful. -/
theorem pair
    (hFirst : c.Lawful)
    (hSecond : d.Lawful) :
    (c.pair d).Lawful where
  encode_ne_nil p := by
    simp [Codec.pair, hFirst.encode_ne_nil]
  decode_encode p rest hShort := by
    simp only [Codec.pair, List.length_append] at hShort ⊢
    rw [List.append_assoc,
      hFirst.decode_encode p.1 _ (by omega)]
    simp only
    rw [hSecond.decode_encode p.2 rest (by omega)]

end Lawful

------------------------------------------------------------
-- Basic formats
------------------------------------------------------------

theorem lawful_byte : byte.Lawful where
  encode_ne_nil b := by simp [byte]
  decode_encode b rest _ := rfl

theorem lawful_fixed
    {n : Nat}
    (hPos : 0 < n) :
    (fixed n).Lawful where
  encode_ne_nil v := by
    intro hNil
    have hLength : v.toList.length = 0 := by
      rw [show v.toList = [] from hNil]
      rfl
    simp at hLength
    omega
  decode_encode v rest _ := by
    have hLength : v.toList.length = n := by simp
    have hFront : (v.toList ++ rest).take n = v.toList := by
      rw [List.take_left' hLength]
    have hBack : (v.toList ++ rest).drop n = rest := by
      rw [List.drop_left' hLength]
    have hLong : n ≤ (v.toList ++ rest).length := by
      rw [List.length_append]
      omega
    simp only [fixed, dif_pos hLong, hFront, hBack]
    rfl

theorem lawful_word64 : word64.Lawful where
  encode_ne_nil w := by simp [word64, littleEndian]
  decode_encode w rest _ := by
    have hFits : w.toNat < 256 ^ 8 := w.toNat_lt
    have hSplit :=
      splitFront_append (littleEndian 8 w.toNat) rest
    rw [length_littleEndian] at hSplit
    simp [word64, hSplit, ofLittleEndian_littleEndian hFits]

theorem lawful_word32 : word32.Lawful where
  encode_ne_nil w := by simp [word32, littleEndian]
  decode_encode w rest _ := by
    have hFits : w.toNat < 256 ^ 4 := w.toNat_lt
    have hSplit :=
      splitFront_append (littleEndian 4 w.toNat) rest
    rw [length_littleEndian] at hSplit
    simp [word32, hSplit, ofLittleEndian_littleEndian hFits]

theorem lawful_bool : bool.Lawful :=
  lawful_byte.refine (by decide)

/- A list of all values of a type gives a lawful format. -/
theorem lawful_enumeration
    [DecidableEq α]
    {values : List α}
    (hAll : ∀ a, a ∈ values)
    (hSmall : values.length ≤ 2 ^ 32) :
    (enumeration values).Lawful := by
  refine lawful_word32.refine (fun a => ?_)
  have hIndex := List.idxOf_lt_length_of_mem (hAll a)
  have hToNat :
      (UInt32.ofNat (values.idxOf a)).toNat =
        values.idxOf a :=
    UInt32.toNat_ofNat_of_lt' (by
      rw [UInt32.size]
      omega)
  rw [hToNat, List.getElem?_eq_getElem hIndex,
    List.getElem_idxOf]

------------------------------------------------------------
-- Options, lists and text
------------------------------------------------------------

theorem Lawful.option
    {c : Codec α}
    (hLawful : c.Lawful) :
    c.option.Lawful where
  encode_ne_nil a := by
    cases a <;> simp [Codec.option, lawful_bool.encode_ne_nil]
  decode_encode a rest hShort := by
    cases a with
    | none => rfl
    | some a =>
        simp only [Codec.option, List.length_append] at hShort ⊢
        rw [List.append_assoc,
          lawful_bool.decode_encode true _ (by omega)]
        simp only
        rw [hLawful.decode_encode a rest (by omega)]
        rfl

/- The number that a count was written for. -/
theorem decode_count
    {n : Nat}
    (hSmall : n < memoryLimit)
    (rest : List UInt8) :
    ∃ w, word64.decode (count n ++ rest) = some (w, rest) ∧
      w.toNat = n := by
  refine ⟨UInt64.ofNat n,
    lawful_word64.decode_encode _ rest ?_, ?_⟩
  · simp [word64, memoryLimit]
  · apply UInt64.toNat_ofNat_of_lt'
    rw [UInt64.size]
    simp only [memoryLimit] at hSmall
    omega

/- Items that were written one after another are read back. -/
theorem readMany_flatMap
    {c : Codec α}
    (hLawful : c.Lawful)
    (xs : List α)
    (rest : List UInt8)
    (hShort : (xs.flatMap c.encode).length < memoryLimit) :
    readMany c xs.length (xs.flatMap c.encode ++ rest) =
      some (xs, rest) := by
  induction xs with
  | nil => rfl
  | cons x xs ih =>
      simp only [List.flatMap_cons, List.length_append]
        at hShort
      simp only [List.flatMap_cons, List.length_cons,
        readMany, List.append_assoc]
      rw [hLawful.decode_encode x _ (by omega)]
      simp only
      rw [ih (by omega)]
      rfl

/- A list has no more items than its written form has bytes. -/
theorem Lawful.length_le_flatMap
    {c : Codec α}
    (hLawful : c.Lawful)
    (xs : List α) :
    xs.length ≤ (xs.flatMap c.encode).length := by
  induction xs with
  | nil => simp
  | cons x xs ih =>
      have hPos : 0 < (c.encode x).length :=
        List.length_pos_iff.2 (hLawful.encode_ne_nil x)
      simp only [List.flatMap_cons, List.length_append,
        List.length_cons]
      omega

theorem length_count
    (n : Nat) :
    (count n).length = 8 := by
  simp [count, word64]

theorem Lawful.list
    {c : Codec α}
    (hLawful : c.Lawful) :
    c.list.Lawful where
  encode_ne_nil xs := by
    simp [Codec.list, count, lawful_word64.encode_ne_nil]
  decode_encode xs rest hShort := by
    simp only [Codec.list, List.length_append,
      length_count] at hShort ⊢
    have hItems := hLawful.length_le_flatMap xs
    rcases decode_count (n := xs.length) (by omega)
        (xs.flatMap c.encode ++ rest) with
      ⟨w, hDecode, hCount⟩
    rw [List.append_assoc, hDecode]
    simp only
    rw [hCount]
    exact readMany_flatMap hLawful xs rest (by omega)

theorem lawful_text : text.Lawful where
  encode_ne_nil s := by
    simp [text, count, lawful_word64.encode_ne_nil]
  decode_encode s rest hShort := by
    have hBytes := length_utf8 s
    simp only [text, List.length_append, length_count,
      hBytes] at hShort ⊢
    rcases decode_count (n := s.utf8ByteSize) (by omega)
        (s.toUTF8.toList ++ rest) with
      ⟨w, hDecode, hCount⟩
    rw [List.append_assoc, hDecode]
    simp only
    rw [hCount, ← hBytes, splitFront_append]
    have hArray :
        (⟨s.toUTF8.toList.toArray⟩ : ByteArray) =
          s.toByteArray := by
      rw [byteArray_toList]
      rfl
    have hValid : s.toByteArray.IsValidUTF8 := s.isValidUTF8
    simp only [hArray, String.fromUTF8?, dif_pos hValid]
    rfl

end Codec

end SnapTree
