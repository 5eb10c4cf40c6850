import SnapTree.Proofs.Digest.Digits
import SnapTree.Proofs.Digest.Refusals
import SnapTree.Proofs.Merkle.Faithful

/-
  This file proves that the text form of checksums is exact: a
  checksum is read back from its text, the texts that are read
  are those of 64 digits, in either case, and every other text
  is refused with what is wrong with it.

  A text has 64 bytes if it has 64 digits, as a digit is one
  byte.  A character of several bytes is no digit, and neither
  is the first of its bytes, so the reader never stops inside
  a character.

  Key theorems include:
    * `Hex.BadDigit.IsFirstOf.character`
    * `Checksum.parse_eq_ok_iff`
    * `Checksum.exists_refusal`
    * `Checksum.text_form_exact`
-/

namespace SnapTree

------------------------------------------------------------
-- Characters and their bytes
------------------------------------------------------------

/- The bytes of a text are those of its characters in turn. -/
theorem utf8_eq_flatMap
    (s : String) :
    s.toUTF8.toList = s.toList.flatMap String.utf8EncodeChar := by
  rw [String.toUTF8_eq_toByteArray, ← String.utf8Encode_toList,
    byteArray_toList]
  exact List.toList_data_toByteArray

theorem toList_toLower
    (s : String) :
    s.toLower.toList = s.toList.map Char.toLower :=
  String.toList_map

theorem length_toLower
    (s : String) :
    s.toLower.length = s.length :=
  String.length_map

namespace Hex

/- A digit is one byte. -/
theorem utf8EncodeChar_of_isDigit
    {c : Char}
    (hDigit : IsDigit c) :
    ∃ b, String.utf8EncodeChar c = [b] ∧ Char.ofUInt8 b = c := by
  rw [isDigit_iff] at hDigit
  have hCode : c.val.toNat = c.toNat := rfl
  refine ⟨UInt8.ofNat c.toNat, ?_, ?_⟩
  · simp only [String.utf8EncodeChar, hCode]
    rw [if_pos (by omega)]
  · apply Char.toNat_inj.1
    show (UInt8.ofNat c.toNat).toNat = c.toNat
    rw [UInt8.toNat_ofNat']
    omega

/- What is no digit starts with a byte that is none. -/
theorem utf8EncodeChar_of_not_isDigit
    {c : Char}
    (hNot : ¬ IsDigit c) :
    ∃ b rest,
      String.utf8EncodeChar c = b :: rest ∧
        ¬ IsDigit (Char.ofUInt8 b) := by
  have hCode : c.val.toNat = c.toNat := rfl
  have hByte :
      ∀ n < 256, ¬ IsDigit (Char.ofUInt8 (UInt8.ofNat n)) ↔
        ¬ ((48 ≤ n ∧ n ≤ 57) ∨ (65 ≤ n ∧ n ≤ 70) ∨
          (97 ≤ n ∧ n ≤ 102)) := by
    intro n hN
    have hSame :
        (Char.ofUInt8 (UInt8.ofNat n)).toNat = n := by
      show (UInt8.ofNat n).toNat = n
      rw [UInt8.toNat_ofNat']
      omega
    rw [isDigit_iff, hSame]
  rw [isDigit_iff] at hNot
  simp only [String.utf8EncodeChar, hCode]
  -- Beyond the characters of one byte the first byte is high.
  split
  · exact ⟨_, _, rfl, (hByte _ (by omega)).2 hNot⟩
  · split
    · exact ⟨_, _, rfl, (hByte _ (by omega)).2 (by omega)⟩
    · split
      · exact ⟨_, _, rfl, (hByte _ (by omega)).2 (by omega)⟩
      · exact ⟨_, _, rfl, (hByte _ (by omega)).2 (by omega)⟩

/- The bytes of a text are digits if its characters are. -/
theorem forall_isDigit_utf8_iff
    {text : List Char} :
    (∀ b ∈ text.flatMap String.utf8EncodeChar,
        IsDigit (Char.ofUInt8 b)) ↔
      ∀ c ∈ text, IsDigit c := by
  simp only [List.mem_flatMap]
  constructor
  · intro hBytes c hMem
    by_contra hNot
    rcases utf8EncodeChar_of_not_isDigit hNot with
      ⟨b, rest, hEncode, hBad⟩
    apply hBad
    apply hBytes b
    exact ⟨c, hMem, by rw [hEncode]; exact List.mem_cons_self⟩
  · rintro hDigits b ⟨c, hMem, hB⟩
    have hDigit := hDigits c hMem
    rcases utf8EncodeChar_of_isDigit hDigit with
      ⟨b', hEncode, hChar⟩
    rw [hEncode, List.mem_singleton] at hB
    rw [hB, hChar]
    exact hDigit

/- The bytes of digits are these digits again. -/
theorem map_ofUInt8_of_isDigit
    {text : List Char}
    (hDigits : ∀ c ∈ text, IsDigit c) :
    (text.flatMap String.utf8EncodeChar).map Char.ofUInt8 =
      text := by
  induction text with
  | nil => rfl
  | cons c rest ih =>
      rw [List.forall_mem_cons] at hDigits
      rcases utf8EncodeChar_of_isDigit hDigits.1 with
        ⟨b, hEncode, hChar⟩
      rw [List.flatMap_cons, hEncode, List.map_append,
        ih hDigits.2, List.map_singleton, hChar]
      rfl

/-
  A first byte that is no digit starts a character that is no
  digit.  Each character in front is a digit and one byte, so
  the place of the byte among the bytes is that of the
  character among the characters.
-/
theorem BadDigit.IsFirstOf.character
    {bad : BadDigit}
    {text : List Char}
    (hFirst :
      bad.IsFirstOf (text.flatMap String.utf8EncodeChar)) :
    ∃ front c rest,
      text = front ++ c :: rest ∧
        bad.position = front.length ∧
          (∀ d ∈ front, IsDigit d) ∧ ¬ IsDigit c ∧
            (String.utf8EncodeChar c).head? =
              some bad.found := by
  rcases BadDigit.isFirstOf_iff.1 hFirst with
    ⟨front, rest, hSplit, hPosition, hFront, hNot⟩
  clear hFirst
  rw [hPosition]
  clear hPosition
  induction text generalizing front with
  | nil => simp at hSplit
  | cons c text ih =>
      rw [List.flatMap_cons] at hSplit
      by_cases hDigit : IsDigit c
      · rcases utf8EncodeChar_of_isDigit hDigit with
          ⟨b, hEncode, hChar⟩
        rw [hEncode] at hSplit
        cases front with
        | nil =>
            rcases List.cons_eq_cons.1 hSplit with ⟨hB, -⟩
            rw [← hB, hChar] at hNot
            exact absurd hDigit hNot
        | cons b' front =>
            rcases List.cons_eq_cons.1 hSplit with ⟨-, hTail⟩
            rw [List.forall_mem_cons] at hFront
            rcases ih front hTail hFront.2 with
              ⟨before, d, behind, hText, hLength, hBefore, hD,
                hHead⟩
            refine ⟨c :: before, d, behind, ?_, ?_, ?_, hD,
              hHead⟩
            · rw [hText, List.cons_append]
            · rw [List.length_cons, List.length_cons, hLength]
            · rw [List.forall_mem_cons]
              exact ⟨hDigit, hBefore⟩
      · rcases utf8EncodeChar_of_not_isDigit hDigit with
          ⟨b, behind, hEncode, hBad⟩
        rw [hEncode] at hSplit
        cases front with
        | nil =>
            rcases List.cons_eq_cons.1 hSplit with ⟨hB, -⟩
            refine ⟨[], c, text, rfl, rfl, by simp, hDigit, ?_⟩
            rw [hEncode, hB]
            rfl
        | cons b' front =>
            rcases List.cons_eq_cons.1 hSplit with ⟨hB, -⟩
            rw [List.forall_mem_cons, ← hB] at hFront
            exact absurd hFront.1 hBad

end Hex

namespace Checksum

------------------------------------------------------------
-- What is written
------------------------------------------------------------

theorem toList_toHex
    (c : Checksum) :
    c.toHex.toList = Hex.ofBytes c.toList :=
  String.toList_ofList

theorem length_toHex
    (c : Checksum) :
    c.toHex.length = 64 := by
  rw [← String.length_toList, toList_toHex, Hex.length_ofBytes,
    length_toList]

theorem isLowerDigit_of_mem_toHex
    {c : Checksum}
    {d : Char}
    (hMem : d ∈ c.toHex.toList) :
    Hex.IsLowerDigit d := by
  rw [toList_toHex] at hMem
  exact Hex.isLowerDigit_of_mem_ofBytes hMem

/- Checksums are told apart by their texts. -/
theorem toHex_injective
    {c d : Checksum}
    (hSame : c.toHex = d.toHex) :
    c = d := by
  have hText := congrArg String.toList hSame
  rw [toList_toHex, toList_toHex] at hText
  exact toList_injective (Hex.ofBytes_injective hText)

theorem toLower_toHex
    (c : Checksum) :
    c.toHex.toLower = c.toHex := by
  have hSame :
      ∀ d ∈ c.toHex.toList, d.toLower = id d :=
    fun d hMem =>
      Hex.toLower_of_isLowerDigit (isLowerDigit_of_mem_toHex hMem)
  apply String.toList_injective
  rw [toList_toLower, List.map_congr_left hSame, List.map_id]

------------------------------------------------------------
-- What is read
------------------------------------------------------------

theorem parse_of_size_ne
    {s : String}
    (hSize : s.utf8ByteSize ≠ 64) :
    parse s = .error (.length s.utf8ByteSize) :=
  if_neg hSize

/-
  A text of 64 bytes is refused for its first bad byte, or it
  consists of digits, which in lower case are those of what is
  read.
-/
theorem parse_cases
    {s : String}
    (hSize : s.utf8ByteSize = 64) :
    (∃ bad, parse s = .error (.digit s bad) ∧
      bad.IsFirstOf s.toUTF8.toList) ∨
    (∃ c, parse s = .ok c ∧
      (∀ d ∈ s.toList, Hex.IsDigit d) ∧ c.toHex = s.toLower) := by
  have hLength : s.toUTF8.toList.length = 64 := by
    rw [length_utf8, hSize]
  have hEven : s.toUTF8.toList.length % 2 = 0 := by
    rw [hLength]
  unfold parse
  rw [if_pos hSize]
  cases hRead : Hex.decode s.toUTF8.toList with
  | error bad =>
      exact Or.inl
        ⟨bad, rfl, (Hex.decode_eq_error_iff hEven).1 hRead⟩
  | ok bytes =>
      rcases Hex.digits_of_decodeAt hRead hEven with
        ⟨hDigits, hWritten⟩
      have hFits : bytes.toArray.size = 32 := by
        have hCount := congrArg List.length hWritten
        rw [Hex.length_ofBytes, List.length_map, hLength]
          at hCount
        rw [List.size_toArray]
        omega
      rw [utf8_eq_flatMap] at hDigits hWritten
      rw [Hex.forall_isDigit_utf8_iff] at hDigits
      refine Or.inr
        ⟨⟨⟨bytes.toArray, hFits⟩⟩, dif_pos hFits, hDigits,
          String.toList_injective ?_⟩
      rw [toList_toHex, toList_toLower]
      conv => rhs; rw [← Hex.map_ofUInt8_of_isDigit hDigits]
      rw [List.map_map]
      exact hWritten

/- What is read is written with the same digits in lower case. -/
theorem toHex_of_parse
    {s : String}
    {c : Checksum}
    (hRead : parse s = .ok c) :
    (∀ d ∈ s.toList, Hex.IsDigit d) ∧ c.toHex = s.toLower := by
  have hSize : s.utf8ByteSize = 64 := by
    by_contra hOther
    rw [parse_of_size_ne hOther] at hRead
    cases hRead
  rcases parse_cases hSize with
    ⟨bad, hRefused, -⟩ | ⟨c', hOk, hText⟩
  · rw [hRefused] at hRead
    cases hRead
  · rw [hOk] at hRead
    cases hRead
    exact hText

/- Texts of 64 digits are read, as a digit is one byte. -/
theorem exists_parse_of_digits
    {s : String}
    (hLength : s.length = 64)
    (hDigits : ∀ d ∈ s.toList, Hex.IsDigit d) :
    ∃ c, parse s = .ok c := by
  have hBytes :=
    congrArg List.length (Hex.map_ofUInt8_of_isDigit hDigits)
  rw [List.length_map, ← utf8_eq_flatMap, length_utf8,
    String.length_toList, hLength] at hBytes
  rcases parse_cases hBytes with
    ⟨bad, -, hFirst⟩ | ⟨c, hOk, -⟩
  · have hByte := List.mem_of_getElem? hFirst.found
    rw [utf8_eq_flatMap] at hByte
    exact absurd
      (Hex.forall_isDigit_utf8_iff.2 hDigits _ hByte)
      hFirst.noDigit
  · exact ⟨c, hOk⟩

/- A checksum is read from the texts that are its own in lower case. -/
theorem parse_eq_ok_iff
    {s : String}
    {c : Checksum} :
    parse s = .ok c ↔ c.toHex = s.toLower := by
  refine ⟨fun hRead => (toHex_of_parse hRead).2, fun hSame => ?_⟩
  have hLength : s.length = 64 := by
    rw [← length_toHex c, hSame, length_toLower]
  have hDigits : ∀ d ∈ s.toList, Hex.IsDigit d := by
    intro d hMem
    rw [Hex.isDigit_iff_toLower]
    apply isLowerDigit_of_mem_toHex (c := c)
    rw [hSame, toList_toLower]
    exact List.mem_map_of_mem hMem
  rcases exists_parse_of_digits hLength hDigits with
    ⟨c', hRead⟩
  have hSame' := (toHex_of_parse hRead).2
  rw [← hSame] at hSame'
  rw [hRead, toHex_injective hSame']

/- The texts that are read are those of 64 digits. -/
theorem exists_parse_eq_ok_iff
    {s : String} :
    (∃ c, parse s = .ok c) ↔
      s.length = 64 ∧ ∀ d ∈ s.toList, Hex.IsDigit d := by
  constructor
  · rintro ⟨c, hRead⟩
    rcases toHex_of_parse hRead with ⟨hDigits, hSame⟩
    refine ⟨?_, hDigits⟩
    rw [← length_toHex c, hSame, length_toLower]
  · rintro ⟨hLength, hDigits⟩
    exact exists_parse_of_digits hLength hDigits

/- A text of 64 bytes with a bad byte is refused for the first. -/
theorem exists_refusal
    {s : String}
    (hSize : s.utf8ByteSize = 64)
    (hBad :
      ∃ b ∈ s.toUTF8.toList, ¬ Hex.IsDigit (Char.ofUInt8 b)) :
    ∃ bad, parse s = .error (.digit s bad) ∧
      bad.IsFirstOf s.toUTF8.toList := by
  rcases parse_cases hSize with hRefused | ⟨c, -, hDigits, -⟩
  · exact hRefused
  · rcases hBad with ⟨b, hMem, hNot⟩
    rw [utf8_eq_flatMap] at hMem
    exact absurd
      (Hex.forall_isDigit_utf8_iff.2 hDigits b hMem) hNot

/-
  The text form of checksums is exact.  A checksum is written
  with 64 lowercase digits, from which it is read back.  The
  texts that are read are those of 64 digits of either case,
  each as the checksum that is written as its lower case.

  A text that has not 64 bytes is refused with the number of
  its bytes.  One of 64 bytes with a bad byte is refused with
  the first of them and its place, which is the place of the
  first character that is no digit, however many bytes that
  character has.  The messages tell all refusals apart.
-/
theorem text_form_exact :
    (∀ c : Checksum,
      parse c.toHex = .ok c ∧
        c.toHex.length = 64 ∧
          ∀ d ∈ c.toHex.toList, Hex.IsLowerDigit d) ∧
    (∀ s : String,
      (∃ c, parse s = .ok c) ↔
        s.length = 64 ∧ ∀ d ∈ s.toList, Hex.IsDigit d) ∧
    (∀ (s : String) (c : Checksum),
      parse s = .ok c ↔ c.toHex = s.toLower) ∧
    (∀ s : String, s.utf8ByteSize ≠ 64 →
      parse s = .error (.length s.utf8ByteSize)) ∧
    (∀ s : String, s.utf8ByteSize = 64 →
      (∃ b ∈ s.toUTF8.toList,
        ¬ Hex.IsDigit (Char.ofUInt8 b)) →
          ∃ bad, parse s = .error (.digit s bad) ∧
            bad.IsFirstOf s.toUTF8.toList ∧
            ∃ front c rest,
              s.toList = front ++ c :: rest ∧
                bad.position = front.length ∧
                  (∀ d ∈ front, Hex.IsDigit d) ∧
                    ¬ Hex.IsDigit c ∧
                      (String.utf8EncodeChar c).head? =
                        some bad.found) ∧
    (∀ e e' : ParseError, e.message = e'.message → e = e') := by
  refine ⟨fun c => ⟨?_, length_toHex c,
      fun d => isLowerDigit_of_mem_toHex⟩,
    fun s => exists_parse_eq_ok_iff,
    fun s c => parse_eq_ok_iff,
    fun s => parse_of_size_ne,
    fun s hSize hBad => ?_,
    fun e e' => ParseError.message_injective⟩
  · exact parse_eq_ok_iff.2 (toLower_toHex c).symm
  · rcases exists_refusal hSize hBad with ⟨bad, hRead, hFirst⟩
    refine ⟨bad, hRead, hFirst, ?_⟩
    rw [utf8_eq_flatMap] at hFirst
    exact hFirst.character

/- A text of 61 characters and 64 bytes, all but one digits. -/
def crabText : String :=
  String.ofList (List.replicate 60 'a' ++ ['🦀'])

theorem toList_crabText :
    crabText.toList = List.replicate 60 'a' ++ ['🦀'] :=
  String.toList_ofList

theorem utf8_crabText :
    crabText.toUTF8.toList =
      List.replicate 60 97 ++ 240 :: [159, 166, 128] := by
  rw [utf8_eq_flatMap, toList_crabText]
  decide +kernel

theorem isFirstOf_crabText :
    Hex.BadDigit.IsFirstOf ⟨240, 60⟩ crabText.toUTF8.toList := by
  rw [Hex.BadDigit.isFirstOf_iff, utf8_crabText]
  exact ⟨List.replicate 60 97, [159, 166, 128], rfl, rfl,
    by decide +kernel, by decide +kernel⟩

theorem size_crabText :
    crabText.utf8ByteSize = 64 := by
  rw [← length_utf8, utf8_crabText]
  rfl

/- The byte that is named is the first of the four of a character. -/
theorem crabText_refused :
    crabText.utf8ByteSize = 64 ∧
      parse crabText = .error (.digit crabText ⟨240, 60⟩) ∧
        parse "" = .error (.length 0) := by
  have hFirst := isFirstOf_crabText
  rcases text_form_exact with ⟨-, -, -, hLength, hDigit, -⟩
  rcases hDigit crabText size_crabText
    ⟨240, List.mem_of_getElem? hFirst.found, hFirst.noDigit⟩ with
    ⟨bad, hRead, hBad, -⟩
  rw [hBad.unique hFirst] at hRead
  exact ⟨size_crabText, hRead, hLength "" (by decide)⟩

end Checksum

end SnapTree
