import SnapTree.Proofs.Binary.Lawful

/-
  This file proves that the readers of binary formats are
  strict: a byte string that is read as a value starts with
  what the writer writes for that value, and what is left over
  is the rest of it.  So every value has one accepted form.

  Unlike the reading back of what was written, this needs no
  bound: a count that was read is the count of what was read.

  Key definitions include:
    * `Codec.Canonical`

  Key theorems include:
    * `littleEndian_ofLittleEndian`
    * `Codec.Canonical.refine`
    * `Codec.Canonical.pair`
    * `Codec.Canonical.list`
    * `Codec.canonical_text`
    * `Codec.canonical_enumeration`
    * `Codec.Lawful.decode_eq_none_of_prefix`
-/

namespace SnapTree

------------------------------------------------------------
-- Bytes as numbers
------------------------------------------------------------

/- Bytes stand for a number below the power of their count. -/
theorem ofLittleEndian_lt
    (bytes : List UInt8) :
    ofLittleEndian bytes < 256 ^ bytes.length := by
  induction bytes with
  | nil => simp [ofLittleEndian]
  | cons b rest ih =>
      have hByte : b.toNat < 256 := b.toNat_lt
      simp only [ofLittleEndian, List.length_cons,
        Nat.pow_succ]
      omega

/- The bytes that a number was read from are written for it. -/
theorem littleEndian_ofLittleEndian
    (bytes : List UInt8) :
    littleEndian bytes.length (ofLittleEndian bytes) =
      bytes := by
  induction bytes with
  | nil => rfl
  | cons b rest ih =>
      have hByte : b.toNat < 256 := b.toNat_lt
      have hLow :
          UInt8.ofNat (b.toNat + 256 * ofLittleEndian rest) =
            b := by
        apply UInt8.toNat_inj.1
        rw [UInt8.toNat_ofNat']
        omega
      have hHigh :
          (b.toNat + 256 * ofLittleEndian rest) / 256 =
            ofLittleEndian rest := by
        omega
      simp only [ofLittleEndian, List.length_cons,
        littleEndian, hLow, hHigh, ih]

/- What is split off in front makes up the whole. -/
theorem eq_append_of_splitFront
    {α : Type}
    {n : Nat}
    {xs front rest : List α}
    (hSplit : splitFront n xs = some (front, rest)) :
    xs = front ++ rest ∧ front.length = n := by
  unfold splitFront at hSplit
  split at hSplit
  next hLong =>
      cases hSplit
      refine ⟨(List.take_append_drop n xs).symm, ?_⟩
      rw [List.length_take, Nat.min_eq_left hLong]
  next => cases hSplit

namespace Codec

variable {α β : Type}

------------------------------------------------------------
-- Canonical formats
------------------------------------------------------------

/- A reader that takes nothing but what the writer writes. -/
structure Canonical
    (c : Codec α) : Prop where
  eq_append :
    ∀ {bytes a rest}, c.decode bytes = some (a, rest) →
      bytes = c.encode a ++ rest

namespace Canonical

variable {c : Codec α} {d : Codec β}

/-
  A view of values is canonical when only views of values are
  taken back.
-/
theorem refine
    (hCanonical : c.Canonical)
    {view : β → α}
    {make? : α → Option β}
    (hView : ∀ a b, make? a = some b → view b = a) :
    (c.refine view make?).Canonical where
  eq_append := by
    intro bytes b rest hRead
    simp only [Codec.refine] at hRead ⊢
    cases hFirst : c.decode bytes with
    | none => simp [hFirst] at hRead
    | some read =>
        rcases read with ⟨a, left⟩
        simp only [hFirst, Option.map_eq_some_iff,
          Prod.mk.injEq] at hRead
        rcases hRead with ⟨b', hMade, rfl, rfl⟩
        rw [hView a b' hMade]
        exact hCanonical.eq_append hFirst

theorem rename
    (hCanonical : c.Canonical)
    {view : β → α}
    {make : α → β}
    (hView : ∀ a, view (make a) = a) :
    (c.rename view make).Canonical :=
  hCanonical.refine (fun a b hMade => by
    cases hMade
    exact hView a)

/- Two canonical formats in a row are canonical. -/
theorem pair
    (hFirst : c.Canonical)
    (hSecond : d.Canonical) :
    (c.pair d).Canonical where
  eq_append := by
    intro bytes p rest hRead
    simp only [Codec.pair] at hRead ⊢
    cases hFront : c.decode bytes with
    | none => simp [hFront] at hRead
    | some read =>
        rcases read with ⟨a, left⟩
        simp only [hFront] at hRead
        cases hBack : d.decode left with
        | none => simp [hBack] at hRead
        | some read =>
            rcases read with ⟨b, left'⟩
            simp only [hBack] at hRead
            cases hRead
            rw [List.append_assoc,
              ← hSecond.eq_append hBack]
            exact hFirst.eq_append hFront

end Canonical

------------------------------------------------------------
-- Basic formats
------------------------------------------------------------

theorem canonical_byte : byte.Canonical where
  eq_append := by
    intro bytes b rest hRead
    cases bytes with
    | nil => cases hRead
    | cons first others =>
        cases hRead
        rfl

theorem canonical_fixed
    {n : Nat} :
    (fixed n).Canonical where
  eq_append := by
    intro bytes v rest hRead
    simp only [fixed] at hRead ⊢
    split at hRead
    next hLong =>
        cases hRead
        exact (List.take_append_drop n bytes).symm
    next => cases hRead

theorem canonical_word32 : word32.Canonical where
  eq_append := by
    intro bytes w rest hRead
    simp only [word32, Option.map_eq_some_iff,
      Prod.mk.injEq] at hRead ⊢
    rcases hRead with ⟨⟨front, rest⟩, hSplit, rfl, rfl⟩
    rcases eq_append_of_splitFront hSplit with ⟨hWhole, hFour⟩
    have hFits : ofLittleEndian front < UInt32.size := by
      have hBound := ofLittleEndian_lt front
      rwa [hFour] at hBound
    rw [UInt32.toNat_ofNat_of_lt' hFits, ← hFour,
      littleEndian_ofLittleEndian]
    exact hWhole

theorem canonical_word64 : word64.Canonical where
  eq_append := by
    intro bytes w rest hRead
    simp only [word64, Option.map_eq_some_iff,
      Prod.mk.injEq] at hRead ⊢
    rcases hRead with ⟨⟨front, rest⟩, hSplit, rfl, rfl⟩
    rcases eq_append_of_splitFront hSplit with ⟨hWhole, hEight⟩
    have hFits : ofLittleEndian front < UInt64.size := by
      have hBound := ofLittleEndian_lt front
      rwa [hEight] at hBound
    rw [UInt64.toNat_ofNat_of_lt' hFits, ← hEight,
      littleEndian_ofLittleEndian]
    exact hWhole

/- No byte but zero and one is a truth value. -/
theorem canonical_bool : bool.Canonical :=
  canonical_byte.refine (by
    intro n b hMade
    split at hMade
    next hZero =>
        cases hMade
        exact hZero.symm
    next =>
        split at hMade
        next hOne =>
            cases hMade
            exact hOne.symm
        next => cases hMade)

/- An index is that of one value only. -/
theorem canonical_enumeration
    [DecidableEq α]
    {values : List α}
    (hDistinct : values.Nodup) :
    (enumeration values).Canonical := by
  refine canonical_word32.refine (fun i a hMade => ?_)
  rcases List.getElem?_eq_some_iff.1 hMade with ⟨hInside, hValue⟩
  rw [← hValue, hDistinct.idxOf_getElem, UInt32.ofNat_toNat]

------------------------------------------------------------
-- Options, lists and text
------------------------------------------------------------

theorem Canonical.option
    {c : Codec α}
    (hCanonical : c.Canonical) :
    c.option.Canonical where
  eq_append := by
    intro bytes a rest hRead
    simp only [Codec.option] at hRead ⊢
    cases hFlag : bool.decode bytes with
    | none => simp [hFlag] at hRead
    | some read =>
        rcases read with ⟨flag, left⟩
        have hFront := canonical_bool.eq_append hFlag
        cases flag with
        | false =>
            simp only [hFlag] at hRead
            cases hRead
            exact hFront
        | true =>
            simp only [hFlag, Option.map_eq_some_iff,
              Prod.mk.injEq] at hRead
            rcases hRead with ⟨⟨v, left'⟩, hValue, rfl, rfl⟩
            simp only
            rw [List.append_assoc,
              ← hCanonical.eq_append hValue]
            exact hFront

/- Items that are read one after another were written so. -/
theorem Canonical.eq_append_of_readMany
    {c : Codec α}
    (hCanonical : c.Canonical)
    {n : Nat}
    {bytes rest : List UInt8}
    {xs : List α}
    (hRead : readMany c n bytes = some (xs, rest)) :
    bytes = xs.flatMap c.encode ++ rest ∧ xs.length = n := by
  induction n generalizing bytes xs with
  | zero =>
      cases hRead
      exact ⟨rfl, rfl⟩
  | succ n ih =>
      rw [readMany] at hRead
      cases hFirst : c.decode bytes with
      | none => simp [hFirst] at hRead
      | some read =>
          rcases read with ⟨a, left⟩
          simp only [hFirst, Option.map_eq_some_iff,
            Prod.mk.injEq] at hRead
          rcases hRead with ⟨⟨others, rest⟩, hOthers, rfl, rfl⟩
          rcases ih hOthers with ⟨hBytes, hCount⟩
          refine ⟨?_, congrArg (· + 1) hCount⟩
          rw [List.flatMap_cons, List.append_assoc, ← hBytes]
          exact hCanonical.eq_append hFirst

/- A count that was read is written again. -/
theorem eq_append_of_count
    {bytes rest : List UInt8}
    {w : UInt64}
    (hRead : word64.decode bytes = some (w, rest)) :
    bytes = count w.toNat ++ rest := by
  rw [count, UInt64.ofNat_toNat]
  exact canonical_word64.eq_append hRead

theorem Canonical.list
    {c : Codec α}
    (hCanonical : c.Canonical) :
    c.list.Canonical where
  eq_append := by
    intro bytes xs rest hRead
    simp only [Codec.list] at hRead ⊢
    cases hCount : word64.decode bytes with
    | none => simp [hCount] at hRead
    | some read =>
        rcases read with ⟨w, left⟩
        simp only [hCount] at hRead
        rcases hCanonical.eq_append_of_readMany hRead with
          ⟨hItems, hLength⟩
        rw [hLength, List.append_assoc, ← hItems]
        exact eq_append_of_count hCount

/- The bytes of a text that was read from bytes. -/
theorem toUTF8_of_fromUTF8?
    {bytes : ByteArray}
    {s : String}
    (hRead : String.fromUTF8? bytes = some s) :
    s.toUTF8 = bytes := by
  unfold String.fromUTF8? at hRead
  split at hRead
  next =>
      cases hRead
      rfl
  next => cases hRead

theorem canonical_text : text.Canonical where
  eq_append := by
    intro bytes s rest hRead
    simp only [text] at hRead ⊢
    cases hCount : word64.decode bytes with
    | none => simp [hCount] at hRead
    | some read =>
        rcases read with ⟨w, left⟩
        simp only [hCount] at hRead
        cases hSplit : splitFront w.toNat left with
        | none => simp [hSplit] at hRead
        | some split =>
            rcases split with ⟨front, others⟩
            simp only [hSplit, Option.map_eq_some_iff,
              Prod.mk.injEq] at hRead
            rcases hRead with ⟨s', hText, rfl, rfl⟩
            rcases eq_append_of_splitFront hSplit with
              ⟨hLeft, hLength⟩
            have hBytes := toUTF8_of_fromUTF8? hText
            have hFront : s'.toUTF8.toList = front := by
              rw [hBytes, byteArray_toList]
            have hSize : s'.utf8ByteSize = w.toNat := by
              rw [← hLength, ← hFront, byteArray_toList]
              rfl
            rw [hFront, hSize, List.append_assoc, ← hLeft]
            exact eq_append_of_count hCount

------------------------------------------------------------
-- Parts of a written form
------------------------------------------------------------

/- What a value was written as shows where it ends. -/
theorem Lawful.append_inj
    {c : Codec α}
    (hLawful : c.Lawful)
    {a b : α}
    {rest rest' : List UInt8}
    (hShort : (c.encode a).length < memoryLimit)
    (hShort' : (c.encode b).length < memoryLimit)
    (hSame : c.encode a ++ rest = c.encode b ++ rest') :
    a = b ∧ rest = rest' := by
  have hLeft := hLawful.decode_encode a rest hShort
  have hRight := hLawful.decode_encode b rest' hShort'
  rw [hSame, hRight] at hLeft
  rcases Prod.mk.inj (Option.some.inj hLeft) with ⟨hValue, hRest⟩
  exact ⟨hValue.symm, hRest.symm⟩

/- Nothing is read from a proper part of a written form. -/
theorem Lawful.decode_eq_none_of_prefix
    {c : Codec α}
    (hLawful : c.Lawful)
    (hCanonical : c.Canonical)
    {a : α}
    {part : List UInt8}
    (hShort : (c.encode a).length < memoryLimit)
    (hPart : part <+: c.encode a)
    (hProper : part ≠ c.encode a) :
    c.decode part = none := by
  cases hRead : c.decode part with
  | none => rfl
  | some read =>
      rcases read with ⟨b, rest⟩
      rcases hPart with ⟨back, hWhole⟩
      have hFront := hCanonical.eq_append hRead
      -- Both readings are of one byte string, so `b` is `a`.
      have hForm :
          c.encode a ++ [] = c.encode b ++ (rest ++ back) := by
        rw [List.append_nil, ← hWhole, hFront,
          List.append_assoc]
      have hLength := congrArg List.length hForm
      simp only [List.length_append, List.length_nil]
        at hLength
      rcases hLawful.append_inj hShort (by omega) hForm with
        ⟨hSame, hNothing⟩
      have hRest :=
        (List.append_eq_nil_iff.1 hNothing.symm).1
      rw [← hSame, hRest, List.append_nil] at hFront
      exact absurd hFront hProper

end Codec

end SnapTree
