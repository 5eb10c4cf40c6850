/-
  This file defines the hexadecimal text of byte strings: two
  lowercase digits a byte when written, digits of either case
  when read.

  Key definitions include:
    * `Hex.digit`
    * `Hex.ofBytes`
    * `Hex.value?`
    * `Hex.decode`
-/

namespace SnapTree

namespace Hex

------------------------------------------------------------
-- Writing
------------------------------------------------------------

/- The lowercase digit of a number below sixteen. -/
def digit
    (n : Nat) : Char :=
  if n < 10 then Char.ofNat (48 + n) else Char.ofNat (87 + n)

/- The two digits of a byte. -/
def ofByte
    (b : UInt8) : List Char :=
  [digit (b.toNat / 16), digit (b.toNat % 16)]

/- The digits of a byte string. -/
def ofBytes
    (bytes : List UInt8) : List Char :=
  bytes.flatMap ofByte

------------------------------------------------------------
-- Reading
------------------------------------------------------------

/- The value of a byte of text that is a digit. -/
def value?
    (c : UInt8) : Option Nat :=
  let n := c.toNat
  if 48 ≤ n ∧ n ≤ 57 then some (n - 48)
  else if 65 ≤ n ∧ n ≤ 70 then some (n - 55)
  else if 97 ≤ n ∧ n ≤ 102 then some (n - 87)
  else none

/- A byte of text that is no digit, and where it stands. -/
structure BadDigit where
  found : UInt8
  position : Nat
deriving DecidableEq

/-
  Read pairs of digits from the left.  The first byte that is
  no digit is reported with its position, counted from
  `position`; a last byte without a partner is left out.
-/
def decodeAt
    (position : Nat) : List UInt8 → Except BadDigit (List UInt8)
  | high :: low :: rest =>
      match value? high with
      | none => .error ⟨high, position⟩
      | some h =>
          match value? low with
          | none => .error ⟨low, position + 1⟩
          | some l =>
              match decodeAt (position + 2) rest with
              | .error e => .error e
              | .ok bytes => .ok (UInt8.ofNat (16 * h + l) :: bytes)
  | _ => .ok []

/- Read a whole text of digits. -/
def decode
    (text : List UInt8) : Except BadDigit (List UInt8) :=
  decodeAt 0 text

end Hex

end SnapTree
