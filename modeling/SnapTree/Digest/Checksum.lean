import SnapTree.Digest.Blake3
import SnapTree.Digest.Hex

/-
  This file defines checksums: the 32-byte names of content,
  their order, and their text form of 64 hexadecimal digits.

  Key definitions include:
    * `Checksum`
    * `Checksum.null`
    * `Checksum.ofContent`
    * `Checksum.toHex`
    * `Checksum.short`
    * `Checksum.parse`
    * `Checksum.ParseError.message`
-/

namespace SnapTree

/- The name of a piece of content: the hash of its bytes. -/
structure Checksum where
  bytes : Vector UInt8 32
deriving DecidableEq

namespace Checksum

/- The mark for a value that is absent. -/
def null : Checksum :=
  ⟨Vector.replicate 32 0⟩

/- Whether a checksum is the mark for an absent value. -/
def isNull
    (c : Checksum) : Bool :=
  c == null

/- The checksum of a byte string. -/
def ofContent
    (bytes : List UInt8) : Checksum :=
  ⟨Blake3.hash bytes⟩

/- The 32 bytes of a checksum. -/
def toList
    (c : Checksum) : List UInt8 :=
  c.bytes.toList

instance : Inhabited Checksum :=
  ⟨null⟩

------------------------------------------------------------
-- Order
------------------------------------------------------------

/- Checksums are ordered as their bytes are, from the left. -/
instance : Ord Checksum :=
  ⟨fun a b => compare a.toList b.toList⟩

instance : Std.TransOrd Checksum :=
  inferInstanceAs (Std.TransCmp (compareOn Checksum.toList))

instance : Std.LawfulEqOrd Checksum where
  eq_of_compare := fun {a b} h => by
    have same : a.bytes = b.bytes :=
      Vector.toList_inj.1 (Std.compare_eq_iff_eq.1 h)
    cases a
    cases b
    exact congrArg Checksum.mk same

------------------------------------------------------------
-- Text
------------------------------------------------------------

/- The 64 lowercase digits of a checksum. -/
def toHex
    (c : Checksum) : String :=
  String.ofList (Hex.ofBytes c.toList)

instance : ToString Checksum :=
  ⟨toHex⟩

/- The first twelve digits, enough to tell checksums apart. -/
def short
    (c : Checksum) : String :=
  String.ofList ((Hex.ofBytes c.toList).take 12)

/- Why a text is no checksum. -/
inductive ParseError where
  | length (bytes : Nat)
  | digit (text : String) (bad : Hex.BadDigit)
deriving DecidableEq

/-
  Read the text form.  The text must be 64 bytes long, and
  the first byte that is no digit is reported.
-/
def parse
    (text : String) : Except ParseError Checksum :=
  if text.utf8ByteSize = 64 then
    match Hex.decode text.toUTF8.toList with
    | .error bad => .error (.digit text bad)
    | .ok bytes =>
        if h : bytes.toArray.size = 32 then
          .ok ⟨⟨bytes.toArray, h⟩⟩
        else
          .error (.length text.utf8ByteSize)
  else
    .error (.length text.utf8ByteSize)

namespace ParseError

/- The digits of a number in base sixteen, none for zero. -/
def hexDigits
    (n : Nat) : List Char :=
  if n < 16 then [Hex.digit n]
  else [Hex.digit (n / 16), Hex.digit (n % 16)]

/- The single quotation mark. -/
def quote : Char :=
  Char.ofNat 39

/-
  A byte read as a Latin-1 character between quotes, with
  escapes for quotes, backslashes and control characters.
-/
def quoted
    (b : UInt8) : String :=
  let n := b.toNat
  let body : List Char :=
    if n = 0 then ['\\', '0']
    else if n = 9 then ['\\', 't']
    else if n = 10 then ['\\', 'n']
    else if n = 13 then ['\\', 'r']
    else if n = 39 then ['\\', quote]
    else if n = 92 then ['\\', '\\']
    else if n < 32 ∨ n = 127 then
      ['\\', 'u', '\x7b'] ++ hexDigits n ++ ['\x7d']
    else [Char.ofNat n]
  String.ofList ([quote] ++ body ++ [quote])

/- The text of a parse error. -/
def message : ParseError → String
  | .length n =>
      s!"invalid checksum length: expected 64 characters, got {n}"
  | .digit text bad =>
      "invalid checksum '" ++ text ++ "': Invalid character " ++
        quoted bad.found ++ s!" at position {bad.position}"

end ParseError

end Checksum

end SnapTree
