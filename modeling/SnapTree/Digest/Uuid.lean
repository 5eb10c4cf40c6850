import SnapTree.Digest.Hex
import SnapTree.Digest.Sha1

/-
  This file defines universally unique identifiers: sixteen
  bytes with an order, a hyphenated text form, and derivation
  from a name within a namespace (version 5).

  Key definitions include:
    * `Uuid`
    * `Uuid.toString`
    * `Uuid.parse?`
    * `Uuid.ofName`
    * `Uuid.urlNamespace`
-/

namespace SnapTree

/- A universally unique identifier. -/
structure Uuid where
  bytes : Vector UInt8 16
deriving DecidableEq

namespace Uuid

/- The sixteen bytes of an identifier. -/
def toList
    (u : Uuid) : List UInt8 :=
  u.bytes.toList

/- The identifier made of zeros only. -/
def nil : Uuid :=
  ⟨Vector.replicate 16 0⟩

instance : Inhabited Uuid :=
  ⟨nil⟩

/- The identifier with the given bytes, filled up with zeros. -/
def ofBytes
    (bytes : List UInt8) : Uuid :=
  ⟨Vector.ofFn fun i : Fin 16 => bytes.getD i 0⟩

------------------------------------------------------------
-- Order
------------------------------------------------------------

/- Identifiers are ordered as their bytes are, from the left. -/
instance : Ord Uuid :=
  ⟨fun a b => compare a.bytes.toList b.bytes.toList⟩

instance : Std.TransOrd Uuid :=
  inferInstanceAs
    (Std.TransCmp (compareOn (fun u : Uuid => u.bytes.toList)))

instance : Std.LawfulEqOrd Uuid where
  eq_of_compare := fun {a b} h => by
    have same : a.bytes = b.bytes :=
      Vector.toList_inj.1 (Std.compare_eq_iff_eq.1 h)
    cases a
    cases b
    exact congrArg Uuid.mk same

------------------------------------------------------------
-- Text
------------------------------------------------------------

/- Lowercase digits in groups of 8, 4, 4, 4 and 12. -/
protected def toString
    (u : Uuid) : String :=
  let digits := Hex.ofBytes u.toList
  let group (start size : Nat) : List Char :=
    (digits.drop start).take size
  String.ofList
    (group 0 8 ++ '-' :: group 8 4 ++ '-' :: group 12 4 ++
      '-' :: group 16 4 ++ '-' :: group 20 12)

instance : ToString Uuid :=
  ⟨Uuid.toString⟩

/- Read 32 digits of either case, wherever hyphens stand. -/
def parse?
    (text : String) : Option Uuid :=
  let digits := text.toUTF8.toList.filter (· != 45)
  match Hex.decode digits with
  | .error _ => none
  | .ok bytes =>
      if digits.length = 32 then some (ofBytes bytes) else none

------------------------------------------------------------
-- Names
------------------------------------------------------------

/-
  The identifier of a name within a namespace: the first
  sixteen bytes of a hash of both, marked as version 5.
-/
def ofName
    (space : Uuid)
    (name : String) : Uuid :=
  let bytes := Sha1.hash (space.toList ++ name.toUTF8.toList)
  let bytes := bytes.modify 6 (fun b => (b &&& 0x0f) ||| 0x50)
  ofBytes (bytes.modify 8 (fun b => (b &&& 0x3f) ||| 0x80))

/- The namespace of names that are locations. -/
def urlNamespace : Uuid :=
  ofBytes
    [0x6b, 0xa7, 0xb8, 0x11, 0x9d, 0xad, 0x11, 0xd1,
     0x80, 0xb4, 0x00, 0xc0, 0x4f, 0xd4, 0x30, 0xc8]

end Uuid

end SnapTree
