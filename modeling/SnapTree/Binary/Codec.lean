/-
  This file defines binary formats as pairs of a writer and a
  reader, and the means to build large formats from small
  ones.  A reader takes its value off the front of a byte
  string and returns the rest, so every format delimits
  itself.

  Numbers are little endian and of fixed width, counts and
  lengths are 64-bit numbers, an optional value has a leading
  byte zero or one, and a choice has a leading 32-bit index.

  Key definitions include:
    * `littleEndian`
    * `Codec`
    * `Codec.refine`
    * `Codec.pair`
    * `Codec.option`
    * `Codec.list`
    * `Codec.text`
    * `Codec.enumeration`
-/

namespace SnapTree

------------------------------------------------------------
-- Numbers as bytes
------------------------------------------------------------

/- The `width` low bytes of a number, least byte first. -/
def littleEndian : Nat → Nat → List UInt8
  | 0, _ => []
  | width + 1, n => UInt8.ofNat n :: littleEndian width (n / 256)

/- The number that bytes stand for, least byte first. -/
def ofLittleEndian : List UInt8 → Nat
  | [] => 0
  | b :: rest => b.toNat + 256 * ofLittleEndian rest

/- Split off exactly `n` leading items. -/
def splitFront
    {α : Type}
    (n : Nat)
    (xs : List α) : Option (List α × List α) :=
  if n ≤ xs.length then some (xs.take n, xs.drop n) else none

/- A writer of values and the reader that goes with it. -/
structure Codec (α : Type) where
  encode : α → List UInt8
  decode : List UInt8 → Option (α × List UInt8)

namespace Codec

variable {α β : Type}

------------------------------------------------------------
-- Building formats
------------------------------------------------------------

/-
  A format for `β` through one for `α`: `view` writes a value
  of `β` as one of `α`, and `make?` refuses those values of
  `α` that are not the view of anything.
-/
def refine
    (c : Codec α)
    (view : β → α)
    (make? : α → Option β) : Codec β where
  encode b := c.encode (view b)
  decode bytes :=
    match c.decode bytes with
    | none => none
    | some (a, rest) => (make? a).map (fun b => (b, rest))

/- A format for `β` whose values are those of `α`, renamed. -/
def rename
    (c : Codec α)
    (view : β → α)
    (make : α → β) : Codec β :=
  c.refine view (fun a => some (make a))

/- One value and then another. -/
def pair
    (c : Codec α)
    (d : Codec β) : Codec (α × β) where
  encode p := c.encode p.1 ++ d.encode p.2
  decode bytes :=
    match c.decode bytes with
    | none => none
    | some (a, rest) =>
        match d.decode rest with
        | none => none
        | some (b, rest) => some ((a, b), rest)

------------------------------------------------------------
-- Basic formats
------------------------------------------------------------

/- A byte stands for itself. -/
def byte : Codec UInt8 where
  encode b := [b]
  decode
    | [] => none
    | b :: rest => some (b, rest)

/- Exactly `n` bytes, with nothing said about their number. -/
def fixed
    (n : Nat) : Codec (Vector UInt8 n) where
  encode v := v.toList
  decode bytes :=
    if h : n ≤ bytes.length then
      some
        (⟨(bytes.take n).toArray, by simp [h]⟩, bytes.drop n)
    else none

/- A 32-bit number. -/
def word32 : Codec UInt32 where
  encode w := littleEndian 4 w.toNat
  decode bytes :=
    (splitFront 4 bytes).map
      (fun p => (UInt32.ofNat (ofLittleEndian p.1), p.2))

/- A 64-bit number. -/
def word64 : Codec UInt64 where
  encode w := littleEndian 8 w.toNat
  decode bytes :=
    (splitFront 8 bytes).map
      (fun p => (UInt64.ofNat (ofLittleEndian p.1), p.2))

/- The format of counts and lengths. -/
def count
    (n : Nat) : List UInt8 :=
  word64.encode (UInt64.ofNat n)

/- A truth value is a byte zero or one and no other. -/
def bool : Codec Bool :=
  byte.refine
    (fun b => if b then 1 else 0)
    (fun n =>
      if n = 0 then some false
      else if n = 1 then some true
      else none)

/- One of a fixed list of values, by its index. -/
def enumeration
    [DecidableEq α]
    (values : List α) : Codec α :=
  word32.refine
    (fun a => UInt32.ofNat (values.idxOf a))
    (fun i => values[i.toNat]?)

------------------------------------------------------------
-- Options, lists and text
------------------------------------------------------------

/- An optional value: whether there is one, then the value. -/
def option
    (c : Codec α) : Codec (Option α) where
  encode
    | none => bool.encode false
    | some a => bool.encode true ++ c.encode a
  decode bytes :=
    match bool.decode bytes with
    | none => none
    | some (false, rest) => some (none, rest)
    | some (true, rest) =>
        (c.decode rest).map (fun p => (some p.1, p.2))

/- Read `n` values one after another. -/
def readMany
    (c : Codec α) : Nat → List UInt8 → Option (List α × List UInt8)
  | 0, bytes => some ([], bytes)
  | n + 1, bytes =>
      match c.decode bytes with
      | none => none
      | some (a, rest) =>
          (readMany c n rest).map (fun p => (a :: p.1, p.2))

/- A list: the number of its items, then the items. -/
def list
    (c : Codec α) : Codec (List α) where
  encode xs := count xs.length ++ xs.flatMap c.encode
  decode bytes :=
    match word64.decode bytes with
    | none => none
    | some (n, rest) => readMany c n.toNat rest

/- A text: the number of its UTF-8 bytes, then the bytes. -/
def text : Codec String where
  encode s := count s.utf8ByteSize ++ s.toUTF8.toList
  decode bytes :=
    match word64.decode bytes with
    | none => none
    | some (n, rest) =>
        match splitFront n.toNat rest with
        | none => none
        | some (front, rest) =>
            (String.fromUTF8? ⟨front.toArray⟩).map
              (fun s => (s, rest))

end Codec

end SnapTree
