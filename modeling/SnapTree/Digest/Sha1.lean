/-
  This file defines the SHA-1 hash of a byte string.  It names
  things by their content; nothing relies on it to resist
  forgery.

  Key definitions include:
    * `Sha1.padded`
    * `Sha1.block`
    * `Sha1.hash`
-/

namespace SnapTree

namespace Sha1

/- A machine word of the hash. -/
abbrev Word : Type :=
  UInt32

/- The running state: five words. -/
structure State where
  a : Word
  b : Word
  c : Word
  d : Word
  e : Word

/- The state before the first block. -/
def start : State :=
  ⟨0x67452301, 0xEFCDAB89, 0x98BADCFE, 0x10325476, 0xC3D2E1F0⟩

/- Rotate a word to the left by `n` bits, `0 < n < 32`. -/
def rotateLeft
    (w n : Word) : Word :=
  (w <<< n) ||| (w >>> (32 - n))

------------------------------------------------------------
-- Padding
------------------------------------------------------------

/- The big-endian bytes of a 64-bit length. -/
def lengthBytes
    (n : UInt64) : List UInt8 :=
  (List.range 8).map
    (fun i => (n >>> UInt64.ofNat (8 * (7 - i))).toUInt8)

/-
  The message, a one bit, zeros up to a multiple of 64 bytes
  less eight, and the length in bits.
-/
def padded
    (bytes : List UInt8) : List UInt8 :=
  bytes ++ 0x80 ::
    List.replicate ((119 - bytes.length % 64) % 64) 0 ++
      lengthBytes (UInt64.ofNat (8 * bytes.length))

/- The big-endian words of a message. -/
def words : List UInt8 → List Word
  | p :: q :: r :: s :: rest =>
      ((p.toUInt32 <<< 24) ||| (q.toUInt32 <<< 16) |||
        (r.toUInt32 <<< 8) ||| s.toUInt32) :: words rest
  | _ => []

------------------------------------------------------------
-- Blocks
------------------------------------------------------------

/-
  Extend a schedule, newest word first, by `n` words: each is
  the rotated sum of the words 3, 8, 14 and 16 places back.
-/
def extend : Nat → List Word → List Word
  | 0, w => w
  | n + 1, w =>
      extend n
        (rotateLeft
          (w.getD 2 0 ^^^ w.getD 7 0 ^^^
            w.getD 13 0 ^^^ w.getD 15 0) 1 :: w)

/- The mixing function and constant of step `i`. -/
def step
    (i : Nat)
    (s : State)
    (word : Word) : State :=
  let (f, k) : Word × Word :=
    if i < 20 then
      ((s.b &&& s.c) ||| ((~~~ s.b) &&& s.d), 0x5A827999)
    else if i < 40 then
      (s.b ^^^ s.c ^^^ s.d, 0x6ED9EBA1)
    else if i < 60 then
      ((s.b &&& s.c) ||| (s.b &&& s.d) ||| (s.c &&& s.d),
        0x8F1BBCDC)
    else
      (s.b ^^^ s.c ^^^ s.d, 0xCA62C1D6)
  ⟨rotateLeft s.a 5 + f + s.e + k + word,
    s.a, rotateLeft s.b 30, s.c, s.d⟩

/- Run the steps of a block in order. -/
def steps : Nat → State → List Word → State
  | _, s, [] => s
  | i, s, w :: rest => steps (i + 1) (step i s w) rest

/- Absorb one block of sixteen words. -/
def block
    (s : State)
    (ws : List Word) : State :=
  let t := steps 0 s (extend 64 ws.reverse).reverse
  ⟨s.a + t.a, s.b + t.b, s.c + t.c, s.d + t.d, s.e + t.e⟩

/- Absorb the first `n` blocks of a message. -/
def absorb : Nat → State → List Word → State
  | 0, s, _ => s
  | n + 1, s, ws => absorb n (block s (ws.take 16)) (ws.drop 16)

/- The bytes of a word, most significant first. -/
def bytesOfWord
    (w : Word) : List UInt8 :=
  [(w >>> 24).toUInt8, (w >>> 16).toUInt8,
    (w >>> 8).toUInt8, w.toUInt8]

/- The 20-byte hash of a byte string. -/
def hash
    (bytes : List UInt8) : List UInt8 :=
  let ws := words (padded bytes)
  let s := absorb (ws.length / 16) start ws
  [s.a, s.b, s.c, s.d, s.e].flatMap bytesOfWord

end Sha1

end SnapTree
