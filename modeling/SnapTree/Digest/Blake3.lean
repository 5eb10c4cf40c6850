/-
  This file defines the BLAKE3 hash of a byte string, cut off
  at 32 bytes.  Everything is a total function on lists and
  plain structures of words, so closed instances evaluate.

  Key definitions include:
    * `Blake3.Quad`
    * `Blake3.compress`
    * `Blake3.Output`
    * `Blake3.chunk`
    * `Blake3.subtree`
    * `Blake3.hash`
-/

namespace SnapTree

namespace Blake3

/- A machine word of the hash. -/
abbrev Word : Type :=
  UInt32

/- Four words. -/
structure Quad where
  a : Word
  b : Word
  c : Word
  d : Word

/- A chaining value: eight words. -/
structure Chain where
  low : Quad
  high : Quad

/- Sixteen words: a message, or the columns of a state. -/
structure Block where
  p : Quad
  q : Quad
  r : Quad
  s : Quad

------------------------------------------------------------
-- Compression
------------------------------------------------------------

/- The chaining value that every chunk starts from. -/
def start : Chain :=
  ⟨⟨0x6A09E667, 0xBB67AE85, 0x3C6EF372, 0xA54FF53A⟩,
    ⟨0x510E527F, 0x9B05688C, 0x1F83D9AB, 0x5BE0CD19⟩⟩

/- Rotate a word to the right by `n` bits, `0 < n < 32`. -/
def rotateRight
    (w n : Word) : Word :=
  (w >>> n) ||| (w <<< (32 - n))

/- Mix two message words into four words of the state. -/
def mix
    (v : Quad)
    (x y : Word) : Quad :=
  match v with
  | ⟨a, b, c, d⟩ =>
      let a := a + b + x
      let d := rotateRight (d ^^^ a) 16
      let c := c + d
      let b := rotateRight (b ^^^ c) 12
      let a := a + b + y
      let d := rotateRight (d ^^^ a) 8
      let c := c + d
      let b := rotateRight (b ^^^ c) 7
      ⟨a, b, c, d⟩

/- One round: the four columns, then the four diagonals. -/
def round
    (v m : Block) : Block :=
  let p := mix v.p m.p.a m.p.b
  let q := mix v.q m.p.c m.p.d
  let r := mix v.r m.q.a m.q.b
  let s := mix v.s m.q.c m.q.d
  let p' := mix ⟨p.a, q.b, r.c, s.d⟩ m.r.a m.r.b
  let q' := mix ⟨q.a, r.b, s.c, p.d⟩ m.r.c m.r.d
  let r' := mix ⟨r.a, s.b, p.c, q.d⟩ m.s.a m.s.b
  let s' := mix ⟨s.a, p.b, q.c, r.d⟩ m.s.c m.s.d
  ⟨⟨p'.a, s'.b, r'.c, q'.d⟩, ⟨q'.a, p'.b, s'.c, r'.d⟩,
    ⟨r'.a, q'.b, p'.c, s'.d⟩, ⟨s'.a, r'.b, q'.c, p'.d⟩⟩

/- The order in which the next round reads the message. -/
def permute
    (m : Block) : Block :=
  ⟨⟨m.p.c, m.q.c, m.p.d, m.r.c⟩, ⟨m.q.d, m.p.a, m.q.a, m.s.b⟩,
    ⟨m.p.b, m.r.d, m.s.a, m.q.b⟩, ⟨m.r.b, m.s.c, m.s.d, m.r.a⟩⟩

/- Run rounds, permuting the message between them. -/
def rounds : Nat → Block → Block → Block
  | 0, v, _ => v
  | n + 1, v, m => rounds n (round v m) (permute m)

/- Compress one block into a chaining value. -/
def compress
    (chain : Chain)
    (block : Block)
    (counter : UInt64)
    (length flags : Word) : Chain :=
  let k := start.low
  let v :=
    rounds 7
      ⟨⟨chain.low.a, chain.high.a, k.a, counter.toUInt32⟩,
        ⟨chain.low.b, chain.high.b, k.b,
          (counter >>> 32).toUInt32⟩,
        ⟨chain.low.c, chain.high.c, k.c, length⟩,
        ⟨chain.low.d, chain.high.d, k.d, flags⟩⟩
      block
  ⟨⟨v.p.a ^^^ v.p.c, v.q.a ^^^ v.q.c,
      v.r.a ^^^ v.r.c, v.s.a ^^^ v.s.c⟩,
    ⟨v.p.b ^^^ v.p.d, v.q.b ^^^ v.q.d,
      v.r.b ^^^ v.r.d, v.s.b ^^^ v.s.d⟩⟩

------------------------------------------------------------
-- Words and bytes
------------------------------------------------------------

/- The word of up to four bytes, the least byte first. -/
def wordOfBytes
    (bytes : List UInt8) : Word :=
  match bytes with
  | [] => 0
  | [a] => a.toUInt32
  | [a, b] => a.toUInt32 ||| (b.toUInt32 <<< 8)
  | [a, b, c] =>
      a.toUInt32 ||| (b.toUInt32 <<< 8) |||
        (c.toUInt32 <<< 16)
  | a :: b :: c :: d :: _ =>
      a.toUInt32 ||| (b.toUInt32 <<< 8) |||
        (c.toUInt32 <<< 16) ||| (d.toUInt32 <<< 24)

/- The words of up to sixteen bytes, filled up with zeros. -/
def quadOfBytes
    (bytes : List UInt8) : Quad :=
  let second := bytes.drop 4
  let third := second.drop 4
  ⟨wordOfBytes bytes, wordOfBytes second, wordOfBytes third,
    wordOfBytes (third.drop 4)⟩

/- The words of up to 64 bytes, filled up with zeros. -/
def blockOfBytes
    (bytes : List UInt8) : Block :=
  let second := bytes.drop 16
  let third := second.drop 16
  ⟨quadOfBytes bytes, quadOfBytes second, quadOfBytes third,
    quadOfBytes (third.drop 16)⟩

/- The four bytes of a word, the least byte first. -/
def bytesOfWord
    (w : Word) : List UInt8 :=
  [w.toUInt8, (w >>> 8).toUInt8, (w >>> 16).toUInt8,
    (w >>> 24).toUInt8]

/- The bytes of four words. -/
def bytesOfQuad
    (v : Quad) : List UInt8 :=
  bytesOfWord v.a ++ bytesOfWord v.b ++ bytesOfWord v.c ++
    bytesOfWord v.d

/- The bytes of a chaining value. -/
def bytesOfChain
    (chain : Chain) : Vector UInt8 32 :=
  ⟨(bytesOfQuad chain.low ++ bytesOfQuad chain.high).toArray,
    rfl⟩

------------------------------------------------------------
-- Chunks and the tree over them
------------------------------------------------------------

/- The flags that mark where a block stands. -/
def chunkStart : Word := 1
def chunkEnd : Word := 2
def parent : Word := 4
def root : Word := 8

/-
  The last compression of a chunk or of a parent node, not
  yet carried out: at the top of the tree it runs with the
  root flag, everywhere else without.
-/
structure Output where
  chain : Chain
  block : Block
  counter : UInt64
  length : Word
  flags : Word

namespace Output

/- The chaining value handed to the parent node. -/
def chainingValue
    (o : Output) : Chain :=
  compress o.chain o.block o.counter o.length o.flags

/- The first 32 bytes of output at the root. -/
def rootValue
    (o : Output) : Chain :=
  compress o.chain o.block 0 o.length (o.flags ||| root)

end Output

/- So many pieces of `n` items that a list starts with. -/
def takePieces
    {α : Type}
    (n : Nat) : Nat → List α → List (List α)
  | 0, _ => []
  | count + 1, xs =>
      xs.take n :: takePieces n count (xs.drop n)

/- The pieces of `n` items that a list consists of. -/
def pieces
    {α : Type}
    (n : Nat)
    (xs : List α) : List (List α) :=
  takePieces n ((xs.length + n - 1) / n) xs

/- Run through the blocks of a chunk and stop before the last. -/
def blocks
    (counter : UInt64) : Chain → Word → List (List UInt8) → Output
  | chain, flag, [] =>
      ⟨chain, blockOfBytes [], counter, 0, flag ||| chunkEnd⟩
  | chain, flag, [b] =>
      ⟨chain, blockOfBytes b, counter, UInt32.ofNat b.length,
        flag ||| chunkEnd⟩
  | chain, flag, b :: b' :: rest =>
      blocks counter
        (compress chain (blockOfBytes b) counter 64 flag)
        0 (b' :: rest)

/- A chunk of at most 1024 bytes. -/
def chunk
    (counter : UInt64)
    (bytes : List UInt8) : Output :=
  blocks counter start chunkStart (pieces 64 bytes)

/- A parent node over two chaining values. -/
def parentOf
    (left right : Chain) : Output :=
  ⟨start, ⟨left.low, left.high, right.low, right.high⟩,
    0, 64, parent⟩

/-
  The tree over a list of chunks, of height at most `height`.
  A left subtree is always full: it holds the largest power
  of two of chunks that leaves some for the right.
-/
def subtree : Nat → UInt64 → List (List UInt8) → Output
  | 0, counter, chunks =>
      chunk counter (chunks.headD [])
  | height + 1, counter, chunks =>
      if chunks.length ≤ 2 ^ height then
        subtree height counter chunks
      else
        parentOf
          (subtree height counter
            (chunks.take (2 ^ height))).chainingValue
          (subtree height (counter + UInt64.ofNat (2 ^ height))
            (chunks.drop (2 ^ height))).chainingValue

/- The hash of a byte string. -/
def hash
    (bytes : List UInt8) : Vector UInt8 32 :=
  let chunks := pieces 1024 bytes
  bytesOfChain
    (subtree (chunks.length.log2 + 1) 0 chunks).rootValue

end Blake3

end SnapTree
