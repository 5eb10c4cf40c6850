import SnapTree.Binary.Codec
import SnapTree.Storage.DirectoryStore

/-
  This file defines the compression that the program runs
  with: Zstandard frames whose blocks hold their bytes as they
  are.  A frame starts with a magic number and the size of its
  content, and every block says how long it is, so damage
  rarely goes unnoticed.

  Key definitions include:
    * `Frame.encode`
    * `Frame.decode?`
-/

namespace SnapTree

namespace Frame

/- The most bytes that a block of a frame written here holds. -/
def blockSize : Nat :=
  65536

/- The magic number, and the mark of a frame with its size. -/
def opening : List UInt8 :=
  [0x28, 0xb5, 0x2f, 0xfd, 0xe0]

/- The header of a block: is it the last, and its length. -/
def blockHeader
    (last : Bool)
    (length : Nat) : List UInt8 :=
  littleEndian 3 (8 * length + if last then 1 else 0)

/- So many full blocks and one last block with the rest. -/
def writeBlocks : Nat → List UInt8 → List UInt8
  | 0, bytes => blockHeader true bytes.length ++ bytes
  | n + 1, bytes =>
      blockHeader false blockSize ++ bytes.take blockSize ++
        writeBlocks n (bytes.drop blockSize)

/- The frame of a byte string. -/
def encode
    (bytes : List UInt8) : List UInt8 :=
  opening ++ Codec.count bytes.length ++
    writeBlocks (bytes.length / blockSize) bytes

/-
  Read at most `n` blocks.  Nothing may follow the last one,
  and no block may hold anything but bytes as they are.
-/
def readBlocks : Nat → List UInt8 → Option (List UInt8)
  | 0, _ => none
  | n + 1, bytes =>
      match splitFront 3 bytes with
      | none => none
      | some (header, rest) =>
          let header := ofLittleEndian header
          if header / 2 % 4 ≠ 0 then none
          else
            match splitFront (header / 8) rest with
            | none => none
            | some (block, rest) =>
                if header % 2 = 1 then
                  if rest = [] then some block else none
                else (readBlocks n rest).map (block ++ ·)

/- The content of a frame, if it is one. -/
def decode?
    (bytes : List UInt8) : Option (List UInt8) :=
  match splitFront opening.length bytes with
  | none => none
  | some (front, rest) =>
      if front = opening then
        match Codec.word64.decode rest with
        | none => none
        | some (size, rest) =>
            match readBlocks rest.length rest with
            | none => none
            | some content =>
                if content.length = size.toNat then some content
                else none
      else none

instance : Compression where
  encode := encode
  decode bytes :=
    match decode? bytes with
    | some content => .ok content
    | none => .error "Unknown frame descriptor"

end Frame

end SnapTree
