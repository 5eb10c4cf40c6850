import SnapTree.Proofs.Storage.Directory
import SnapTree.Storage.Frame

/-
  This file proves that the content of a frame is read back as
  it was written, so the program's compression loses nothing.

  Key theorems include:
    * `Frame.readBlocks_writeBlocks`
    * `Frame.decode?_encode`
    * `Frame.isLossless`
-/

namespace SnapTree

namespace Frame

@[simp]
theorem length_blockHeader
    (last : Bool)
    (length : Nat) :
    (blockHeader last length).length = 3 := by
  unfold blockHeader
  rw [length_littleEndian]

/- The header of a block says how long it is. -/
theorem ofLittleEndian_blockHeader
    {length : Nat}
    (hFits : length ≤ blockSize)
    (last : Bool) :
    ofLittleEndian (blockHeader last length) =
      8 * length + if last then 1 else 0 := by
  unfold blockSize at hFits
  unfold blockHeader
  apply ofLittleEndian_littleEndian
  split <;> omega

/- A block that was written comes off the front. -/
theorem readBlocks_block
    {block : List UInt8}
    (hFits : block.length ≤ blockSize)
    (last : Bool)
    (rest : List UInt8)
    (n : Nat) :
    readBlocks (n + 1)
        (blockHeader last block.length ++ block ++ rest) =
      if last then if rest = [] then some block else none
      else (readBlocks n rest).map (block ++ ·) := by
  have hHeader :
      splitFront 3
          (blockHeader last block.length ++ block ++ rest) =
        some (blockHeader last block.length, block ++ rest) := by
    rw [List.append_assoc, ← length_blockHeader last block.length]
    exact splitFront_append _ _
  rw [readBlocks, hHeader]
  dsimp only
  rw [ofLittleEndian_blockHeader hFits]
  cases last with
  | true =>
      have hPlain : (8 * block.length + 1) / 2 % 4 = 0 := by omega
      have hLength : (8 * block.length + 1) / 8 = block.length := by
        omega
      have hLast : (8 * block.length + 1) % 2 = 1 := by omega
      simp [hPlain, hLength, hLast, splitFront_append]
  | false =>
      have hPlain : 8 * block.length / 2 % 4 = 0 := by omega
      have hLength : 8 * block.length / 8 = block.length := by
        omega
      have hMore : 8 * block.length % 2 ≠ 1 := by omega
      simp [hPlain, hLength, hMore, splitFront_append]

/-
  Full blocks and a last one are read back, if as many are
  looked for.
-/
theorem readBlocks_writeBlocks
    {full : Nat}
    {bytes : List UInt8}
    (hFull : full * blockSize ≤ bytes.length)
    (hRest : bytes.length < (full + 1) * blockSize)
    {n : Nat}
    (hEnough : full < n) :
    readBlocks n (writeBlocks full bytes) = some bytes := by
  induction full generalizing bytes n with
  | zero =>
      rcases Nat.exists_eq_add_of_lt hEnough with ⟨m, rfl⟩
      have hFits : bytes.length ≤ blockSize := by omega
      have hBlock := readBlocks_block hFits true [] (0 + m)
      rw [List.append_nil] at hBlock
      unfold writeBlocks
      rw [hBlock]
      rfl
  | succ full ih =>
      rcases Nat.exists_eq_add_of_lt hEnough with ⟨m, rfl⟩
      have hTake : (bytes.take blockSize).length = blockSize := by
        rw [List.length_take]
        rw [Nat.succ_mul] at hFull
        omega
      have hDrop :
          (bytes.drop blockSize).length =
            bytes.length - blockSize :=
        List.length_drop
      have hBlock :=
        readBlocks_block (Nat.le_of_eq hTake) false
          (writeBlocks full (bytes.drop blockSize))
          (full + 1 + m)
      rw [hTake] at hBlock
      unfold writeBlocks
      rw [Nat.succ_mul] at hFull hRest
      have hTail :
          readBlocks (full + 1 + m)
              (writeBlocks full (bytes.drop blockSize)) =
            some (bytes.drop blockSize) := by
        apply ih
        · omega
        · omega
        · omega
      rw [hBlock, hTail]
      simp

/- There are more bytes in the blocks than there are blocks. -/
theorem lt_length_writeBlocks
    (full : Nat)
    (bytes : List UInt8) :
    full < (writeBlocks full bytes).length := by
  induction full generalizing bytes with
  | zero =>
      simp only [writeBlocks, List.length_append,
        length_blockHeader]
      omega
  | succ full ih =>
      have hRest := ih (bytes.drop blockSize)
      simp only [writeBlocks, List.length_append,
        length_blockHeader]
      omega

/- The content of a frame is read back. -/
theorem decode?_encode
    {bytes : List UInt8}
    (hShort : bytes.length < Codec.memoryLimit) :
    decode? (encode bytes) = some bytes := by
  have hPos : 0 < blockSize := by decide
  have hBlocks :
      readBlocks
          (writeBlocks (bytes.length / blockSize) bytes).length
          (writeBlocks (bytes.length / blockSize) bytes) =
        some bytes := by
    apply readBlocks_writeBlocks
    · exact Nat.div_mul_le_self _ _
    · rw [Nat.mul_comm]
      exact Nat.lt_mul_div_succ _ hPos
    · exact lt_length_writeBlocks _ _
  rcases Codec.decode_count hShort
      (writeBlocks (bytes.length / blockSize) bytes)
    with ⟨w, hCount, hSize⟩
  unfold decode? encode
  rw [List.append_assoc, splitFront_append]
  dsimp only
  rw [if_pos rfl, hCount]
  dsimp only
  rw [hBlocks]
  exact if_pos hSize.symm

theorem isLossless :
    Compression.IsLossless := by
  intro bytes hShort
  simp only [Compression.decode, Compression.encode,
    decode?_encode hShort]

end Frame

end SnapTree
