import SnapTree.Digest.Checksum
import Std.Data.ExtTreeSet

/-
  This file defines a pool of scratch sets of checksums, and
  the difference of two lists of checksums, which is worked
  out in two sets of the pool.

  Key definitions include:
    * `ChecksumSet`
    * `ScratchPool`
    * `ScratchPool.acquire`
    * `ScratchPool.release`
    * `CollectionDiff`
    * `ScratchPool.diff`
-/

namespace SnapTree

/- A set of checksums, listed in ascending order. -/
abbrev ChecksumSet : Type :=
  Std.ExtTreeSet Checksum compare

/- Sets that are ready for use, and how many are in use. -/
structure ScratchPool where
  maxRetained : Nat
  idle : List ChecksumSet
  outstanding : Nat

namespace ScratchPool

/- A pool that keeps at most so many sets for later use. -/
def ofMaxRetained
    (maxRetained : Nat) : ScratchPool :=
  ⟨maxRetained, [], 0⟩

/- The pool that keeps as many sets as is usual. -/
def standard : ScratchPool :=
  ofMaxRetained 32

instance : Inhabited ScratchPool :=
  ⟨standard⟩

/- Take a set out of the pool, or a fresh one. -/
def acquire
    (p : ScratchPool) : ChecksumSet × ScratchPool :=
  match p.idle with
  | [] => (∅, { p with outstanding := p.outstanding + 1 })
  | s :: rest =>
      (s,
        { p with
          idle := rest
          outstanding := p.outstanding + 1 })

/- What is left of a set that was cleared. -/
def cleared
    (_ : ChecksumSet) : ChecksumSet :=
  ∅

/- Give a set back; it is cleared, and kept if there is room. -/
def release
    (p : ScratchPool)
    (s : ChecksumSet) : ScratchPool :=
  { p with
    idle :=
      if p.idle.length < p.maxRetained then cleared s :: p.idle
      else p.idle
    outstanding := p.outstanding - 1 }

end ScratchPool

------------------------------------------------------------
-- Differences
------------------------------------------------------------

/- The members of each of two lists that the other lacks. -/
structure CollectionDiff where
  removedOnly : ChecksumSet
  addedOnly : ChecksumSet

namespace CollectionDiff

/- Whether two lists have the same members. -/
def isEmpty
    (d : CollectionDiff) : Bool :=
  d.removedOnly.isEmpty && d.addedOnly.isEmpty

end CollectionDiff

namespace ScratchPool

/- Add every checksum of a list to a set. -/
def insertAll
    (s : ChecksumSet)
    (cs : List Checksum) : ChecksumSet :=
  cs.foldl (fun s c => s.insert c) s

/- Take every checksum of a list out of a set. -/
def eraseAll
    (s : ChecksumSet)
    (cs : List Checksum) : ChecksumSet :=
  cs.foldl (fun s c => s.erase c) s

/-
  The difference of two lists, in any order and with repeats.
  Its sets are taken out of the pool.
-/
def diff
    (p : ScratchPool)
    (old new : List Checksum) : CollectionDiff × ScratchPool :=
  let (first, p) := p.acquire
  let (second, p) := p.acquire
  (⟨eraseAll (insertAll first old) new,
    eraseAll (insertAll second new) old⟩, p)

/- Give back the two sets of a difference. -/
def releaseDiff
    (p : ScratchPool)
    (d : CollectionDiff) : ScratchPool :=
  (p.release d.removedOnly).release d.addedOnly

end ScratchPool

end SnapTree
