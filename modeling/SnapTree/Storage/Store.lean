import SnapTree.Storage.DirectoryStore
import SnapTree.Storage.MemoryStore

/-
  This file defines stores of either sort, together with the
  file tree that a store in a directory is in.

  Key definitions include:
    * `Store`
    * `Store.fetch`
    * `Store.attempt`
    * `Store.put`
    * `Store.contains`
-/

namespace SnapTree

/- A store in memory, or one in a directory of a file tree. -/
inductive Store where
  | memory (store : MemoryStore)
  | directory (store : DirectoryStore) (files : FileTree)

namespace Store

variable [Compression]

/- The assets held under the given checksums, in that order. -/
def fetch
    (cancelled : Bool)
    (request : List Checksum) :
    Store → Except AssetError (List (Checksum × Asset))
  | memory s => s.fetch cancelled request
  | directory s files => s.fetch files cancelled request

/-
  Put an asset under a checksum, when a disk takes what is
  written as given; the first one put stays.
-/
def attempt
    (w : DiskWrite)
    (c : Checksum)
    (a : Asset) : ExceptT AssetError (StateM Store) Unit := do
  match ← get with
  | memory s => set (memory (s.put c a))
  | directory s files =>
      let (result, files) := (s.put w c a).run files
      set (directory s files)
      match result with
      | .ok () => pure ()
      | .error e => throw e

/- Put an asset under a checksum, when no disk fails. -/
def put
    (c : Checksum)
    (a : Asset) : ExceptT AssetError (StateM Store) Unit :=
  attempt {} c a

/- Whether anything is held under a checksum. -/
def contains
    (c : Checksum) : Store → Bool
  | memory s => (s.get? c).isSome
  | directory s files => files.pathExists (s.objectPath c)

/- The number of assets, which is known of memory only. -/
def size? : Store → Option Nat
  | memory s => some s.size
  | directory _ _ => none

end Store

end SnapTree
