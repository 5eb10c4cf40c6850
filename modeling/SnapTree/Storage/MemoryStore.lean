import SnapTree.Storage.AssetError

/-
  This file defines stores that hold their assets in memory.

  Key definitions include:
    * `MemoryStore`
    * `MemoryStore.put`
    * `MemoryStore.fetch`
-/

namespace SnapTree

/- Assets by the checksum they were put under. -/
structure MemoryStore where
  assets : Std.ExtTreeMap Checksum Asset compare

namespace MemoryStore

/- The store that holds nothing. -/
def empty : MemoryStore :=
  ⟨∅⟩

instance : Inhabited MemoryStore :=
  ⟨empty⟩

/- The number of assets held. -/
def size
    (s : MemoryStore) : Nat :=
  s.assets.size

/- The asset held under a checksum. -/
def get?
    (s : MemoryStore)
    (c : Checksum) : Option Asset :=
  s.assets[c]?

/- Put an asset under a checksum; the first one put stays. -/
def put
    (s : MemoryStore)
    (c : Checksum)
    (a : Asset) : MemoryStore :=
  ⟨s.assets.insertIfNew c a⟩

/- Drop the asset held under a checksum. -/
def remove
    (s : MemoryStore)
    (c : Checksum) : MemoryStore :=
  ⟨s.assets.erase c⟩

/- The known ones of some checksums, with their assets. -/
def select
    (s : MemoryStore)
    (request : List Checksum) : List (Checksum × Asset) :=
  request.filterMap
    (fun c => (s.get? c).map (fun a => (c, a)))

/-
  The assets held under the given checksums, in that order.
  Checksums that are not known are left out.
-/
def fetch
    (s : MemoryStore)
    (cancelled : Bool)
    (request : List Checksum) :
    Except AssetError (List (Checksum × Asset)) :=
  if cancelled then .error .cancelled
  else .ok (s.select request)

end MemoryStore

end SnapTree
