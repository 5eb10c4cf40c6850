import SnapTree.Exchange.ReferenceCache
import SnapTree.Exchange.ScratchPool
import SnapTree.Storage.AssetError

/-
  This file defines what a receiver of assets works with: the
  link to the source that it asks, and the session that keeps
  what it has received.  A computation in a session may fail,
  and what it did to the session until then remains.

  Key definitions include:
    * `Request`
    * `Source`
    * `Cancellation`
    * `Link`
    * `FetchCounts`
    * `Session`
    * `Run`
    * `Run.difference`
-/

namespace SnapTree

------------------------------------------------------------
-- The link to a source
------------------------------------------------------------

/- The checksums that a source is asked for at one time. -/
abbrev Request : Type :=
  List Checksum

/-
  A source answers a request, knowing all earlier ones.  So it
  may answer differently each time, leave out what it was
  asked for, or give what nobody asked for.
-/
abbrev Source : Type :=
  List Request → Request →
    Except AssetError (List (Checksum × Asset))

/- When the caller gives up. -/
inductive Cancellation where
  | never
  | before
  | duringRequest (n : Nat)
deriving DecidableEq

namespace Cancellation

/- Whether the caller has given up after so many requests. -/
def isReached : Cancellation → Nat → Bool
  | .never, _ => false
  | .before, _ => true
  | .duringRequest n, made => 0 < n && n ≤ made

end Cancellation

/-
  The link to a source: how it answers, when the caller gives
  up, and whether answers are hashed before they are trusted.
-/
structure Link where
  source : Source
  cancellation : Cancellation := .never
  verifies : Bool := true

------------------------------------------------------------
-- Sessions
------------------------------------------------------------

/- How a receiver has dealt with its source. -/
structure FetchCounts where
  roundTrips : Nat := 0
  assetsFetched : Nat := 0
  cacheHits : Nat := 0
deriving DecidableEq

namespace FetchCounts

/- What was counted since some earlier time. -/
def since
    (now earlier : FetchCounts) : FetchCounts where
  roundTrips := now.roundTrips - earlier.roundTrips
  assetsFetched := now.assetsFetched - earlier.assetsFetched
  cacheHits := now.cacheHits - earlier.cacheHits

end FetchCounts

/- Assets by checksum, as received. -/
abbrev Cache : Type :=
  Std.ExtTreeMap Checksum Asset compare

/-
  What a receiver keeps: the assets received, what it counted,
  its scratch sets, the references seen, and the requests that
  the current call has made so far, the first one first.
-/
structure Session where
  cache : Cache := ∅
  counts : FetchCounts := {}
  pool : ScratchPool := .standard
  references : ReferenceCache := .empty
  requests : List Request := []

/- A computation in a session that may fail. -/
abbrev Run (ε α : Type) : Type :=
  ExceptT ε (StateM Session) α

namespace Run

variable {ε δ α : Type}

/- Carry out a computation from a session. -/
def start
    (r : Run ε α)
    (s : Session) : Except ε α × Session :=
  (ExceptT.run r).run s

/- Report the failures of a computation as something else. -/
def failingAs
    (f : ε → δ)
    (r : Run ε α) : Run δ α :=
  ExceptT.adapt f r

/- A result that may be a failure. -/
def ofExcept : Except ε α → Run ε α
  | .ok a => pure a
  | .error e => throw e

/-
  The difference of two lists of checksums.  Its sets are back
  in the pool when this returns.
-/
def difference
    (old new : List Checksum) : Run ε CollectionDiff :=
  modifyGet (fun s =>
    let (d, pool) := s.pool.diff old new
    (d, { s with pool := pool.releaseDiff d }))

end Run

end SnapTree
