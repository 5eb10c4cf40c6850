import SnapTree.Exchange.Session

/-
  This file defines how a receiver resolves checksums to
  assets: from its cache, and from its source on a miss.  What
  a source answers is hashed and compared with its key before
  it enters the cache, unless the link does without.

  Key definitions include:
    * `Session.lookup`
    * `Session.missing`
    * `Session.asking`
    * `Link.receive`
    * `Link.fetchMissing`
    * `Link.get`
    * `Run.cached`
    * `Link.getMany`
    * `Link.prefetch`
    * `Link.fetchProjects`
    * `Link.fetchDocuments`
-/

namespace SnapTree

------------------------------------------------------------
-- The cache
------------------------------------------------------------

namespace Session

/- Whether an asset is cached under a checksum. -/
def isCached
    (s : Session)
    (c : Checksum) : Bool :=
  s.cache.contains c

/- Keep an asset under a checksum; the first one kept stays. -/
def keep
    (s : Session)
    (c : Checksum)
    (a : Asset) : Session :=
  { s with cache := s.cache.insertIfNew c a }

/- Keep a value under its own checksum. -/
def insert
    {α : Type}
    [AssetValue α]
    (s : Session)
    (value : α) : Session :=
  s.keep (AssetValue.checksum value) (AssetValue.toAsset value)

/- The cached value of a type, if anything is cached. -/
def lookup
    {α : Type}
    [AssetValue α]
    (s : Session)
    (c : Checksum) : Except AssetError (Option α) :=
  match s.cache[c]? with
  | none => .ok none
  | some a =>
      match a.value c with
      | .ok value => .ok (some value)
      | .error e => .error e

/- The checksums of a list that have to be asked for. -/
def missing
    (s : Session)
    (cs : List Checksum) : Request :=
  ((cs.filter (fun c => !c.isNull)).eraseDups).filter
    (fun c => !s.isCached c)

/- A session in which a request has just been made. -/
def asking
    (s : Session)
    (request : Request) : Session :=
  { s with
    counts :=
      { s.counts with roundTrips := s.counts.roundTrips + 1 }
    requests := s.requests ++ [request] }

end Session

/- A value that must be cached already. -/
def Run.cached
    {α : Type}
    [AssetValue α]
    (c : Checksum) : Run AssetError α := do
  match ← Run.ofExcept ((← get).lookup c) with
  | some value => pure value
  | none => throw (.missing c)

namespace Link

------------------------------------------------------------
-- One round trip
------------------------------------------------------------

/- Fail if the caller has given up. -/
def checkCancelled
    (link : Link) : Run AssetError Unit := do
  let s ← get
  if link.cancellation.isReached s.requests.length then
    throw .cancelled

/- Check one answer and keep it. -/
def accept
    (link : Link)
    (answer : Checksum × Asset) : Run AssetError Unit := do
  let actual := answer.2.checksum
  if link.verifies && actual != answer.1 then
    throw (.corrupt answer.1 actual)
  modify (fun s => s.keep answer.1 answer.2)

/-
  Keep what the source answers to a request, and fail if one of
  the checksums asked for is still not cached then.
-/
def receive
    (link : Link)
    (earlier : List Request)
    (request : Request) : Run AssetError Unit := do
  let found ← Run.ofExcept (link.source earlier request)
  modify (fun s =>
    { s with
      counts :=
        { s.counts with
          assetsFetched :=
            s.counts.assetsFetched + found.length } })
  found.forM link.accept
  let s ← get
  match request.find? (fun c => !s.isCached c) with
  | some c => throw (.missing c)
  | none => pure ()

/- Ask the source for checksums, and receive what it answers. -/
def fetchMissing
    (link : Link)
    (request : Request) : Run AssetError Unit := do
  link.checkCancelled
  let earlier := (← get).requests
  modify (fun s => s.asking request)
  link.checkCancelled
  link.receive earlier request

------------------------------------------------------------
-- Values
------------------------------------------------------------

/- A value, from the source if it is not cached. -/
def get
    {α : Type}
    [AssetValue α]
    (link : Link)
    (c : Checksum) : Run AssetError α := do
  match ← Run.ofExcept ((← MonadState.get).lookup c) with
  | some value =>
      modify (fun s =>
        { s with
          counts :=
            { s.counts with cacheHits := s.counts.cacheHits + 1 } })
      pure value
  | none =>
      link.fetchMissing [c]
      Run.cached c

/-
  Bring checksums into the cache, in at most one round trip.
  The result is the number of those that were missing.
-/
def prefetch
    (link : Link)
    (cs : List Checksum) : Run AssetError Nat := do
  let missing := (← MonadState.get).missing cs
  unless missing.isEmpty do
    link.fetchMissing missing
  pure missing.length

/-
  The values of checksums in the order in which these appear
  first, each once, in at most one round trip.
-/
def getMany
    {α : Type}
    [AssetValue α]
    (link : Link)
    (cs : List Checksum) : Run AssetError (List (Checksum × α)) := do
  let unique := cs.eraseDups
  let _ ← link.prefetch unique
  unique.mapM (fun c => do return (c, ← Run.cached c))

------------------------------------------------------------
-- Whole trees
------------------------------------------------------------

/- Bring the attributes and texts of documents into the cache. -/
def fetchLeaves
    (link : Link)
    (documents : List Checksum) : Run AssetError Unit := do
  let nodes : List DocumentNode ← documents.mapM Run.cached
  let _ ← link.prefetch
    (nodes.flatMap (fun n => [n.attributes, n.text]))

/-
  Bring the whole trees of projects into the cache, one round
  trip a level: their nodes, then their values and the nodes
  of their documents, then what these name.
-/
def fetchProjects
    (link : Link)
    (projects : List Checksum) : Run AssetError Unit := do
  unless projects.isEmpty do
    let _ ← link.prefetch projects
    let nodes : List ProjectNode ← projects.mapM Run.cached
    let documents := nodes.flatMap ProjectNode.allDocuments
    let _ ← link.prefetch
      (nodes.flatMap ProjectNode.valueChildren ++ documents)
    link.fetchLeaves documents

/- Bring the whole trees of documents into the cache. -/
def fetchDocuments
    (link : Link)
    (documents : List Checksum) : Run AssetError Unit := do
  unless documents.isEmpty do
    let _ ← link.prefetch documents
    link.fetchLeaves documents

end Link

end SnapTree
