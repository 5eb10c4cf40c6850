import SnapTree.Exchange.Provider
import SnapTree.Sync.Report
import SnapTree.Sync.Settings
import SnapTree.Sync.SyncError
import SnapTree.Workspace.Description

/-
  This file defines how descriptions are made of the assets
  that a checksum tree names.

  Key definitions include:
    * `Synchronizer`
    * `Synchronizer.cachedDocument`
    * `Synchronizer.documentDescription`
    * `Synchronizer.cachedProject`
    * `Synchronizer.projectDescription`
    * `Synchronizer.fetchAnalyzerReferences`
    * `Synchronizer.fetchFrozen`
-/

namespace SnapTree

/- A link to a source, and how to use it. -/
structure Synchronizer where
  link : Link
  settings : SyncSettings

/- A step of a synchronization. -/
abbrev SyncRun (α : Type) : Type :=
  Run SyncError α

namespace SyncRun

/- A computation on assets as a step of a synchronization. -/
def ofAssets
    {α : Type}
    (r : Run AssetError α) : SyncRun α :=
  r.failingAs SyncError.ofAsset

/- A change to a snapshot as a step of a synchronization. -/
def ofEdit
    {α : Type} : Except EditError α → SyncRun α
  | .ok a => pure a
  | .error e => throw (.edit e)

/- A cached value as a step of a synchronization. -/
def cached
    {α : Type}
    [AssetValue α]
    (c : Checksum) : SyncRun α :=
  ofAssets (Run.cached c)

end SyncRun

namespace Synchronizer

/- Fail if the caller has given up. -/
def checkCancelled
    (sync : Synchronizer) : SyncRun Unit :=
  .ofAssets sync.link.checkCancelled

/- A value, from the source if it is not cached. -/
def fetch
    {α : Type}
    [AssetValue α]
    (sync : Synchronizer)
    (c : Checksum) : SyncRun α :=
  .ofAssets (sync.link.get c)

/- Bring checksums into the cache. -/
def prefetch
    (sync : Synchronizer)
    (cs : List Checksum) : SyncRun Unit :=
  .ofAssets (discard (sync.link.prefetch cs))

------------------------------------------------------------
-- References
------------------------------------------------------------

/- The members of a collection that are all cached, in order. -/
def cachedValues
    {α : Type}
    [AssetValue α]
    (c : Collection) : SyncRun (List α) :=
  c.members.mapM SyncRun.cached

/- The metadata references of a collection. -/
def metadataReferences
    (c : Collection) : SyncRun (List MetadataReference) := do
  let references ← cachedValues c
  modify (fun s =>
    { s with references := s.references.addMetadata references })
  pure references

/- The analyzer references of a collection. -/
def analyzerReferences
    (c : Collection) : SyncRun (List AnalyzerReference) := do
  let references ← cachedValues c
  modify (fun s =>
    { s with references := s.references.addAnalyzers references })
  pure references

/- Fetch the analyzer references of a collection. -/
def fetchAnalyzerReferences
    (sync : Synchronizer)
    (c : Collection) : SyncRun (List AnalyzerReference) := do
  sync.prefetch c.members
  analyzerReferences c

------------------------------------------------------------
-- Documents
------------------------------------------------------------

/- The description of a document whose tree is cached. -/
def cachedDocument
    (c : Checksum) : SyncRun DocumentDescription := do
  let node : DocumentNode ← .cached c
  let attributes ← .cached node.attributes
  let text ← .cached node.text
  pure { attributes, text }

/- The description of a document. -/
def documentDescription
    (sync : Synchronizer)
    (c : Checksum) : SyncRun DocumentDescription := do
  .ofAssets (sync.link.fetchDocuments [c])
  cachedDocument c

/- Fetch both halves of a frozen document. -/
def fetchFrozen
    (sync : Synchronizer)
    (identity text : Checksum) : SyncRun FrozenDocument := do
  sync.prefetch [identity, text]
  let identity ← .cached identity
  let text ← .cached text
  pure { identity, text }

------------------------------------------------------------
-- Projects
------------------------------------------------------------

/- The description of a project whose tree is cached. -/
def cachedProject
    (node : ProjectNode)
    (attributes : ProjectAttributes) :
    SyncRun ProjectDescription := do
  let compilationOptions ← .cached node.compilationOptions
  let parseOptions ← .cached node.parseOptions
  let projectReferences ← cachedValues node.projectReferences
  let metadataReferences ←
    metadataReferences node.metadataReferences
  let analyzerReferences ←
    analyzerReferences node.analyzerReferences
  let ordinary ←
    node.documents.ordinary.members.mapM cachedDocument
  let additional ←
    node.documents.additional.members.mapM cachedDocument
  let analyzerConfig ←
    node.documents.analyzerConfig.members.mapM cachedDocument
  pure
    { attributes, compilationOptions, parseOptions,
      documents := ⟨ordinary, additional, analyzerConfig⟩,
      projectReferences, metadataReferences,
      analyzerReferences }

/-
  The description of a project, or nothing if projects of its
  language cannot be held here.
-/
def projectDescription
    (sync : Synchronizer)
    (c : Checksum) : SyncRun (Option ProjectDescription) := do
  let node : ProjectNode ← sync.fetch c
  let attributes : ProjectAttributes ←
    sync.fetch node.attributes
  if !sync.settings.supports attributes.language then
    pure none
  else
    .ofAssets (sync.link.fetchProjects [c])
    return some (← cachedProject node attributes)

/- What the report says about a project that was left out. -/
def skippedProject
    (c : Checksum) : SyncRun SkippedProject := do
  let node : ProjectNode ← .cached c
  let attributes : ProjectAttributes ← .cached node.attributes
  pure ⟨attributes.id, attributes.name, attributes.language⟩

end Synchronizer

end SnapTree
