import SnapTree.Content.Project

/-
  This file defines the cache of references that were seen
  before.  Equal references are held once.

  Key definitions include:
    * `ReferenceCache`
    * `ReferenceCache.addMetadata`
    * `ReferenceCache.addAnalyzers`
    * `ReferenceCache.size`
-/

namespace SnapTree

/- The references seen so far, newest first and each once. -/
structure ReferenceCache where
  metadata : List MetadataReference
  analyzers : List AnalyzerReference

namespace ReferenceCache

/- The cache that has seen nothing. -/
def empty : ReferenceCache :=
  ⟨[], []⟩

instance : Inhabited ReferenceCache :=
  ⟨empty⟩

/- The number of references held. -/
def size
    (c : ReferenceCache) : Nat :=
  c.metadata.length + c.analyzers.length

/- Hold metadata references. -/
def addMetadata
    (c : ReferenceCache)
    (references : List MetadataReference) : ReferenceCache :=
  { c with
    metadata :=
      references.foldl (fun seen r => seen.insert r) c.metadata }

/- Hold analyzer references. -/
def addAnalyzers
    (c : ReferenceCache)
    (references : List AnalyzerReference) : ReferenceCache :=
  { c with
    analyzers :=
      references.foldl (fun seen r => seen.insert r) c.analyzers }

end ReferenceCache

end SnapTree
