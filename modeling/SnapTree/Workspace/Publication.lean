import SnapTree.Storage.MemoryStore
import SnapTree.Storage.DirectoryStore
import SnapTree.Exchange.Session
import SnapTree.Workspace.Solution

/-
  This file defines what a snapshot gives to others: the
  assets of its checksum tree, each under its checksum and
  once, and the references it holds.

  Key definitions include:
    * `Solution.assets`
    * `Solution.publication`
    * `Solution.publish`
    * `ReferenceCache.seed`
-/

namespace SnapTree

/- The assets of a document. -/
def Document.assets
    (d : Document) : List Asset :=
  [.documentNode d.node, .documentAttributes d.attributes,
    .text d.text]

/- The assets of a project and its documents. -/
def Project.assets
    (p : Project) : List Asset :=
  [.projectNode p.node, .projectAttributes p.attributes,
    .compilationOptions p.compilationOptions,
    .parseOptions p.parseOptions] ++
  p.projectReferences.map .projectReference ++
  p.metadataReferences.map .metadataReference ++
  p.analyzerReferences.map .analyzerReference ++
  p.allDocuments.flatMap Document.assets

/- The assets of a frozen document. -/
def FrozenDocument.assets
    (f : FrozenDocument) : List Asset :=
  [.frozenIdentity f.identity, .text f.text]

namespace Solution

/- The assets of a solution, from the root of its tree on. -/
def assets
    (s : Solution) : List Asset :=
  [.solutionNode s.node, .solutionAttributes s.attributes] ++
  s.analyzerReferences.map .analyzerReference ++
  s.projectList.flatMap Project.assets ++
  (s.frozen.map FrozenDocument.assets).getD []

/-
  Assets with their checksums, without those whose checksum
  was met before.
-/
def keyed
    (met : List Checksum) : List Asset → List (Checksum × Asset)
  | [] => []
  | a :: rest =>
      let c := a.checksum
      if c ∈ met then keyed met rest
      else (c, a) :: keyed (c :: met) rest

/- What is put into a store for a solution, in order. -/
def publication
    (s : Solution) : List (Checksum × Asset) :=
  keyed [] s.assets

/-
  Put a solution into a store of any sort.  A store that fails
  ends this, and keeps what it was given before.
-/
def publish
    {σ : Type}
    (put : Checksum → Asset → ExceptT AssetError (StateM σ) Unit)
    (s : Solution) : ExceptT AssetError (StateM σ) Checksum := do
  s.publication.forM (fun entry => put entry.1 entry.2)
  pure s.checksum

end Solution

/- Put an asset into a store in memory, which never fails. -/
def MemoryStore.accept
    (c : Checksum)
    (a : Asset) : ExceptT AssetError (StateM MemoryStore) Unit :=
  modify (fun s => s.put c a)

/- Hold all references of a solution. -/
def ReferenceCache.seed
    (cache : ReferenceCache)
    (s : Solution) : ReferenceCache :=
  let cache :=
    cache.addAnalyzers
      (s.analyzerReferences ++
        s.projectList.flatMap Project.analyzerReferences)
  cache.addMetadata
    (s.projectList.flatMap Project.metadataReferences)

end SnapTree
