import SnapTree.Exchange.Provider

/-
  This file defines the difference of two stored snapshots.
  It is worked out on their checksum trees: only nodes and
  attributes that differ are fetched, and never a text.

  Key definitions include:
    * `SnapshotDiff`
    * `DocumentChange.list`
    * `ProjectPart.changed`
    * `SolutionPart.changed`
    * `Link.compareDocuments`
    * `Link.compareProjects`
    * `Link.compare`
-/

namespace SnapTree

------------------------------------------------------------
-- Parts
------------------------------------------------------------

/- The parts of a solution other than its projects. -/
inductive SolutionPart where
  | attributes
  | analyzerReferences
  | frozenDocument
deriving DecidableEq

namespace SolutionPart

/- The parts in the order in which they are listed. -/
def all : List SolutionPart :=
  [.attributes, .analyzerReferences, .frozenDocument]

/- The name of a part. -/
def name : SolutionPart → String
  | .attributes => "attributes"
  | .analyzerReferences => "analyzer references"
  | .frozenDocument => "frozen document"

/- Whether a part of two solutions differs. -/
def differs
    (old new : SolutionNode) : SolutionPart → Bool
  | .attributes => old.attributes != new.attributes
  | .analyzerReferences =>
      old.analyzerReferences.checksum !=
        new.analyzerReferences.checksum
  | .frozenDocument => old.frozen? != new.frozen?

/- The parts of two solutions that differ. -/
def changed
    (old new : SolutionNode) : List SolutionPart :=
  all.filter (differs old new)

end SolutionPart

/- The parts of a project other than its documents. -/
inductive ProjectPart where
  | attributes
  | compilationOptions
  | parseOptions
  | projectReferences
  | metadataReferences
  | analyzerReferences
deriving DecidableEq

namespace ProjectPart

/- The parts in the order in which they are listed. -/
def all : List ProjectPart :=
  [.attributes, .compilationOptions, .parseOptions,
    .projectReferences, .metadataReferences,
    .analyzerReferences]

/- The name of a part. -/
def name : ProjectPart → String
  | .attributes => "attributes"
  | .compilationOptions => "compilation options"
  | .parseOptions => "parse options"
  | .projectReferences => "project references"
  | .metadataReferences => "metadata references"
  | .analyzerReferences => "analyzer references"

/- The checksum of a part. -/
def checksum
    (n : ProjectNode) : ProjectPart → Checksum
  | .attributes => n.attributes
  | .compilationOptions => n.compilationOptions
  | .parseOptions => n.parseOptions
  | .projectReferences => n.projectReferences.checksum
  | .metadataReferences => n.metadataReferences.checksum
  | .analyzerReferences => n.analyzerReferences.checksum

/- The parts of two projects that differ. -/
def changed
    (old new : ProjectNode) : List ProjectPart :=
  all.filter (fun part => checksum old part != checksum new part)

end ProjectPart

------------------------------------------------------------
-- Changes
------------------------------------------------------------

/- What became of a document. -/
inductive ChangeKind where
  | added
  | removed
  | modified
deriving DecidableEq

namespace ChangeKind

/- The name of a kind of change. -/
def name : ChangeKind → String
  | .added => "added"
  | .removed => "removed"
  | .modified => "modified"

end ChangeKind

/- A document that differs. -/
structure DocumentChange where
  kind : DocumentKind
  name : String
  filePath : Option String
  change : ChangeKind
deriving DecidableEq

/- A project that is on one side only. -/
structure ProjectEntry where
  id : ProjectId
  name : String
deriving DecidableEq

/- A project that is on both sides and differs. -/
structure ProjectChange where
  id : ProjectId
  name : String
  parts : List ProjectPart
  documents : List DocumentChange
deriving DecidableEq

/- The difference of two snapshots, by ascending identity. -/
structure SnapshotDiff where
  old : Checksum
  new : Checksum
  solution : List SolutionPart
  projectsAdded : List ProjectEntry
  projectsRemoved : List ProjectEntry
  projectsChanged : List ProjectChange
deriving DecidableEq

namespace SnapshotDiff

/- Whether two snapshots do not differ. -/
def isEmpty
    (d : SnapshotDiff) : Bool :=
  d.solution.isEmpty && d.projectsAdded.isEmpty &&
    d.projectsRemoved.isEmpty && d.projectsChanged.isEmpty

end SnapshotDiff

------------------------------------------------------------
-- Documents
------------------------------------------------------------

/- Documents by their identity. -/
abbrev DocumentsById : Type :=
  Std.ExtTreeMap DocumentId DocumentAttributes compare

namespace DocumentChange

/- A change to a document with these attributes. -/
def of
    (kind : DocumentKind)
    (change : ChangeKind)
    (a : DocumentAttributes) : DocumentChange :=
  ⟨kind, a.name, a.filePath, change⟩

/-
  The changes from old documents to new ones: first those that
  were there before, under their old names, then the rest.
-/
def list
    (kind : DocumentKind)
    (old new : DocumentsById) : List DocumentChange :=
  old.toList.map
    (fun (id, a) =>
      of kind (if new.contains id then .modified else .removed) a) ++
  (new.toList.filter (fun (id, _) => !old.contains id)).map
    (fun (_, a) => of kind .added a)

end DocumentChange

namespace Link

/- The documents with these checksums. -/
def documentsById
    (link : Link)
    (cs : List Checksum) : Run AssetError DocumentsById := do
  let nodes ← link.getMany (α := DocumentNode) cs
  let found ←
    link.getMany (α := DocumentAttributes)
      (nodes.map (fun (_, n) => n.attributes))
  pure
    (found.foldl (fun map (_, a) => map.insert a.id a) ∅)

/- The changes to the documents of one kind of a project. -/
def compareDocuments
    (link : Link)
    (old new : ProjectNode)
    (kind : DocumentKind) : Run AssetError (List DocumentChange) := do
  let d ←
    Run.difference (old.documents.get kind).members
      (new.documents.get kind).members
  let before ← link.documentsById d.removedOnly.toList
  let after ← link.documentsById d.addedOnly.toList
  pure (DocumentChange.list kind before after)

------------------------------------------------------------
-- Projects
------------------------------------------------------------

/- Projects by their identity. -/
abbrev ProjectsById : Type :=
  Std.ExtTreeMap ProjectId (ProjectNode × ProjectAttributes)
    compare

/- The projects with these checksums. -/
def projectsById
    (link : Link)
    (cs : List Checksum) : Run AssetError ProjectsById := do
  let nodes ← link.getMany (α := ProjectNode) cs
  let _ ←
    link.prefetch (nodes.map (fun (_, n) => n.attributes))
  let found ←
    nodes.mapM (fun (_, n) => do
      let a : ProjectAttributes ← Run.cached n.attributes
      pure (n, a))
  pure
    (found.foldl (fun map (n, a) => map.insert a.id (n, a)) ∅)

/- The changes to a project that is on both sides. -/
def compareProjects
    (link : Link)
    (old : ProjectNode)
    (new : ProjectNode × ProjectAttributes) :
    Run AssetError ProjectChange := do
  let documents ←
    DocumentKind.all.mapM (link.compareDocuments old new.1)
  pure
    { id := new.2.id
      name := new.2.name
      parts := ProjectPart.changed old new.1
      documents := documents.flatten }

------------------------------------------------------------
-- Snapshots
------------------------------------------------------------

/- The difference of two snapshots that a source holds. -/
def compare
    (link : Link)
    (old new : Checksum) : Run AssetError SnapshotDiff := do
  let _ ← link.prefetch [old, new]
  let oldRoot : SolutionNode ← Run.cached old
  let newRoot : SolutionNode ← Run.cached new
  let d ←
    Run.difference oldRoot.projects.members
      newRoot.projects.members
  let before ← link.projectsById d.removedOnly.toList
  let after ← link.projectsById d.addedOnly.toList
  let both :=
    before.toList.filterMap
      (fun (id, p) => after[id]?.map (fun q => (p.1, q)))
  let changed ←
    both.mapM (fun (p, q) => link.compareProjects p q)
  let entries (some other : ProjectsById) : List ProjectEntry :=
    (some.toList.filter (fun (id, _) => !other.contains id)).map
      (fun (id, p) => ⟨id, p.2.name⟩)
  pure
    { old, new
      solution := SolutionPart.changed oldRoot newRoot
      projectsAdded := entries after before
      projectsRemoved := entries before after
      projectsChanged := changed }

end Link

end SnapTree
