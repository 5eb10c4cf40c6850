import SnapTree.Workspace.ReferenceGraph

/-
  This file defines snapshots of solutions, how they are made
  from descriptions, and how they are changed.  A snapshot is
  a value: a change gives a new one or an error.

  Key definitions include:
    * `FrozenDocument`
    * `Solution`
    * `Solution.ofDescription`
    * `Solution.describe`
    * `Solution.node`
    * `Solution.addProject`
    * `Solution.removeProject`
    * `Solution.changeProject`
    * `Solution.changeDocument`
-/

namespace SnapTree

/- A provisional generated document laid over a solution. -/
structure FrozenDocument where
  identity : FrozenIdentity
  text : String
deriving DecidableEq

/- A snapshot of a solution. -/
structure Solution where
  attributes : SolutionAttributes
  projects : ProjectMap
  analyzerReferences : List AnalyzerReference
  frozen : Option FrozenDocument

namespace Solution

------------------------------------------------------------
-- Queries
------------------------------------------------------------

/- The identity of a solution. -/
def id
    (s : Solution) : SolutionId :=
  s.attributes.id

/- The projects in the order of their identities. -/
def projectList
    (s : Solution) : List Project :=
  s.projects.toList.map Prod.snd

/- A project by its identity. -/
def project?
    (s : Solution)
    (id : ProjectId) : Option Project :=
  s.projects[id]?

/- Whether a project is present. -/
def containsProject
    (s : Solution)
    (id : ProjectId) : Bool :=
  s.projects.contains id

/- A document of any kind of a project. -/
def document?
    (s : Solution)
    (project : ProjectId)
    (id : DocumentId) : Option Document :=
  (s.project? project).bind (fun p => p.document? id)

/- The number of documents of all projects. -/
def documentCount
    (s : Solution) : Nat :=
  (s.projectList.flatMap Project.allDocuments).length

------------------------------------------------------------
-- Descriptions
------------------------------------------------------------

/- The solution without projects. -/
def empty
    (attributes : SolutionAttributes) : Solution :=
  ⟨attributes, ∅, [], none⟩

/- The projects of descriptions, by identity. -/
def projectMap
    (descriptions : List ProjectDescription) :
    Except EditError ProjectMap :=
  descriptions.foldlM
    (fun m d => do
      let p ← Project.ofDescription d
      if m.contains d.attributes.id then
        .error (.duplicateProject d.attributes.id)
      else .ok (m.insert d.attributes.id p))
    ∅

/- The solution that a description gives. -/
def ofDescription
    (d : SolutionDescription) : Except EditError Solution := do
  let projects ← projectMap d.projects
  ReferenceGraph.checkAcyclic projects
  .ok ⟨d.attributes, projects, d.analyzerReferences, none⟩

/- The description of a solution, its frozen document apart. -/
def describe
    (s : Solution) : SolutionDescription :=
  ⟨s.attributes, s.projectList.map Project.describe,
    s.analyzerReferences⟩

------------------------------------------------------------
-- Checksums
------------------------------------------------------------

/- The root of the checksum tree. -/
def node
    (s : Solution) : SolutionNode :=
  SolutionNode.of
    (AssetValue.checksum s.attributes)
    (Collection.of .projects
      (s.projectList.map Project.checksum))
    (Collection.of .analyzerReferences
      (s.analyzerReferences.map AssetValue.checksum))
    (s.frozen.map
      (fun f =>
        (AssetValue.checksum f.identity,
          AssetValue.checksum f.text)))

/- The checksum of a solution: the name of the snapshot. -/
def checksum
    (s : Solution) : Checksum :=
  s.node.checksum

------------------------------------------------------------
-- Changes to the solution
------------------------------------------------------------

/- Replace the attributes; the identity stays as it is. -/
def withAttributes
    (s : Solution)
    (attributes : SolutionAttributes) : Except EditError Solution :=
  if attributes.id ≠ s.id then
    .error (.immutableField .solutionId)
  else .ok { s with attributes }

/- Replace the analyzer references of the solution. -/
def withAnalyzerReferences
    (s : Solution)
    (references : List AnalyzerReference) : Solution :=
  { s with analyzerReferences := references }

/- Add a project that is not present. -/
def addProject
    (s : Solution)
    (d : ProjectDescription) : Except EditError Solution := do
  if s.containsProject d.attributes.id then
    .error (.duplicateProject d.attributes.id)
  else
    let p ← Project.ofDescription d
    let projects := s.projects.insert d.attributes.id p
    unless d.projectReferences.isEmpty do
      ReferenceGraph.checkAcyclic projects
    .ok { s with projects }

/-
  Remove a project, and a frozen document that belongs to it.
  References that others hold to the project stay.
-/
def removeProject
    (s : Solution)
    (id : ProjectId) : Except EditError Solution :=
  if s.containsProject id then
    .ok
      { s with
        projects := s.projects.erase id
        frozen :=
          s.frozen.filter (fun f => f.identity.projectId ≠ id) }
  else .error (.unknownProject id)

/- Attach a frozen document of a project that is present. -/
def withFrozen
    (s : Solution)
    (frozen : FrozenDocument) : Except EditError Solution :=
  if s.containsProject frozen.identity.projectId then
    .ok { s with frozen := some frozen }
  else .error (.unknownProject frozen.identity.projectId)

/- Detach the frozen document, if there is one. -/
def withoutFrozen
    (s : Solution) : Solution :=
  { s with frozen := none }

------------------------------------------------------------
-- Changes to a project
------------------------------------------------------------

/- Replace a project by what a function makes of it. -/
def changeProject
    (s : Solution)
    (id : ProjectId)
    (change : Project → Except EditError Project) :
    Except EditError Solution :=
  match s.project? id with
  | none => .error (.unknownProject id)
  | some p =>
      match change p with
      | .error e => .error e
      | .ok p => .ok { s with projects := s.projects.insert id p }

/- Replace the attributes of a project. -/
def withProjectAttributes
    (s : Solution)
    (id : ProjectId)
    (attributes : ProjectAttributes) : Except EditError Solution :=
  s.changeProject id (fun p => p.withAttributes attributes)

/- Replace the compilation options of a project. -/
def withCompilationOptions
    (s : Solution)
    (id : ProjectId)
    (options : CompilationOptions) : Except EditError Solution :=
  s.changeProject id
    (fun p => .ok { p with compilationOptions := options })

/- Replace the parse options of a project. -/
def withParseOptions
    (s : Solution)
    (id : ProjectId)
    (options : ParseOptions) : Except EditError Solution :=
  s.changeProject id
    (fun p => .ok { p with parseOptions := options })

/-
  Replace the references of a project to other projects.  They
  may not close a cycle among the projects present.
-/
def withProjectReferences
    (s : Solution)
    (id : ProjectId)
    (references : List ProjectReference) :
    Except EditError Solution := do
  let next ←
    s.changeProject id
      (fun p => .ok { p with projectReferences := references })
  unless references.isEmpty do
    ReferenceGraph.checkAcyclic next.projects
  .ok next

/- Give a project the references to projects of another. -/
def withProjectReferencesOf
    (s : Solution)
    (id : ProjectId)
    (source : Project) : Except EditError Solution :=
  s.withProjectReferences id source.projectReferences

/- Replace the metadata references of a project. -/
def withMetadataReferences
    (s : Solution)
    (id : ProjectId)
    (references : List MetadataReference) :
    Except EditError Solution :=
  s.changeProject id
    (fun p => .ok { p with metadataReferences := references })

/- Replace the analyzer references of a project. -/
def withProjectAnalyzerReferences
    (s : Solution)
    (id : ProjectId)
    (references : List AnalyzerReference) :
    Except EditError Solution :=
  s.changeProject id
    (fun p => .ok { p with analyzerReferences := references })

------------------------------------------------------------
-- Changes to documents
------------------------------------------------------------

/- Add documents of one kind to a project. -/
def addDocuments
    (s : Solution)
    (project : ProjectId)
    (kind : DocumentKind)
    (descriptions : List DocumentDescription) :
    Except EditError Solution :=
  if descriptions.isEmpty then .ok s
  else
    s.changeProject project
      (fun p => p.addDocuments kind descriptions)

/- Remove documents of one kind from a project. -/
def removeDocuments
    (s : Solution)
    (project : ProjectId)
    (kind : DocumentKind)
    (ids : List DocumentId) : Except EditError Solution :=
  if ids.isEmpty then .ok s
  else
    s.changeProject project
      (fun p => p.removeDocuments kind ids)

/- Replace a document of any kind by what a function makes of it. -/
def changeDocument
    (s : Solution)
    (project : ProjectId)
    (id : DocumentId)
    (change : Document → Except EditError Document) :
    Except EditError Solution :=
  s.changeProject project (fun p =>
    match p.document? id with
    | none => .error (.unknownDocument project id)
    | some d =>
        match change d with
        | .error e => .error e
        | .ok d => .ok (p.putDocument d))

/- Replace the whole text of a document. -/
def withDocumentText
    (s : Solution)
    (project : ProjectId)
    (id : DocumentId)
    (text : String) : Except EditError Solution :=
  s.changeDocument project id (fun d => .ok { d with text })

/- Change the attributes of a document that must be ordinary. -/
def changeOrdinary
    (change : OrdinaryChange)
    (f : DocumentAttributes → DocumentAttributes)
    (d : Document) : Except EditError Document :=
  if d.kind = .ordinary then
    .ok { d with attributes := f d.attributes }
  else .error (.wrongDocumentKind d.id d.kind change)

/- Change the folders of an ordinary document. -/
def withDocumentFolders
    (s : Solution)
    (project : ProjectId)
    (id : DocumentId)
    (folders : List String) : Except EditError Solution :=
  s.changeDocument project id
    (changeOrdinary .folders (fun a => { a with folders }))

/- Change the source kind of an ordinary document. -/
def withDocumentSourceKind
    (s : Solution)
    (project : ProjectId)
    (id : DocumentId)
    (sourceKind : SourceKind) : Except EditError Solution :=
  s.changeDocument project id
    (changeOrdinary .sourceKind (fun a => { a with sourceKind }))

------------------------------------------------------------
-- Comparison
------------------------------------------------------------

/-
  The projects that two solutions do not have in common: first
  those of the left that the right lacks or has otherwise,
  then those that only the right has.
-/
def divergingProjects
    (left right : Solution) : List ProjectId :=
  (left.projects.toList.filter
    (fun entry =>
      (right.project? entry.1).map Project.checksum ≠
        some entry.2.checksum)).map Prod.fst ++
  right.projects.keys.filter
    (fun id => !left.containsProject id)

end Solution

end SnapTree
