import SnapTree.Manifest.ManifestError
import SnapTree.Manifest.Section
import SnapTree.Workspace.Solution

/-
  This file defines the solution that a manifest describes.
  Identities are made from the path of the solution, the names
  of projects and the paths of documents, so the same names
  give the same identities every time.

  Key definitions include:
    * `Files`
    * `Manifest.projectId`
    * `ProjectSection.document`
    * `Manifest.project`
    * `Manifest.describe`
    * `Manifest.frozenDocument`
    * `Manifest.build`
    * `Manifest.paths`
-/

namespace SnapTree

/- What is read at each path. -/
abbrev Files : Type :=
  Path → Except FileError String

/- The text of the file at a path. -/
def Files.text
    (files : Files)
    (p : Path) : Except ManifestError String :=
  match files p with
  | .ok text => .ok text
  | .error e => .error (.unreadable p e)

------------------------------------------------------------
-- Identities
------------------------------------------------------------

namespace Manifest

/- The path of the solution, as it is recorded. -/
def solutionPath
    (m : Manifest) : String :=
  (Path.mk m.solution.path).portable

/- The identity of the solution. -/
def solutionId
    (m : Manifest) : SolutionId :=
  .ofName Uuid.urlNamespace m.solutionPath

/- The identity of the project of a name. -/
def projectId
    (m : Manifest)
    (name : String) : ProjectId :=
  .ofName m.solutionId.uuid name

/- Whether a project of this name is described. -/
def describes
    (m : Manifest)
    (name : String) : Bool :=
  m.projects.any (fun p => p.name == name)

end Manifest

/- The first text in a list that occurred before. -/
def firstRepeated?
    (met : List String) : List String → Option String
  | [] => none
  | name :: rest =>
      if met.contains name then some name
      else firstRepeated? (name :: met) rest

------------------------------------------------------------
-- Documents
------------------------------------------------------------

namespace ProjectSection

/-
  The directory that the documents of a project are in: that
  of the project file, or else the one named as the project.
-/
def directory
    (p : ProjectSection) : Path :=
  match p.path with
  | none => ⟨p.name⟩
  | some path => ((Path.mk path).parent?).getD ""

/-
  The path of a document must be relative, must not lead
  upward and must end in a name.
-/
def fileName
    (path : Path) : Except ManifestError String :=
  if path.isAbsolute || path.components.contains .up then
    .error (.outsideDirectory path)
  else
    match path.fileName? with
    | none => .error (.noFileName path)
    | some name => .ok name

/- The path of a document as it is recorded. -/
def recordedPath
    (p : ProjectSection)
    (path : Path) : String :=
  (p.directory.join path).portable

/- The identity of a document. -/
def documentId
    (p : ProjectSection)
    (id : ProjectId)
    (kind : DocumentKind)
    (path : Path) : DocumentId :=
  .ofName id.uuid s!"{kind.name}:{p.recordedPath path}"

/- A document of a project, read from its file. -/
def document
    (p : ProjectSection)
    (id : ProjectId)
    (files : Files)
    (root : Path)
    (kind : DocumentKind)
    (path : Path) : Except ManifestError DocumentDescription := do
  let name ← fileName path
  let text ← files.text ((root.join p.directory).join path)
  .ok
    { attributes :=
        { id := p.documentId id kind path
          name
          folders := (path.parent?.map Path.names).getD []
          filePath := some (p.recordedPath path) }
      text }

/- The documents of a project of one kind. -/
def documentsOf
    (p : ProjectSection)
    (id : ProjectId)
    (files : Files)
    (root : Path)
    (kind : DocumentKind) :
    Except ManifestError (List DocumentDescription) :=
  (p.documents.get kind).mapM
    (fun path => p.document id files root kind ⟨path⟩)

------------------------------------------------------------
-- Projects
------------------------------------------------------------

/- What is said about a project. -/
def attributes
    (p : ProjectSection)
    (id : ProjectId) : ProjectAttributes :=
  { id
    language := p.language
    name := p.name
    assemblyName := p.assemblyName.getD p.name
    filePath := p.path.map (fun path => (Path.mk path).portable)
    defaultNamespace := p.defaultNamespace }

/- How a project is compiled. -/
def compilationOptions
    (p : ProjectSection) : CompilationOptions :=
  let standard : CompilationOptions := {}
  { standard with
    outputKind := p.outputKind.getD standard.outputKind
    optimize := p.optimize
    allowUnsafe := p.allowUnsafe }

/- How the documents of a project are parsed. -/
def parseOptions
    (p : ProjectSection) : ParseOptions :=
  let standard : ParseOptions := {}
  { standard with
    languageVersion :=
      p.languageVersion.getD standard.languageVersion
    preprocessorSymbols := p.preprocessorSymbols }

end ProjectSection

namespace Manifest

/- The reference of a project to another one by its name. -/
def reference
    (m : Manifest)
    (p : ProjectSection)
    (target : String) : Except ManifestError ProjectReference :=
  if m.describes target then
    .ok { projectId := m.projectId target }
  else .error (.unknownReference p.name target)

/- A project with its documents, read from their files. -/
def project
    (m : Manifest)
    (files : Files)
    (root : Path)
    (p : ProjectSection) :
    Except ManifestError ProjectDescription := do
  let id := m.projectId p.name
  let projectReferences ← p.references.mapM (m.reference p)
  let ordinary ← p.documentsOf id files root .ordinary
  let additional ← p.documentsOf id files root .additional
  let analyzerConfig ←
    p.documentsOf id files root .analyzerConfig
  .ok
    { attributes := p.attributes id
      compilationOptions := p.compilationOptions
      parseOptions := p.parseOptions
      documents := ⟨ordinary, additional, analyzerConfig⟩
      projectReferences
      metadataReferences :=
        p.metadataReferences.map
          (fun display => { display })
      analyzerReferences :=
        p.analyzerReferences.map AnalyzerReference.ofPath }

------------------------------------------------------------
-- Solutions
------------------------------------------------------------

/- The solution without its frozen document. -/
def describe
    (m : Manifest)
    (files : Files)
    (root : Path) : Except ManifestError SolutionDescription := do
  match firstRepeated? [] (m.projects.map ProjectSection.name) with
  | some name => .error (.repeatedName name)
  | none =>
      let projects ← m.projects.mapM (m.project files root)
      .ok
        { attributes :=
            { id := m.solutionId
              filePath := some m.solutionPath
              version := UInt64.ofNat m.solution.version }
          projects
          analyzerReferences :=
            m.solution.analyzerReferences.map
              AnalyzerReference.ofPath }

/- A frozen document, read from its file. -/
def frozenDocument
    (m : Manifest)
    (files : Files)
    (root : Path)
    (f : FrozenSection) : Except ManifestError FrozenDocument := do
  if !m.describes f.project then
    .error (.unknownFrozenProject f.project)
  let projectId := m.projectId f.project
  let filePath := (Path.mk f.path).portable
  let text ← files.text (root.join f.path)
  .ok
    { identity :=
        { documentId := .ofName projectId.uuid s!"frozen:{filePath}"
          projectId
          hintName := f.hintName
          filePath }
      text }

/- The solution, its files read relative to a directory. -/
def build
    (m : Manifest)
    (files : Files)
    (root : Path) : Except ManifestError Solution := do
  let description ← m.describe files root
  let s ←
    (Solution.ofDescription description).mapError .edit
  match m.frozen with
  | none => .ok s
  | some f =>
      let frozen ← m.frozenDocument files root f
      (s.withFrozen frozen).mapError .edit

/- The paths that are read when a solution is built. -/
def paths
    (m : Manifest)
    (root : Path) : List Path :=
  m.projects.flatMap
    (fun p =>
      p.documents.toList.flatten.map
        (fun path => (root.join p.directory).join ⟨path⟩)) ++
  m.frozen.toList.map (fun f => root.join f.path)

end Manifest

end SnapTree
