import SnapTree.Workspace.Document
import SnapTree.Workspace.EditError
import Std.Data.ExtTreeMap

/-
  This file defines the projects of a snapshot and the changes
  to them.  A document of a project is in exactly one of three
  maps, one for each kind.

  Key definitions include:
    * `DocumentMap`
    * `Project`
    * `Project.ofDescription`
    * `Project.describe`
    * `Project.node`
    * `Project.addDocuments`
    * `Project.removeDocuments`
    * `Project.putDocument`
-/

namespace SnapTree

/- Documents by identity, listed in ascending order. -/
abbrev DocumentMap : Type :=
  Std.ExtTreeMap DocumentId Document compare

namespace DocumentMap

/- The documents of a map in the order of their identities. -/
def documents
    (m : DocumentMap) : List Document :=
  m.toList.map Prod.snd

/-
  Add the documents of descriptions to a map, one by one.  An
  identity that is taken is refused.
-/
def extend
    (project : ProjectId)
    (kind : DocumentKind)
    (m : DocumentMap)
    (descriptions : List DocumentDescription) :
    Except EditError DocumentMap :=
  descriptions.foldlM
    (fun m d =>
      if m.contains d.attributes.id then
        .error (.duplicateDocument project d.attributes.id)
      else
        .ok (m.insert d.attributes.id (.ofDescription kind d)))
    m

end DocumentMap

/- A project of a snapshot. -/
structure Project where
  attributes : ProjectAttributes
  compilationOptions : CompilationOptions
  parseOptions : ParseOptions
  projectReferences : List ProjectReference
  metadataReferences : List MetadataReference
  analyzerReferences : List AnalyzerReference
  documents : ByKind DocumentMap

namespace Project

------------------------------------------------------------
-- Queries
------------------------------------------------------------

/- The identity of a project. -/
def id
    (p : Project) : ProjectId :=
  p.attributes.id

/- The documents of one kind in the order of their identities. -/
def documentsOf
    (p : Project)
    (kind : DocumentKind) : List Document :=
  DocumentMap.documents (p.documents.get kind)

/- A document of any kind. -/
def document?
    (p : Project)
    (id : DocumentId) : Option Document :=
  DocumentKind.all.findSome?
    (fun kind => (p.documents.get kind)[id]?)

/- Whether a document of any kind has an identity. -/
def containsDocument
    (p : Project)
    (id : DocumentId) : Bool :=
  (p.document? id).isSome

/- The documents of all kinds, kind by kind. -/
def allDocuments
    (p : Project) : List Document :=
  DocumentKind.all.flatMap p.documentsOf

/- The number of documents of all kinds. -/
def documentCount
    (p : Project) : Nat :=
  p.allDocuments.length

------------------------------------------------------------
-- Descriptions
------------------------------------------------------------

/-
  Give a project its documents of one kind.  Identities may
  not repeat, neither within a kind nor across kinds.
-/
def fill
    (p : Project)
    (kind : DocumentKind)
    (descriptions : List DocumentDescription) :
    Except EditError Project := do
  let map ← DocumentMap.extend p.id kind ∅ descriptions
  match map.keys.find? p.containsDocument with
  | some id => .error (.duplicateDocument p.id id)
  | none =>
      .ok { p with documents := p.documents.set kind map }

/- The project that a description gives. -/
def ofDescription
    (d : ProjectDescription) : Except EditError Project :=
  DocumentKind.all.foldlM
    (fun p kind => p.fill kind (d.documents.get kind))
    { attributes := d.attributes
      compilationOptions := d.compilationOptions
      parseOptions := d.parseOptions
      projectReferences := d.projectReferences
      metadataReferences := d.metadataReferences
      analyzerReferences := d.analyzerReferences
      documents := ⟨∅, ∅, ∅⟩ }

/- The description of a project. -/
def describe
    (p : Project) : ProjectDescription where
  attributes := p.attributes
  compilationOptions := p.compilationOptions
  parseOptions := p.parseOptions
  documents :=
    .ofFn (fun kind => (p.documentsOf kind).map Document.describe)
  projectReferences := p.projectReferences
  metadataReferences := p.metadataReferences
  analyzerReferences := p.analyzerReferences

------------------------------------------------------------
-- Checksums
------------------------------------------------------------

/- The node of a project in the checksum tree. -/
def node
    (p : Project) : ProjectNode :=
  ProjectNode.sealed
    { checksum := Checksum.null
      attributes := AssetValue.checksum p.attributes
      compilationOptions := AssetValue.checksum p.compilationOptions
      parseOptions := AssetValue.checksum p.parseOptions
      documents :=
        .ofFn (fun kind =>
          Collection.of (.documents kind)
            ((p.documentsOf kind).map Document.checksum))
      projectReferences :=
        Collection.of .projectReferences
          (p.projectReferences.map AssetValue.checksum)
      metadataReferences :=
        Collection.of .metadataReferences
          (p.metadataReferences.map AssetValue.checksum)
      analyzerReferences :=
        Collection.of .analyzerReferences
          (p.analyzerReferences.map AssetValue.checksum) }

/- The checksum of a project. -/
def checksum
    (p : Project) : Checksum :=
  p.node.checksum

------------------------------------------------------------
-- Changes
------------------------------------------------------------

/-
  Replace the attributes.  Identity, language and whether the
  project is a submission stay as they are.
-/
def withAttributes
    (p : Project)
    (attributes : ProjectAttributes) : Except EditError Project :=
  if attributes.id ≠ p.attributes.id then
    .error (.immutableField .projectId)
  else if attributes.language ≠ p.attributes.language then
    .error (.immutableField .projectLanguage)
  else if attributes.isSubmission ≠ p.attributes.isSubmission then
    .error (.immutableField .projectSubmission)
  else .ok { p with attributes }

/- Add documents of one kind, all of them or none. -/
def addDocuments
    (p : Project)
    (kind : DocumentKind)
    (descriptions : List DocumentDescription) :
    Except EditError Project := do
  match descriptions.find?
      (fun d => p.containsDocument d.attributes.id) with
  | some d => .error (.duplicateDocument p.id d.attributes.id)
  | none =>
      let map ←
        DocumentMap.extend p.id kind
          (p.documents.get kind) descriptions
      .ok { p with documents := p.documents.set kind map }

/- Remove documents of one kind, all of them or none. -/
def removeDocuments
    (p : Project)
    (kind : DocumentKind)
    (ids : List DocumentId) : Except EditError Project :=
  let map := p.documents.get kind
  match ids.find? (fun id => !map.contains id) with
  | some id => .error (.unknownDocument p.id id)
  | none =>
      .ok
        { p with
          documents :=
            p.documents.set kind
              (ids.foldl (fun m id => m.erase id) map) }

/- Put a document in the place of the one with its identity. -/
def putDocument
    (p : Project)
    (d : Document) : Project :=
  { p with
    documents :=
      p.documents.set d.kind
        ((p.documents.get d.kind).insert d.id d) }

end Project

end SnapTree
