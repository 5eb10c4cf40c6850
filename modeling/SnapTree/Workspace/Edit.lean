import SnapTree.Workspace.Solution

/-
  This file defines edits: the changes to a snapshot as data,
  so that a history of changes is a list.

  Key definitions include:
    * `Edit`
    * `Solution.apply`
    * `Solution.applyAll`
-/

namespace SnapTree

/- A change to a snapshot. -/
inductive Edit where
  | attributes (attributes : SolutionAttributes)
  | analyzerReferences (references : List AnalyzerReference)
  | addProject (description : ProjectDescription)
  | removeProject (project : ProjectId)
  | projectAttributes
      (project : ProjectId)
      (attributes : ProjectAttributes)
  | compilationOptions
      (project : ProjectId)
      (options : CompilationOptions)
  | parseOptions
      (project : ProjectId)
      (options : ParseOptions)
  | projectReferences
      (project : ProjectId)
      (references : List ProjectReference)
  | projectReferencesOf
      (project : ProjectId)
      (source : Project)
  | metadataReferences
      (project : ProjectId)
      (references : List MetadataReference)
  | projectAnalyzerReferences
      (project : ProjectId)
      (references : List AnalyzerReference)
  | addDocuments
      (project : ProjectId)
      (kind : DocumentKind)
      (descriptions : List DocumentDescription)
  | removeDocuments
      (project : ProjectId)
      (kind : DocumentKind)
      (ids : List DocumentId)
  | documentText
      (project : ProjectId)
      (document : DocumentId)
      (text : String)
  | documentFolders
      (project : ProjectId)
      (document : DocumentId)
      (folders : List String)
  | documentSourceKind
      (project : ProjectId)
      (document : DocumentId)
      (sourceKind : SourceKind)
  | attachFrozen (frozen : FrozenDocument)
  | detachFrozen

namespace Solution

/- Carry out one edit. -/
def apply
    (s : Solution) : Edit → Except EditError Solution
  | .attributes a => s.withAttributes a
  | .analyzerReferences rs => .ok (s.withAnalyzerReferences rs)
  | .addProject d => s.addProject d
  | .removeProject p => s.removeProject p
  | .projectAttributes p a => s.withProjectAttributes p a
  | .compilationOptions p o => s.withCompilationOptions p o
  | .parseOptions p o => s.withParseOptions p o
  | .projectReferences p rs => s.withProjectReferences p rs
  | .projectReferencesOf p source =>
      s.withProjectReferencesOf p source
  | .metadataReferences p rs => s.withMetadataReferences p rs
  | .projectAnalyzerReferences p rs =>
      s.withProjectAnalyzerReferences p rs
  | .addDocuments p kind ds => s.addDocuments p kind ds
  | .removeDocuments p kind ids => s.removeDocuments p kind ids
  | .documentText p d text => s.withDocumentText p d text
  | .documentFolders p d folders =>
      s.withDocumentFolders p d folders
  | .documentSourceKind p d kind =>
      s.withDocumentSourceKind p d kind
  | .attachFrozen frozen => s.withFrozen frozen
  | .detachFrozen => .ok s.withoutFrozen

/- Carry out edits in order; the first error stops. -/
def applyAll
    (s : Solution)
    (edits : List Edit) : Except EditError Solution :=
  edits.foldlM apply s

end Solution

end SnapTree
