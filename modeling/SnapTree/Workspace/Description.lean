import SnapTree.Content.Document
import SnapTree.Content.Project
import SnapTree.Content.Solution

/-
  This file defines descriptions: complete accounts of
  documents, projects and solutions, from which snapshots are
  made.  A description may be one that no snapshot answers to.

  Key definitions include:
    * `DocumentDescription`
    * `ProjectDescription`
    * `SolutionDescription`
-/

namespace SnapTree

/- A document and its text. -/
structure DocumentDescription where
  attributes : DocumentAttributes
  text : String
deriving DecidableEq

/- A project with its options, references and documents. -/
structure ProjectDescription where
  attributes : ProjectAttributes
  compilationOptions : CompilationOptions := {}
  parseOptions : ParseOptions := {}
  documents : ByKind (List DocumentDescription) := ⟨[], [], []⟩
  projectReferences : List ProjectReference := []
  metadataReferences : List MetadataReference := []
  analyzerReferences : List AnalyzerReference := []
deriving DecidableEq

/- A solution with its projects. -/
structure SolutionDescription where
  attributes : SolutionAttributes
  projects : List ProjectDescription := []
  analyzerReferences : List AnalyzerReference := []
deriving DecidableEq

end SnapTree
