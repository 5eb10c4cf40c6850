import SnapTree.Content.Document

/-
  This file defines why a snapshot could not be made or
  changed.

  Key definitions include:
    * `ImmutableField`
    * `OrdinaryChange`
    * `EditError`
    * `EditError.message`
-/

namespace SnapTree

/- The fields that stay as they were when a node was made. -/
inductive ImmutableField where
  | solutionId
  | projectId
  | projectLanguage
  | projectSubmission
deriving DecidableEq

namespace ImmutableField

/- The node that a field belongs to. -/
def node : ImmutableField → String
  | .solutionId => "solution"
  | .projectId => "project"
  | .projectLanguage => "project"
  | .projectSubmission => "project"

/- The name of a field within its node. -/
def name : ImmutableField → String
  | .solutionId => "id"
  | .projectId => "id"
  | .projectLanguage => "language"
  | .projectSubmission => "is_submission"

end ImmutableField

/- The changes that only ordinary documents allow. -/
inductive OrdinaryChange where
  | folders
  | sourceKind
deriving DecidableEq

namespace OrdinaryChange

/- What a change does. -/
def description : OrdinaryChange → String
  | .folders => "change folders"
  | .sourceKind => "change source kind"

end OrdinaryChange

/- Why a snapshot could not be made or changed. -/
inductive EditError where
  | unknownProject (id : ProjectId)
  | duplicateProject (id : ProjectId)
  | unknownDocument (project : ProjectId) (id : DocumentId)
  | duplicateDocument (project : ProjectId) (id : DocumentId)
  | cyclicReference (project : ProjectId)
  | immutableField (field : ImmutableField)
  | wrongDocumentKind
      (id : DocumentId)
      (kind : DocumentKind)
      (change : OrdinaryChange)
deriving DecidableEq

namespace EditError

/- The text of an edit error. -/
def message : EditError → String
  | .unknownProject id =>
      s!"project {id} is not part of the solution"
  | .duplicateProject id =>
      s!"project {id} is already part of the solution"
  | .unknownDocument project id =>
      s!"document {id} is not part of project {project}"
  | .duplicateDocument project id =>
      s!"document {id} is already part of project {project}"
  | .cyclicReference project =>
      s!"project references of {project} would form a cycle"
  | .immutableField field =>
      s!"{field.node} field '{field.name}' cannot change once created"
  | .wrongDocumentKind id kind change =>
      s!"cannot {change.description} on {kind.name} document {id}"

end EditError

end SnapTree
