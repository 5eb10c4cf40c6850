import SnapTree.Storage.AssetError
import SnapTree.Workspace.EditError

/-
  This file defines why a synchronization could not reach its
  target.

  Key definitions include:
    * `DocumentField`
    * `Violation`
    * `LineageBreak`
    * `SyncError`
    * `SyncError.message`
-/

namespace SnapTree

/- The fields that stay the same as long as a document lives. -/
inductive DocumentField where
  | id
  | name
  | filePath
  | isGenerated
  | designTimeOnly
deriving DecidableEq

namespace DocumentField

/- The name of a field. -/
def text : DocumentField → String
  | .id => "id"
  | .name => "name"
  | .filePath => "file_path"
  | .isGenerated => "is_generated"
  | .designTimeOnly => "design_time_only"

end DocumentField

/- How a target can break the rules of checksum trees. -/
inductive Violation where
  | unsatisfied (cause : AssetError)
  | repeatedProject (id : ProjectId)
  | repeatedDocument (id : DocumentId)
  | projectField (id : ProjectId) (field : ImmutableField)
  | documentField (id : DocumentId) (field : DocumentField)
deriving DecidableEq

namespace Violation

/- The text of a violation. -/
def message : Violation → String
  | .unsatisfied _ =>
      "asset store cannot satisfy the checksum tree"
  | .repeatedProject id =>
      s!"project {id} appears twice in the target"
  | .repeatedDocument id =>
      s!"document {id} appears twice in one collection"
  | .projectField id field =>
      s!"project {id} changed immutable field '{field.name}'"
  | .documentField id field =>
      s!"document {id} changed immutable field '{field.text}'"

/- The asset error behind a violation, if there is one. -/
def cause? : Violation → Option AssetError
  | .unsatisfied cause => some cause
  | _ => none

end Violation

/- Why a target does not continue a baseline. -/
inductive LineageBreak where
  | id
  | filePath
deriving DecidableEq

namespace LineageBreak

/- The text for a broken lineage. -/
def message : LineageBreak → String
  | .id => "solution id changed"
  | .filePath => "solution file path changed"

end LineageBreak

/-
  Why a synchronization could not reach its target.  All but
  `cancelled` are fatal: store and caller disagree.
-/
inductive SyncError where
  | protocolViolation (violation : Violation)
  | notIncremental
      (solution : SolutionId)
      (target : Checksum)
      (reason : LineageBreak)
  | edit (error : EditError)
  | inconsistent (expected actual : Checksum)
  | cancelled
deriving DecidableEq

namespace SyncError

/- An asset error, as it concerns a synchronization. -/
def ofAsset : AssetError → SyncError
  | .cancelled => .cancelled
  | cause => .protocolViolation (.unsatisfied cause)

/- Whether the caller has to stop using the store. -/
def isFatal
    (e : SyncError) : Bool :=
  e != .cancelled

/- The text of a synchronization error. -/
def message : SyncError → String
  | .protocolViolation violation =>
      s!"protocol violation: {violation.message}"
  | .notIncremental solution target reason =>
      s!"{target} is not an incremental update of " ++
        s!"solution {solution}: {reason.message}"
  | .edit error =>
      s!"snapshot update failed: {error.message}"
  | .inconsistent expected actual =>
      s!"rebuilt solution hashes to {actual}, requested {expected}"
  | .cancelled => "synchronization cancelled"

end SyncError

end SnapTree
