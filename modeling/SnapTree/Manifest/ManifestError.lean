import SnapTree.Storage.FileTree
import SnapTree.Workspace.EditError

/-
  This file defines why a manifest does not describe a
  solution.

  Key definitions include:
    * `ManifestError`
    * `ManifestError.texts`
-/

namespace SnapTree

/- Why a manifest does not describe a solution. -/
inductive ManifestError where
  | repeatedName (project : String)
  | unknownReference (project target : String)
  | outsideDirectory (document : Path)
  | noFileName (document : Path)
  | unreadable (file : Path) (error : FileError)
  | unknownFrozenProject (project : String)
  | edit (error : EditError)
deriving DecidableEq

namespace ManifestError

/- The texts of a manifest error, from what to why. -/
def texts : ManifestError → List String
  | .repeatedName project =>
      [s!"Duplicate project name '{project}'"]
  | .unknownReference project target =>
      [s!"Project '{project}' references unknown project " ++
        s!"'{target}'"]
  | .outsideDirectory document =>
      [s!"Document path '{document}' must stay inside its " ++
        "project directory"]
  | .noFileName document =>
      [s!"Document path '{document}' has no file name"]
  | .unreadable file error =>
      [s!"Failed to read {file}", error.message]
  | .unknownFrozenProject project =>
      ["Frozen document names unknown project " ++
        s!"'{project}'"]
  | .edit error => [error.message]

end ManifestError

end SnapTree
