import SnapTree.Content.Identity

/-
  This file defines what is said about a solution as such.

  Key definitions include:
    * `SolutionAttributes`
-/

namespace SnapTree

/- What is said about a solution as such. -/
structure SolutionAttributes where
  id : SolutionId
  filePath : Option String
  version : UInt64
deriving DecidableEq

end SnapTree
