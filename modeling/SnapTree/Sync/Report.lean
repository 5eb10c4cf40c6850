import SnapTree.Exchange.Session
import SnapTree.Workspace.Solution

/-
  This file defines the report on what a synchronization did.

  Key definitions include:
    * `SkippedProject`
    * `SyncReport`
    * `SyncOutcome`
-/

namespace SnapTree

/- A project of the target that cannot be held here. -/
structure SkippedProject where
  id : ProjectId
  name : String
  language : String
deriving DecidableEq

/- What a synchronization did, in the order it was done. -/
structure SyncReport where
  baseline : Checksum
  target : Checksum
  upToDate : Bool := false
  projectsAdded : List ProjectId := []
  projectsRemoved : List ProjectId := []
  projectsUpdated : List ProjectId := []
  documentsAdded : Nat := 0
  documentsRemoved : Nat := 0
  documentsUpdated : Nat := 0
  skippedProjects : List SkippedProject := []
  validated : Bool := false
  usedFallback : Bool := false
  fetch : FetchCounts := {}
deriving DecidableEq

namespace SyncReport

/- Whether projects of the target were left out. -/
def isPartial
    (r : SyncReport) : Bool :=
  !r.skippedProjects.isEmpty

/- The number of projects that were touched. -/
def changedProjects
    (r : SyncReport) : Nat :=
  r.projectsAdded.length + r.projectsRemoved.length +
    r.projectsUpdated.length

end SyncReport

/-
  A solution on its way to the target, and the report on what
  was done so far; at the end, the result.
-/
structure SyncOutcome where
  solution : Solution
  report : SyncReport

end SnapTree
