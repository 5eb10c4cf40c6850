import SnapTree.Sync.Materialize

/-
  This file defines how a solution is built from nothing but
  the store that holds its checksum tree.

  Key definitions include:
    * `ScratchBuild`
    * `Synchronizer.collect`
    * `ScratchBuild.solution`
    * `Synchronizer.createDescription`
    * `Synchronizer.createSolution`
-/

namespace SnapTree

/- Everything a store says about a solution. -/
structure ScratchBuild where
  description : SolutionDescription
  frozen : Option FrozenDocument
  skipped : List SkippedProject

namespace ScratchBuild

/-
  The solution of a build.  A frozen document is attached if
  its project is present.
-/
def solution
    (b : ScratchBuild) : Except EditError Solution := do
  let s ← Solution.ofDescription b.description
  match b.frozen with
  | some frozen =>
      if s.containsProject frozen.identity.projectId then
        s.withFrozen frozen
      else .ok s
  | none => .ok s

end ScratchBuild

namespace Synchronizer

/- A project that can be held here, or one that is left out. -/
def collectProject
    (sync : Synchronizer)
    (c : Checksum) :
    SyncRun (ProjectDescription ⊕ SkippedProject) := do
  sync.checkCancelled
  match ← sync.projectDescription c with
  | some d => pure (.inl d)
  | none => .inr <$> skippedProject c

/-
  Everything the store says about the solution of a target.
  The trees of all projects are fetched level by level first.
-/
def collect
    (sync : Synchronizer)
    (target : Checksum) : SyncRun ScratchBuild := do
  let node : SolutionNode ← sync.fetch target
  let attributes : SolutionAttributes ←
    sync.fetch node.attributes
  .ofAssets (sync.link.fetchProjects node.projects.members)
  let found ← node.projects.members.mapM sync.collectProject
  let analyzerReferences ←
    sync.fetchAnalyzerReferences node.analyzerReferences
  let frozen ←
    match node.frozen? with
    | some (identity, text) =>
        some <$> sync.fetchFrozen identity text
    | none => pure none
  pure
    { description :=
        { attributes
          projects := found.filterMap Sum.getLeft?
          analyzerReferences }
      frozen
      skipped := found.filterMap Sum.getRight? }

/- The description of the solution stored under a target. -/
def createDescription
    (sync : Synchronizer)
    (target : Checksum) : SyncRun SolutionDescription := do
  return (← sync.collect target).description

/- The solution stored under a target, built from scratch. -/
def createSolution
    (sync : Synchronizer)
    (target : Checksum) : SyncRun Solution := do
  .ofEdit (← sync.collect target).solution

end Synchronizer

end SnapTree
