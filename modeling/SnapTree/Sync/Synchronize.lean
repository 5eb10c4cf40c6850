import SnapTree.Sync.FromScratch
import SnapTree.Sync.ProjectUpdate

/-
  This file defines how a baseline is brought to a target that
  is known by its checksum: part by part, fetching only what
  differs, and comparing the result with what was asked for.

  Key definitions include:
    * `Synchronizer.isIncrementalUpdate`
    * `Synchronizer.validate`
    * `Synchronizer.synchronizeWithReport`
    * `Synchronizer.synchronize`
-/

namespace SnapTree

/-
  Whether attributes are those of another version of the same
  solution: identity and file path count.
-/
def Solution.sameLineage
    (s : Solution)
    (attributes : SolutionAttributes) : Bool :=
  s.id == attributes.id &&
    s.attributes.filePath == attributes.filePath

namespace Synchronizer

/- Whether a target is a version of the same solution. -/
def isIncrementalUpdate
    (sync : Synchronizer)
    (baseline : Solution)
    (target : Checksum) : SyncRun Bool := do
  let node : SolutionNode ← sync.fetch target
  let attributes : SolutionAttributes ←
    sync.fetch node.attributes
  pure (baseline.sameLineage attributes)

------------------------------------------------------------
-- Parts of a solution
------------------------------------------------------------

/- Give a solution the attributes of the target. -/
def updateSolutionAttributes
    (sync : Synchronizer)
    (s : Solution)
    (target : Checksum)
    (old new : Checksum) : SyncRun Solution := do
  if old = new then pure s
  else
    let attributes : SolutionAttributes ← sync.fetch new
    if attributes.id ≠ s.id then
      throw (.notIncremental s.id target .id)
    if !s.sameLineage attributes then
      throw (.notIncremental s.id target .filePath)
    .ofEdit (s.withAttributes attributes)

/- Give a solution the analyzer references of the target. -/
def updateSolutionAnalyzers
    (sync : Synchronizer)
    (s : Solution)
    (old new : Collection) : SyncRun Solution := do
  if old.checksum = new.checksum then pure s
  else
    let references ← sync.fetchAnalyzerReferences new
    pure (s.withAnalyzerReferences references)

/-
  Attach the frozen document of the target, unless its project
  is not present.
-/
def updateFrozen
    (sync : Synchronizer)
    (s : Solution)
    (new : SolutionNode) : SyncRun Solution := do
  match new.frozen? with
  | none => pure s
  | some (identity, text) =>
      let frozen ← sync.fetchFrozen identity text
      if s.containsProject frozen.identity.projectId then
        .ofEdit (s.withFrozen frozen)
      else pure s

------------------------------------------------------------
-- Validation
------------------------------------------------------------

/-
  Compare a result with the target.  If it differs, a solution
  built from scratch takes its place; if that differs too, the
  store contradicts itself.  A result without the projects
  that were left out cannot be compared.
-/
def validate
    (sync : Synchronizer)
    (o : SyncOutcome)
    (target : Checksum) : SyncRun SyncOutcome := do
  if !sync.settings.validate.isEnabled || o.report.isPartial then
    pure o
  else
    let report := { o.report with validated := true }
    if o.solution.checksum = target then
      pure { o with report }
    else
      let build ← sync.collect target
      let rebuilt ← .ofEdit build.solution
      if !build.skipped.isEmpty || rebuilt.checksum != target then
        throw (.inconsistent target rebuilt.checksum)
      pure
        { solution := rebuilt
          report := { report with usedFallback := true } }

------------------------------------------------------------
-- The whole run
------------------------------------------------------------

/- Bring a baseline to a target, its fetches not yet counted. -/
def bring
    (sync : Synchronizer)
    (baseline : Solution)
    (target : Checksum) : SyncRun SyncOutcome := do
  sync.checkCancelled
  let report : SyncReport :=
    { baseline := baseline.checksum, target }
  if baseline.checksum = target then
    pure
      { solution := baseline
        report := { report with upToDate := true } }
  else
    let s := baseline.withoutFrozen
    let old := s.node
    let new : SolutionNode ← sync.fetch target
    let s ←
      sync.updateSolutionAttributes s target
        old.attributes new.attributes
    let o : SyncOutcome := { solution := s, report }
    let o ←
      if old.projects.checksum = new.projects.checksum then
        pure o
      else sync.updateProjects o old.projects new.projects
    let s ←
      sync.updateSolutionAnalyzers o.solution
        old.analyzerReferences new.analyzerReferences
    let s ← sync.updateFrozen s new
    sync.validate { o with solution := s } target

/- Bring a baseline to a target and report what was done. -/
def synchronizeWithReport
    (sync : Synchronizer)
    (baseline : Solution)
    (target : Checksum) : SyncRun SyncOutcome := do
  let before := (← get).counts
  let o ← sync.bring baseline target
  let after := (← get).counts
  pure
    { o with
      report := { o.report with fetch := after.since before } }

/- Bring a baseline to a target. -/
def synchronize
    (sync : Synchronizer)
    (baseline : Solution)
    (target : Checksum) : SyncRun Solution := do
  return (← sync.synchronizeWithReport baseline target).solution

end Synchronizer

end SnapTree
