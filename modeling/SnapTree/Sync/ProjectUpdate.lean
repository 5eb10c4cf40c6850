import SnapTree.Sync.DocumentPlan

/-
  This file defines how the projects of a solution are brought
  from a baseline to a target.  Projects that changed give up
  their references to projects first and get them back one by
  one, so that references of both sides never meet.

  Key definitions include:
    * `ProjectNodeMap`
    * `Synchronizer.newProjects`
    * `Synchronizer.updateProject`
    * `Synchronizer.updateProjects`
-/

namespace SnapTree

/- Project nodes by identity, listed in ascending order. -/
abbrev ProjectNodeMap : Type :=
  Std.ExtTreeMap ProjectId ProjectNode compare

/- The field that differs although it must not, if any does. -/
def ProjectAttributes.changedIdentity?
    (current next : ProjectAttributes) : Option ImmutableField :=
  if current.id ≠ next.id then some .projectId
  else if current.language ≠ next.language then
    some .projectLanguage
  else if current.isSubmission ≠ next.isSubmission then
    some .projectSubmission
  else none

namespace ProjectNode

/-
  The values that a changed project needs: attributes and
  options that differ, and the members of reference lists that
  differ.
-/
def changedValues
    (old new : ProjectNode) : List Checksum :=
  let one (a b : Checksum) : List Checksum :=
    if a ≠ b then [b] else []
  let many (a b : Collection) : List Checksum :=
    if a.checksum ≠ b.checksum then b.members else []
  one old.attributes new.attributes ++
    one old.compilationOptions new.compilationOptions ++
    one old.parseOptions new.parseOptions ++
    many old.projectReferences new.projectReferences ++
    many old.metadataReferences new.metadataReferences ++
    many old.analyzerReferences new.analyzerReferences

end ProjectNode

namespace Synchronizer

------------------------------------------------------------
-- The projects of the target
------------------------------------------------------------

/- Enter a project node under the identity it is about. -/
def enterProject
    (m : ProjectNodeMap)
    (node : ProjectNode) : SyncRun ProjectNodeMap := do
  let attributes : ProjectAttributes ← .cached node.attributes
  if m.contains attributes.id then
    throw (.protocolViolation (.repeatedProject attributes.id))
  pure (m.insert attributes.id node)

/- Fetch the nodes of projects and tell their identities. -/
def newProjects
    (sync : Synchronizer)
    (cs : List Checksum) : SyncRun ProjectNodeMap := do
  let nodes : List (Checksum × ProjectNode) ←
    .ofAssets (sync.link.getMany cs)
  sync.prefetch (nodes.map (fun n => n.2.attributes))
  (nodes.map Prod.snd).foldlM enterProject ∅

------------------------------------------------------------
-- Projects on both sides
------------------------------------------------------------

/- Give a project the attributes of the target. -/
def updateProjectAttributes
    (s : Solution)
    (id : ProjectId)
    (current : ProjectAttributes)
    (old new : Checksum) : SyncRun Solution := do
  if old = new then pure s
  else
    let next : ProjectAttributes ← .cached new
    if let some field := current.changedIdentity? next then
      throw (.protocolViolation (.projectField current.id field))
    .ofEdit (s.withProjectAttributes id next)

/- Give a project the options of the target. -/
def updateOptions
    (s : Solution)
    (id : ProjectId)
    (old new : ProjectNode) : SyncRun Solution := do
  let s ←
    if old.compilationOptions = new.compilationOptions then
      pure s
    else
      let options ← .cached new.compilationOptions
      .ofEdit (s.withCompilationOptions id options)
  if old.parseOptions = new.parseOptions then pure s
  else
    let options ← .cached new.parseOptions
    .ofEdit (s.withParseOptions id options)

/-
  Give a project the references of the target.  Those to
  projects are restored in any case.
-/
def updateReferences
    (s : Solution)
    (id : ProjectId)
    (before : Project)
    (old new : ProjectNode) : SyncRun Solution := do
  let s ←
    if old.projectReferences.checksum ≠
        new.projectReferences.checksum then
      let references ← cachedValues new.projectReferences
      .ofEdit (s.withProjectReferences id references)
    else if before.projectReferences.isEmpty then pure s
    else .ofEdit (s.withProjectReferencesOf id before)
  let s ←
    if old.metadataReferences.checksum ≠
        new.metadataReferences.checksum then
      let references ← metadataReferences new.metadataReferences
      .ofEdit (s.withMetadataReferences id references)
    else pure s
  if old.analyzerReferences.checksum ≠
      new.analyzerReferences.checksum then
    let references ← analyzerReferences new.analyzerReferences
    .ofEdit (s.withProjectAnalyzerReferences id references)
  else pure s

/- Plan what happens to the documents of the kinds that differ. -/
def planProject
    (sync : Synchronizer)
    (s : Solution)
    (id : ProjectId)
    (old new : ProjectNode) : SyncRun (List DocumentPlan) :=
  (DocumentKind.all.filter
    (fun kind =>
      (old.documents.get kind).checksum ≠
        (new.documents.get kind).checksum)).mapM
    (fun kind =>
      sync.planDocuments s id kind
        (old.documents.get kind) (new.documents.get kind))

/-
  Bring a project of both sides to the target.  All changed
  values but documents are fetched together.
-/
def updateProject
    (sync : Synchronizer)
    (o : SyncOutcome)
    (before : Project)
    (new : ProjectNode) : SyncRun SyncOutcome := do
  sync.checkCancelled
  let id := before.id
  let old := before.node
  sync.prefetch (old.changedValues new)
  let s ←
    updateProjectAttributes o.solution id before.attributes
      old.attributes new.attributes
  let s ← updateOptions s id old new
  let s ← updateReferences s id before old new
  let plans ← sync.planProject s id old new
  let o ← sync.updateDocuments id { o with solution := s } plans
  pure
    { o with
      report :=
        { o.report with
          projectsUpdated := o.report.projectsUpdated ++ [id] } }

------------------------------------------------------------
-- All projects
------------------------------------------------------------

/- Take the references to projects away from a project. -/
def stripReferences
    (s : Solution)
    (id : ProjectId) : SyncRun Solution :=
  match s.project? id with
  | none => pure s
  | some p =>
      if p.projectReferences.isEmpty then pure s
      else .ofEdit (s.withProjectReferences id [])

/- Remove a project that the target lacks. -/
def dropProject
    (o : SyncOutcome)
    (id : ProjectId) : SyncRun SyncOutcome := do
  let solution ← .ofEdit (o.solution.removeProject id)
  pure
    { solution
      report :=
        { o.report with
          projectsRemoved := o.report.projectsRemoved ++ [id] } }

/- Add a project that the baseline lacks, if it can be held. -/
def bringProject
    (sync : Synchronizer)
    (o : SyncOutcome)
    (entry : ProjectId × ProjectNode) : SyncRun SyncOutcome := do
  let (id, node) := entry
  sync.checkCancelled
  match ← sync.projectDescription node.checksum with
  | some d =>
      let solution ← .ofEdit (o.solution.addProject d)
      pure
        { solution
          report :=
            { o.report with
              documentsAdded :=
                o.report.documentsAdded +
                  node.allDocuments.length
              projectsAdded := o.report.projectsAdded ++ [id] } }
  | none =>
      let skipped ← skippedProject node.checksum
      pure
        { o with
          report :=
            { o.report with
              skippedProjects :=
                o.report.skippedProjects ++ [skipped] } }

/-
  Bring the projects of a solution to the target.  The trees
  of all projects that come are fetched together; projects
  then go, come and change, in this order.
-/
def updateProjects
    (sync : Synchronizer)
    (o : SyncOutcome)
    (old new : Collection) : SyncRun SyncOutcome := do
  sync.checkCancelled
  let difference ← Run.difference old.members new.members
  let before :=
    o.solution.projects.filter
      (fun _ p => difference.removedOnly.contains p.checksum)
  let after ← sync.newProjects difference.addedOnly.toList
  let coming :=
    after.toList.filter (fun entry => !before.contains entry.1)
  .ofAssets
    (sync.link.fetchProjects
      (coming.map (fun entry => entry.2.checksum)))
  let stripped ←
    (after.keys.filter (fun id => before.contains id)).foldlM
      stripReferences o.solution
  let o ←
    (before.keys.filter (fun id => !after.contains id)).foldlM
      dropProject { o with solution := stripped }
  let o ← coming.foldlM sync.bringProject o
  after.toList.foldlM
    (fun o entry =>
      match before[entry.1]? with
      | none => pure o
      | some p => sync.updateProject o p entry.2)
    o

end Synchronizer

end SnapTree
