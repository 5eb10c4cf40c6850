import SnapTree.Sync.Materialize

/-
  This file defines how the documents of one project are
  brought from a baseline to a target.  What is to be done is
  planned for every kind before any document is touched, and
  removals of all kinds come before additions, so that a
  document may move from one kind to another.

  Key definitions include:
    * `DocumentPlan`
    * `Synchronizer.planDocuments`
    * `Synchronizer.updateDocument`
    * `Synchronizer.fetchInBulk`
    * `Synchronizer.placeDocuments`
    * `Synchronizer.updateDocuments`
-/

namespace SnapTree

/- Document nodes by identity, listed in ascending order. -/
abbrev DocumentNodeMap : Type :=
  Std.ExtTreeMap DocumentId DocumentNode compare

/-
  The documents of one kind that the baseline has and the
  target does not have as they are, and the other way round.
-/
structure DocumentPlan where
  kind : DocumentKind
  old : DocumentMap
  new : DocumentNodeMap

namespace DocumentPlan

/- The documents that go. -/
def removed
    (plan : DocumentPlan) : List DocumentId :=
  plan.old.keys.filter (fun id => !plan.new.contains id)

/- The documents that come. -/
def added
    (plan : DocumentPlan) : List DocumentNode :=
  (plan.new.toList.filter
    (fun entry => !plan.old.contains entry.1)).map Prod.snd

/- The documents that change. -/
def changed
    (plan : DocumentPlan) :
    List (DocumentId × Document × DocumentNode) :=
  plan.new.toList.filterMap
    (fun entry =>
      (plan.old[entry.1]?).map
        (fun old => (entry.1, old, entry.2)))

end DocumentPlan

/- The field that differs although it must not, if any does. -/
def DocumentAttributes.changedIdentity?
    (current next : DocumentAttributes) : Option DocumentField :=
  if current.id ≠ next.id then some .id
  else if current.name ≠ next.name then some .name
  else if current.filePath ≠ next.filePath then some .filePath
  else if current.isGenerated ≠ next.isGenerated then
    some .isGenerated
  else if current.designTimeOnly ≠ next.designTimeOnly then
    some .designTimeOnly
  else none

namespace Synchronizer

------------------------------------------------------------
-- Planning
------------------------------------------------------------

/- Enter a document node under the identity it is about. -/
def enterDocument
    (m : DocumentNodeMap)
    (node : DocumentNode) : SyncRun DocumentNodeMap := do
  let attributes : DocumentAttributes ← .cached node.attributes
  if m.contains attributes.id then
    throw (.protocolViolation (.repeatedDocument attributes.id))
  pure (m.insert attributes.id node)

/- Fetch the nodes of documents and tell their identities. -/
def newDocuments
    (sync : Synchronizer)
    (cs : List Checksum) : SyncRun DocumentNodeMap := do
  let nodes : List (Checksum × DocumentNode) ←
    .ofAssets (sync.link.getMany cs)
  sync.prefetch (nodes.map (fun n => n.2.attributes))
  (nodes.map Prod.snd).foldlM enterDocument ∅

/- Plan what happens to the documents of one kind. -/
def planDocuments
    (sync : Synchronizer)
    (s : Solution)
    (project : ProjectId)
    (kind : DocumentKind)
    (old new : Collection) : SyncRun DocumentPlan := do
  sync.checkCancelled
  let difference ← Run.difference old.members new.members
  match s.project? project with
  | none => throw (.edit (.unknownProject project))
  | some p =>
      let old :=
        (p.documents.get kind).filter
          (fun _ d => difference.removedOnly.contains d.checksum)
      let new ← sync.newDocuments difference.addedOnly.toList
      pure { kind, old, new }

------------------------------------------------------------
-- Carrying out
------------------------------------------------------------

/-
  Give a document the attributes of the target.  Folders and
  source kind of an ordinary document change in place; a
  document of another kind is removed and added again, with
  the text of the target.  The result says if it was.
-/
def updateAttributes
    (sync : Synchronizer)
    (s : Solution)
    (project : ProjectId)
    (id : DocumentId)
    (new : DocumentNode) : SyncRun (Solution × Bool) := do
  let next : DocumentAttributes ← sync.fetch new.attributes
  match s.document? project id with
  | none => throw (.edit (.unknownDocument project id))
  | some d =>
      let current := d.attributes
      if let some field := current.changedIdentity? next then
        throw (.protocolViolation (.documentField current.id field))
      if d.kind ≠ .ordinary ∧
          (current.folders ≠ next.folders ∨
            current.sourceKind ≠ next.sourceKind) then
        let text : String ← sync.fetch new.text
        let s ← .ofEdit (s.removeDocuments project d.kind [id])
        let s ← .ofEdit (s.addDocuments project d.kind [⟨next, text⟩])
        pure (s, true)
      else
        let s ←
          if current.folders ≠ next.folders then
            .ofEdit (s.withDocumentFolders project id next.folders)
          else pure s
        let s ←
          if current.sourceKind ≠ next.sourceKind then
            .ofEdit
              (s.withDocumentSourceKind project id next.sourceKind)
          else pure s
        pure (s, false)

/- Bring one document of both sides to the target. -/
def updateDocument
    (sync : Synchronizer)
    (s : Solution)
    (project : ProjectId)
    (id : DocumentId)
    (old new : DocumentNode) : SyncRun Solution := do
  sync.checkCancelled
  let (s, rebuilt) ←
    if old.attributes ≠ new.attributes then
      sync.updateAttributes s project id new
    else pure (s, false)
  if !rebuilt && old.text != new.text then
    let text : String ← sync.fetch new.text
    .ofEdit (s.withDocumentText project id text)
  else pure s

/- Remove the documents of one kind that go. -/
def removeDocuments
    (project : ProjectId)
    (o : SyncOutcome)
    (plan : DocumentPlan) : SyncRun SyncOutcome := do
  let removed := plan.removed
  let solution ←
    .ofEdit (o.solution.removeDocuments project plan.kind removed)
  pure
    { solution
      report :=
        { o.report with
          documentsRemoved :=
            o.report.documentsRemoved + removed.length } }

/- Update a document that changes, and count it. -/
def countedUpdate
    (sync : Synchronizer)
    (project : ProjectId)
    (o : SyncOutcome)
    (change : DocumentId × Document × DocumentNode) :
    SyncRun SyncOutcome := do
  let (id, old, new) := change
  let solution ←
    sync.updateDocument o.solution project id old.node new
  pure
    { solution
      report :=
        { o.report with
          documentsUpdated := o.report.documentsUpdated + 1 } }

/- Fetch documents together if there are many of them. -/
def fetchInBulk
    (sync : Synchronizer)
    (new : DocumentNodeMap) : SyncRun Unit := do
  if new.size > sync.settings.bulkDocumentThreshold then
    .ofAssets
      (sync.link.fetchDocuments
        (new.toList.map (fun entry => entry.2.checksum)))

/-
  Add the documents of one kind that come and update those
  that change.  What is not cached is fetched one by one.
-/
def placeDocuments
    (sync : Synchronizer)
    (project : ProjectId)
    (o : SyncOutcome)
    (plan : DocumentPlan) : SyncRun SyncOutcome := do
  let added ←
    plan.added.mapM
      (fun node => sync.documentDescription node.checksum)
  let solution ←
    .ofEdit (o.solution.addDocuments project plan.kind added)
  let report :=
    { o.report with
      documentsAdded := o.report.documentsAdded + added.length }
  plan.changed.foldlM (sync.countedUpdate project)
    { solution, report }

/-
  Add and update the documents of one kind.  Many are fetched
  in bulk, a few one by one.
-/
def addAndUpdateDocuments
    (sync : Synchronizer)
    (project : ProjectId)
    (o : SyncOutcome)
    (plan : DocumentPlan) : SyncRun SyncOutcome := do
  sync.checkCancelled
  sync.fetchInBulk plan.new
  sync.placeDocuments project o plan

/- Carry out the plans for one project. -/
def updateDocuments
    (sync : Synchronizer)
    (project : ProjectId)
    (o : SyncOutcome)
    (plans : List DocumentPlan) : SyncRun SyncOutcome := do
  let o ← plans.foldlM (removeDocuments project) o
  plans.foldlM (sync.addAndUpdateDocuments project) o

end Synchronizer

end SnapTree
