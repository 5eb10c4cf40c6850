import SnapTree.Proofs.Exchange.Leads
import SnapTree.Sync.Synchronize

/-
  This file defines when two synchronizers can be compared,
  and proves that whole synchronizations are alike if the
  single steps are.  One lemma for each function carries this
  from its parts to the whole.

  Key definitions include:
    * `Synchronizer.Comparison`
    * `Synchronizer.carried`

  Key theorems include:
    * `Synchronizer.Comparison.projectDescription`
    * `Synchronizer.Comparison.updateProjects`
    * `Synchronizer.Comparison.collect`
    * `Synchronizer.Comparison.bring`
-/

namespace SnapTree

namespace Synchronizer

/-
  Two synchronizers can be compared if their links can, if
  they hold the same projects and compare results alike, and
  if it is alike whether they fetch documents together.
-/
structure Comparison (first second : Synchronizer) where
  links : first.link.Comparison second.link
  steps : Run.Congruence SyncError
  lift :
    ∀ {α : Type} {r r' : Run AssetError α},
      links.assets.Alike r r' →
        steps.Alike (SyncRun.ofAssets r) (SyncRun.ofAssets r')
  difference :
    ∀ old new : List Checksum,
      steps.Alike (Run.difference old new)
        (Run.difference old new)
  remember :
    ∀ f : Session → ReferenceCache,
      steps.Alike (modify (fun s => { s with references := f s }))
        (modify (fun s => { s with references := f s }))
  supports :
    ∀ language : String,
      first.settings.supports language =
        second.settings.supports language
  validates :
    first.settings.validate.isEnabled =
      second.settings.validate.isEnabled
  bulk :
    ∀ new : DocumentNodeMap,
      steps.Alike (first.fetchInBulk new) (second.fetchInBulk new)

namespace Comparison

variable {first second : Synchronizer} (C : first.Comparison second)

------------------------------------------------------------
-- Single steps
------------------------------------------------------------

theorem ofEdit
    {α : Type}
    (x : Except EditError α) :
    C.steps.Alike (SyncRun.ofEdit x) (SyncRun.ofEdit x) := by
  cases x with
  | ok a => exact C.steps.of_pure a
  | error e => exact C.steps.of_throw (.edit e)

theorem checkCancelled :
    C.steps.Alike first.checkCancelled second.checkCancelled :=
  C.lift C.links.checkCancelled

theorem cached
    {α : Type}
    [AssetValue α]
    (c : Checksum) :
    C.steps.Alike (SyncRun.cached c : SyncRun α)
      (SyncRun.cached c) :=
  C.lift (C.links.cached c)

theorem fetch
    {α : Type}
    [AssetValue α]
    (c : Checksum) :
    C.steps.Alike (first.fetch c : SyncRun α)
      (second.fetch c) :=
  C.lift (C.links.get c)

theorem prefetch
    (cs : List Checksum) :
    C.steps.Alike (first.prefetch cs) (second.prefetch cs) :=
  C.lift (C.links.prefetch cs)

------------------------------------------------------------
-- Descriptions
------------------------------------------------------------

theorem cachedValues
    {α : Type}
    [AssetValue α]
    (c : Collection) :
    C.steps.Alike (cachedValues c : SyncRun (List α))
      (cachedValues c) :=
  C.steps.mapM (fun c => C.cached c)

theorem metadataReferences
    (c : Collection) :
    C.steps.Alike (metadataReferences c)
      (metadataReferences c) := by
  apply C.steps.bind (C.cachedValues c)
  intro references
  apply C.steps.bind (C.remember _)
  intro _
  exact C.steps.of_pure references

theorem analyzerReferences
    (c : Collection) :
    C.steps.Alike (analyzerReferences c)
      (analyzerReferences c) := by
  apply C.steps.bind (C.cachedValues c)
  intro references
  apply C.steps.bind (C.remember _)
  intro _
  exact C.steps.of_pure references

theorem fetchAnalyzerReferences
    (c : Collection) :
    C.steps.Alike (first.fetchAnalyzerReferences c)
      (second.fetchAnalyzerReferences c) := by
  apply C.steps.bind (C.prefetch _)
  intro _
  exact C.analyzerReferences c

theorem cachedDocument
    (c : Checksum) :
    C.steps.Alike (cachedDocument c) (cachedDocument c) := by
  apply C.steps.bind (C.cached c)
  intro node
  apply C.steps.bind (C.cached _)
  intro attributes
  apply C.steps.bind (C.cached _)
  intro text
  exact C.steps.of_pure _

theorem documentDescription
    (c : Checksum) :
    C.steps.Alike (first.documentDescription c)
      (second.documentDescription c) := by
  apply C.steps.bind (C.lift (C.links.fetchDocuments [c]))
  intro _
  exact C.cachedDocument c

theorem fetchFrozen
    (identity text : Checksum) :
    C.steps.Alike (first.fetchFrozen identity text)
      (second.fetchFrozen identity text) := by
  apply C.steps.bind (C.prefetch _)
  intro _
  apply C.steps.bind (C.cached identity)
  intro identity
  apply C.steps.bind (C.cached text)
  intro text
  exact C.steps.of_pure _

theorem cachedProject
    (node : ProjectNode)
    (attributes : ProjectAttributes) :
    C.steps.Alike (cachedProject node attributes)
      (cachedProject node attributes) := by
  apply C.steps.bind (C.cached _)
  intro compilationOptions
  apply C.steps.bind (C.cached _)
  intro parseOptions
  apply C.steps.bind (C.cachedValues _)
  intro projectReferences
  apply C.steps.bind (C.metadataReferences _)
  intro metadataReferences
  apply C.steps.bind (C.analyzerReferences _)
  intro analyzerReferences
  apply C.steps.bind (C.steps.mapM (fun c => C.cachedDocument c))
  intro ordinary
  apply C.steps.bind (C.steps.mapM (fun c => C.cachedDocument c))
  intro additional
  apply C.steps.bind (C.steps.mapM (fun c => C.cachedDocument c))
  intro analyzerConfig
  exact C.steps.of_pure _

theorem projectDescription
    (c : Checksum) :
    C.steps.Alike (first.projectDescription c)
      (second.projectDescription c) := by
  unfold Synchronizer.projectDescription
  apply C.steps.bind (C.fetch c)
  intro node
  apply C.steps.bind (C.fetch _)
  intro attributes
  rw [C.supports]
  split
  · exact C.steps.of_pure none
  · apply C.steps.bind (C.lift (C.links.fetchProjects [c]))
    intro _
    apply C.steps.bind (C.cachedProject node attributes)
    intro description
    exact C.steps.of_pure (some description)

theorem skippedProject
    (c : Checksum) :
    C.steps.Alike (skippedProject c) (skippedProject c) := by
  apply C.steps.bind (C.cached c)
  intro node
  apply C.steps.bind (C.cached _)
  intro attributes
  exact C.steps.of_pure _

------------------------------------------------------------
-- Documents
------------------------------------------------------------

theorem enterDocument
    (m : DocumentNodeMap)
    (node : DocumentNode) :
    C.steps.Alike (enterDocument m node)
      (enterDocument m node) := by
  unfold Synchronizer.enterDocument
  apply C.steps.bind (C.cached _)
  intro attributes
  split
  · exact C.steps.of_throw_bind _ _ _
  · exact C.steps.of_pure _

theorem newDocuments
    (cs : List Checksum) :
    C.steps.Alike (first.newDocuments cs)
      (second.newDocuments cs) := by
  apply C.steps.bind (C.lift (C.links.getMany cs))
  intro nodes
  apply C.steps.bind (C.prefetch _)
  intro _
  exact C.steps.foldlM _ (fun m node => C.enterDocument m node)

theorem planDocuments
    (s : Solution)
    (project : ProjectId)
    (kind : DocumentKind)
    (old new : Collection) :
    C.steps.Alike
      (first.planDocuments s project kind old new)
      (second.planDocuments s project kind old new) := by
  unfold Synchronizer.planDocuments
  apply C.steps.bind C.checkCancelled
  intro _
  apply C.steps.bind (C.difference _ _)
  intro difference
  cases s.project? project with
  | none => exact C.steps.of_throw _
  | some p =>
      apply C.steps.bind (C.newDocuments _)
      intro documents
      exact C.steps.of_pure _

theorem updateAttributes
    (s : Solution)
    (project : ProjectId)
    (id : DocumentId)
    (new : DocumentNode) :
    C.steps.Alike (first.updateAttributes s project id new)
      (second.updateAttributes s project id new) := by
  unfold Synchronizer.updateAttributes
  apply C.steps.bind (C.fetch _)
  intro next
  cases s.document? project id with
  | none => exact C.steps.of_throw _
  | some d =>
      dsimp only
      cases d.attributes.changedIdentity? next with
      | some field => exact C.steps.of_throw_bind _ _ _
      | none =>
          dsimp only
          split
          · apply C.steps.bind (C.fetch _)
            intro text
            apply C.steps.bind (C.ofEdit _)
            intro removed
            apply C.steps.bind (C.ofEdit _)
            intro added
            exact C.steps.of_pure _
          · apply C.steps.bindStep (C.ofEdit _)
            intro folded
            apply C.steps.bindStep (C.ofEdit _)
            intro changed
            exact C.steps.of_pure _

theorem updateDocument
    (s : Solution)
    (project : ProjectId)
    (id : DocumentId)
    (old new : DocumentNode) :
    C.steps.Alike (first.updateDocument s project id old new)
      (second.updateDocument s project id old new) := by
  unfold Synchronizer.updateDocument
  apply C.steps.bind C.checkCancelled
  intro _
  apply C.steps.bindStep (C.updateAttributes _ _ _ _)
  rintro ⟨changed, rebuilt⟩
  dsimp only
  split
  · apply C.steps.bind (C.fetch _)
    intro text
    exact C.ofEdit _
  · exact C.steps.of_pure _

theorem removeDocuments
    (project : ProjectId)
    (o : SyncOutcome)
    (plan : DocumentPlan) :
    C.steps.Alike (removeDocuments project o plan)
      (removeDocuments project o plan) := by
  apply C.steps.bind (C.ofEdit _)
  intro solution
  exact C.steps.of_pure _

theorem countedUpdate
    (project : ProjectId)
    (o : SyncOutcome)
    (change : DocumentId × Document × DocumentNode) :
    C.steps.Alike (first.countedUpdate project o change)
      (second.countedUpdate project o change) := by
  apply C.steps.bind (C.updateDocument _ _ _ _ _)
  intro solution
  exact C.steps.of_pure _

theorem placeDocuments
    (project : ProjectId)
    (o : SyncOutcome)
    (plan : DocumentPlan) :
    C.steps.Alike (first.placeDocuments project o plan)
      (second.placeDocuments project o plan) := by
  apply C.steps.bind
  · exact C.steps.mapM (fun node => C.documentDescription _)
  · intro added
    apply C.steps.bind (C.ofEdit _)
    intro solution
    exact C.steps.foldlM _
      (fun o change => C.countedUpdate project o change)

theorem addAndUpdateDocuments
    (project : ProjectId)
    (o : SyncOutcome)
    (plan : DocumentPlan) :
    C.steps.Alike (first.addAndUpdateDocuments project o plan)
      (second.addAndUpdateDocuments project o plan) := by
  apply C.steps.bind C.checkCancelled
  intro _
  apply C.steps.bind (C.bulk plan.new)
  intro _
  exact C.placeDocuments project o plan

theorem updateDocuments
    (project : ProjectId)
    (o : SyncOutcome)
    (plans : List DocumentPlan) :
    C.steps.Alike (first.updateDocuments project o plans)
      (second.updateDocuments project o plans) := by
  apply C.steps.bind
  · exact C.steps.foldlM _
      (fun o plan => C.removeDocuments project o plan)
  · intro removed
    exact C.steps.foldlM _
      (fun o plan => C.addAndUpdateDocuments project o plan)

------------------------------------------------------------
-- Projects
------------------------------------------------------------

theorem enterProject
    (m : ProjectNodeMap)
    (node : ProjectNode) :
    C.steps.Alike (enterProject m node)
      (enterProject m node) := by
  unfold Synchronizer.enterProject
  apply C.steps.bind (C.cached _)
  intro attributes
  split
  · exact C.steps.of_throw_bind _ _ _
  · exact C.steps.of_pure _

theorem newProjects
    (cs : List Checksum) :
    C.steps.Alike (first.newProjects cs)
      (second.newProjects cs) := by
  apply C.steps.bind (C.lift (C.links.getMany cs))
  intro nodes
  apply C.steps.bind (C.prefetch _)
  intro _
  exact C.steps.foldlM _ (fun m node => C.enterProject m node)

theorem updateProjectAttributes
    (s : Solution)
    (id : ProjectId)
    (current : ProjectAttributes)
    (old new : Checksum) :
    C.steps.Alike (updateProjectAttributes s id current old new)
      (updateProjectAttributes s id current old new) := by
  unfold Synchronizer.updateProjectAttributes
  split
  · exact C.steps.of_pure s
  · apply C.steps.bind (C.cached _)
    intro next
    cases current.changedIdentity? next with
    | some field => exact C.steps.of_throw_bind _ _ _
    | none => exact C.ofEdit _

theorem updateOptions
    (s : Solution)
    (id : ProjectId)
    (old new : ProjectNode) :
    C.steps.Alike (updateOptions s id old new)
      (updateOptions s id old new) := by
  unfold Synchronizer.updateOptions
  dsimp only
  rw [← ite_not]
  apply C.steps.bindChange (C.cached _) (fun _ => C.ofEdit _)
  intro compiled
  split
  · exact C.steps.of_pure compiled
  · apply C.steps.bind (C.cached _)
    intro options
    exact C.ofEdit _

theorem updateReferences
    (s : Solution)
    (id : ProjectId)
    (before : Project)
    (old new : ProjectNode) :
    C.steps.Alike (updateReferences s id before old new)
      (updateReferences s id before old new) := by
  unfold Synchronizer.updateReferences
  -- However the references to projects are set, the others follow.
  extract_lets rest others
  have hOthers :
      ∀ t : Solution, C.steps.Alike (others t) (others t) := by
    intro t
    apply C.steps.bindChange (C.metadataReferences _)
      (fun _ => C.ofEdit _)
    intro linked
    dsimp only [rest]
    split
    · apply C.steps.bind (C.analyzerReferences _)
      intro references
      exact C.ofEdit _
    · exact C.steps.of_pure linked
  split
  · apply C.steps.bind (C.cachedValues _)
    intro references
    exact C.steps.bind (C.ofEdit _) hOthers
  · rw [← ite_not]
    exact C.steps.bindStep (C.ofEdit _) hOthers

theorem planProject
    (s : Solution)
    (id : ProjectId)
    (old new : ProjectNode) :
    C.steps.Alike (first.planProject s id old new)
      (second.planProject s id old new) :=
  C.steps.mapM (fun kind => C.planDocuments s id kind _ _)

theorem updateProject
    (o : SyncOutcome)
    (before : Project)
    (new : ProjectNode) :
    C.steps.Alike (first.updateProject o before new)
      (second.updateProject o before new) := by
  unfold Synchronizer.updateProject
  apply C.steps.bind C.checkCancelled
  intro _
  apply C.steps.bind (C.prefetch _)
  intro _
  apply C.steps.bind (C.updateProjectAttributes _ _ _ _ _)
  intro attributed
  apply C.steps.bind (C.updateOptions _ _ _ _)
  intro opted
  apply C.steps.bind (C.updateReferences _ _ _ _ _)
  intro referring
  apply C.steps.bind (C.planProject _ _ _ _)
  intro plans
  apply C.steps.bind (C.updateDocuments _ _ _)
  intro updated
  exact C.steps.of_pure _

theorem stripReferences
    (s : Solution)
    (id : ProjectId) :
    C.steps.Alike (stripReferences s id)
      (stripReferences s id) := by
  unfold Synchronizer.stripReferences
  split
  · exact C.steps.of_pure s
  · split
    · exact C.steps.of_pure s
    · exact C.ofEdit _

theorem dropProject
    (o : SyncOutcome)
    (id : ProjectId) :
    C.steps.Alike (dropProject o id) (dropProject o id) := by
  apply C.steps.bind (C.ofEdit _)
  intro solution
  exact C.steps.of_pure _

theorem bringProject
    (o : SyncOutcome)
    (entry : ProjectId × ProjectNode) :
    C.steps.Alike (first.bringProject o entry)
      (second.bringProject o entry) := by
  unfold Synchronizer.bringProject
  apply C.steps.bind C.checkCancelled
  intro _
  apply C.steps.bind (C.projectDescription _)
  intro found
  cases found with
  | some d =>
      apply C.steps.bind (C.ofEdit _)
      intro solution
      exact C.steps.of_pure _
  | none =>
      apply C.steps.bind (C.skippedProject _)
      intro skipped
      exact C.steps.of_pure _

theorem updateProjects
    (o : SyncOutcome)
    (old new : Collection) :
    C.steps.Alike (first.updateProjects o old new)
      (second.updateProjects o old new) := by
  unfold Synchronizer.updateProjects
  apply C.steps.bind C.checkCancelled
  intro _
  apply C.steps.bind (C.difference _ _)
  intro difference
  apply C.steps.bind (C.newProjects _)
  intro after
  apply C.steps.bind (C.lift (C.links.fetchProjects _))
  intro _
  apply C.steps.bind
    (C.steps.foldlM _ (fun s id => C.stripReferences s id))
  intro stripped
  apply C.steps.bind
    (C.steps.foldlM _ (fun o id => C.dropProject o id))
  intro dropped
  apply C.steps.bind
    (C.steps.foldlM _ (fun o entry => C.bringProject o entry))
  intro brought
  apply C.steps.foldlM
  intro o' entry
  split
  · exact C.steps.of_pure o'
  · exact C.updateProject _ _ _

------------------------------------------------------------
-- Whole solutions
------------------------------------------------------------

theorem updateSolutionAttributes
    (s : Solution)
    (target old new : Checksum) :
    C.steps.Alike
      (first.updateSolutionAttributes s target old new)
      (second.updateSolutionAttributes s target old new) := by
  unfold Synchronizer.updateSolutionAttributes
  split
  · exact C.steps.of_pure s
  · apply C.steps.bind (C.fetch new)
    intro attributes
    apply C.steps.bindWhen (C.steps.of_check _ _)
    apply C.steps.bindWhen (C.steps.of_check _ _)
    exact C.ofEdit _

theorem updateSolutionAnalyzers
    (s : Solution)
    (old new : Collection) :
    C.steps.Alike (first.updateSolutionAnalyzers s old new)
      (second.updateSolutionAnalyzers s old new) := by
  unfold Synchronizer.updateSolutionAnalyzers
  split
  · exact C.steps.of_pure s
  · apply C.steps.bind (C.fetchAnalyzerReferences new)
    intro references
    exact C.steps.of_pure _

theorem updateFrozen
    (s : Solution)
    (new : SolutionNode) :
    C.steps.Alike (first.updateFrozen s new)
      (second.updateFrozen s new) := by
  unfold Synchronizer.updateFrozen
  split
  · exact C.steps.of_pure s
  · apply C.steps.bind (C.fetchFrozen _ _)
    intro frozen
    split
    · exact C.ofEdit _
    · exact C.steps.of_pure s

theorem collectProject
    (c : Checksum) :
    C.steps.Alike (first.collectProject c)
      (second.collectProject c) := by
  unfold Synchronizer.collectProject
  apply C.steps.bind C.checkCancelled
  intro _
  apply C.steps.bind (C.projectDescription c)
  intro found
  cases found with
  | some d => exact C.steps.of_pure _
  | none => exact C.steps.mapping _ (C.skippedProject c)

theorem collect
    (target : Checksum) :
    C.steps.Alike (first.collect target)
      (second.collect target) := by
  unfold Synchronizer.collect
  apply C.steps.bind (C.fetch target)
  intro node
  apply C.steps.bind (C.fetch _)
  intro attributes
  apply C.steps.bind (C.lift (C.links.fetchProjects _))
  intro _
  apply C.steps.bind
    (C.steps.mapM (fun c => C.collectProject c))
  intro found
  apply C.steps.bind (C.fetchAnalyzerReferences _)
  intro analyzerReferences
  split
  · apply C.steps.bind (C.steps.mapping _ (C.fetchFrozen _ _))
    intro frozen
    exact C.steps.of_pure _
  · exact C.steps.of_pure _

theorem validate
    (o : SyncOutcome)
    (target : Checksum) :
    C.steps.Alike (first.validate o target)
      (second.validate o target) := by
  unfold Synchronizer.validate
  rw [C.validates]
  split
  · exact C.steps.of_pure o
  · dsimp only
    split
    · exact C.steps.of_pure _
    · apply C.steps.bind (C.collect target)
      intro build
      apply C.steps.bind (C.ofEdit _)
      intro rebuilt
      split
      · exact C.steps.of_throw_bind _ _ _
      · exact C.steps.of_pure _

/- Whole synchronizations are alike, but for the counts. -/
theorem bring
    (baseline : Solution)
    (target : Checksum) :
    C.steps.Alike (first.bring baseline target)
      (second.bring baseline target) := by
  unfold Synchronizer.bring
  apply C.steps.bind C.checkCancelled
  intro _
  dsimp only
  split
  · exact C.steps.of_pure _
  · apply C.steps.bind (C.fetch target)
    intro new
    apply C.steps.bind (C.updateSolutionAttributes _ _ _ _)
    intro attributed
    rw [← ite_not, ← ite_not (_ = _)]
    apply C.steps.bindStep (C.updateProjects _ _ _)
    intro migrated
    apply C.steps.bind (C.updateSolutionAnalyzers _ _ _)
    intro analyzed
    apply C.steps.bind (C.updateFrozen _ _)
    intro attached
    exact C.validate _ _

/- And with the counts, if it is alike to look at them. -/
theorem synchronizeWithReport
    (hRead :
      C.steps.Alike (MonadState.get : SyncRun Session)
        MonadState.get)
    (baseline : Solution)
    (target : Checksum) :
    C.steps.Alike (first.synchronizeWithReport baseline target)
      (second.synchronizeWithReport baseline target) := by
  apply C.steps.bind hRead
  intro before
  apply C.steps.bind (C.bring baseline target)
  intro o
  apply C.steps.bind hRead
  intro after
  exact C.steps.of_pure _

end Comparison

------------------------------------------------------------
-- Comparisons
------------------------------------------------------------

/- With the same settings, only the single steps matter. -/
def Comparison.ofSettings
    {first second : Synchronizer}
    (hSettings : first.settings = second.settings)
    (links : first.link.Comparison second.link)
    (steps : Run.Congruence SyncError)
    (lift :
      ∀ {α : Type} {r r' : Run AssetError α},
        links.assets.Alike r r' →
          steps.Alike (SyncRun.ofAssets r) (SyncRun.ofAssets r'))
    (difference :
      ∀ old new : List Checksum,
        steps.Alike (Run.difference old new)
          (Run.difference old new))
    (remember :
      ∀ f : Session → ReferenceCache,
        steps.Alike
          (modify (fun s => { s with references := f s }))
          (modify (fun s => { s with references := f s }))) :
    first.Comparison second where
  links := links
  steps := steps
  lift := lift
  difference := difference
  remember := remember
  supports _ := by rw [hSettings]
  validates := by rw [hSettings]
  bulk new := by
    unfold fetchInBulk
    rw [hSettings]
    split
    · exact lift (links.fetchDocuments _)
    · exact steps.of_pure ()

/- A synchronizer is compared with itself. -/
def Comparison.ofLink
    {sync : Synchronizer}
    (links : sync.link.Comparison sync.link)
    (steps : Run.Congruence SyncError)
    (lift :
      ∀ {α : Type} {r r' : Run AssetError α},
        links.assets.Alike r r' →
          steps.Alike (SyncRun.ofAssets r) (SyncRun.ofAssets r'))
    (difference :
      ∀ old new : List Checksum,
        steps.Alike (Run.difference old new)
          (Run.difference old new))
    (remember :
      ∀ f : Session → ReferenceCache,
        steps.Alike
          (modify (fun s => { s with references := f s }))
          (modify (fun s => { s with references := f s }))) :
    sync.Comparison sync :=
  .ofSettings rfl links steps lift difference remember

/-
  A synchronization leads along every relation that its link
  leads along, if taking differences does.
-/
def carried
    {sync : Synchronizer}
    {rel : Session → Session → Prop}
    (hCarries : sync.link.Carries rel)
    (hPool :
      ∀ (s : Session) (old new : List Checksum),
        rel s
          { s with
            pool :=
              (s.pool.diff old new).2.releaseDiff
                (s.pool.diff old new).1 }) :
    sync.Comparison sync :=
  .ofLink hCarries.comparison
    (hCarries.leading SyncError) id
    (fun old new s => hPool s old new)
    (fun _ => hCarries.leads_aside (fun _ => rfl) (fun _ => rfl))

end Synchronizer

end SnapTree
