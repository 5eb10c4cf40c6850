import SnapTree.Proofs.Sync.Convergence

/-
  This file proves what a synchronization is worth that ended
  well, whatever its source answered: its result came about by
  edits, and if it was compared with the target, it has the
  checksum of the target.  Two such results are the same.

  Key definitions include:
    * `Run.Yields`
    * `Synchronizer.Sound`

  Key theorems include:
    * `Synchronizer.yields_updateProjects`
    * `Synchronizer.yields_validate`
    * `Synchronizer.yields_bring`
    * `Synchronizer.synchronizeWithReport_agree`
-/

namespace SnapTree

------------------------------------------------------------
-- What a computation yields
------------------------------------------------------------

/- A value that a computation gives, from any session. -/
def Run.Yields
    {ε α : Type}
    (r : Run ε α)
    (P : α → Prop) : Prop :=
  Run.Spec (fun _ => True) r (fun a _ => P a) (fun _ => True)

namespace Run.Yields

variable {ε α β : Type}

theorem of_pure
    {a : α}
    {P : α → Prop}
    (hA : P a) :
    Run.Yields (pure a : Run ε α) P :=
  Run.Spec.of_pure (fun _ _ => hA)

theorem of_throw
    (e : ε)
    (P : α → Prop) :
    Run.Yields (throw e : Run ε α) P :=
  Run.Spec.of_throw trivial

theorem bind
    {r : Run ε α}
    {f : α → Run ε β}
    {P : α → Prop}
    {Q : β → Prop}
    (hFirst : Run.Yields r P)
    (hThen : ∀ a, P a → Run.Yields (f a) Q) :
    Run.Yields (r >>= f) Q := by
  apply Run.Spec.bind hFirst
  intro a
  constructor
  intro s hA
  exact (hThen a hA).holds s trivial

/- Nothing is known of any value. -/
theorem anything
    (r : Run ε α) :
    Run.Yields r (fun _ => True) :=
  Run.Spec.anything r

/- What is fetched does not matter. -/
theorem bindAny
    {r : Run ε α}
    {f : α → Run ε β}
    {Q : β → Prop}
    (hThen : ∀ a, Run.Yields (f a) Q) :
    Run.Yields (r >>= f) Q :=
  (anything r).bind (fun a _ => hThen a)

/- After a failure there is no value. -/
theorem of_throw_bind
    (e : ε)
    (f : α → Run ε β)
    (Q : β → Prop) :
    Run.Yields ((throw e : Run ε α) >>= f) Q :=
  (of_throw e (fun _ => False)).bind (fun _ h => h.elim)

/- What follows a step that may be left out. -/
theorem bindStep
    {r : Run ε α}
    {f : α → Run ε β}
    {p : Prop}
    [Decidable p]
    {old : α}
    {P : α → Prop}
    {Q : β → Prop}
    (hStep : Run.Yields r P)
    (hOld : P old)
    (hThen : ∀ a, P a → Run.Yields (f a) Q) :
    Run.Yields (if p then r >>= f else pure old >>= f) Q := by
  split
  · exact hStep.bind hThen
  · exact (of_pure hOld).bind hThen

/- What follows a check, or a fetch that may be left out. -/
theorem bindWhen
    {r : Run ε Unit}
    {f : Unit → Run ε β}
    {p : Prop}
    [Decidable p]
    {Q : β → Prop}
    (hThen : Run.Yields (f ()) Q) :
    Run.Yields (if p then r >>= f else f ()) Q := by
  split
  · exact bindAny (fun _ => hThen)
  · exact hThen

/- What follows a fetched change that may be left out. -/
theorem bindChange
    {γ : Type}
    {r : Run ε α}
    {change : α → Run ε β}
    {f : β → Run ε γ}
    {p : Prop}
    [Decidable p]
    {old : β}
    {P : β → Prop}
    {Q : γ → Prop}
    (hChange : ∀ a, Run.Yields (change a) P)
    (hOld : P old)
    (hThen : ∀ b, P b → Run.Yields (f b) Q) :
    Run.Yields
      (if p then r >>= (fun a => change a >>= f)
        else pure old >>= f)
      Q := by
  split
  · exact bindAny (fun a => (hChange a).bind hThen)
  · exact (of_pure hOld).bind hThen

/- A fold keeps what each of its steps keeps. -/
theorem foldlM
    {xs : List β}
    {f : α → β → Run ε α}
    {a : α}
    {P : α → Prop}
    (hA : P a)
    (hStep : ∀ b x, P b → Run.Yields (f b x) P) :
    Run.Yields (xs.foldlM f a) P := by
  induction xs generalizing a with
  | nil => exact of_pure hA
  | cons x xs ih =>
      rw [List.foldlM_cons]
      exact (hStep a x hA).bind (fun b hB => ih hB)

end Run.Yields

------------------------------------------------------------
-- Results that came about by edits
------------------------------------------------------------

/- An edit leads from a reachable solution to another. -/
theorem SyncRun.yields_ofEdit
    {s : Solution}
    (hS : s.Reachable)
    (e : Edit) :
    Run.Yields (SyncRun.ofEdit (s.apply e))
      Solution.Reachable := by
  cases hApply : s.apply e with
  | error e => exact Run.Yields.of_throw _ _
  | ok t => exact Run.Yields.of_pure (.edited hS hApply)

namespace Synchronizer

variable {sync : Synchronizer} {s : Solution}

section Solution

variable (hS : s.Reachable)

include hS

theorem yields_updateSolutionAttributes
    (target old new : Checksum) :
    Run.Yields (sync.updateSolutionAttributes s target old new)
      Solution.Reachable := by
  unfold updateSolutionAttributes
  split
  · exact Run.Yields.of_pure hS
  · apply Run.Yields.bindAny
    intro attributes
    apply Run.Yields.bindWhen
    apply Run.Yields.bindWhen
    exact SyncRun.yields_ofEdit hS (.attributes attributes)

theorem yields_updateSolutionAnalyzers
    (old new : Collection) :
    Run.Yields (sync.updateSolutionAnalyzers s old new)
      Solution.Reachable := by
  unfold updateSolutionAnalyzers
  split
  · exact Run.Yields.of_pure hS
  · apply Run.Yields.bindAny
    intro references
    exact Run.Yields.of_pure
      (.edited (e := .analyzerReferences references) hS rfl)

theorem yields_updateFrozen
    (new : SolutionNode) :
    Run.Yields (sync.updateFrozen s new) Solution.Reachable := by
  unfold updateFrozen
  split
  · exact Run.Yields.of_pure hS
  · apply Run.Yields.bindAny
    intro frozen
    split
    · exact SyncRun.yields_ofEdit hS (.attachFrozen frozen)
    · exact Run.Yields.of_pure hS

------------------------------------------------------------
-- Documents
------------------------------------------------------------

theorem yields_updateAttributes
    (project : ProjectId)
    (id : DocumentId)
    (new : DocumentNode) :
    Run.Yields (sync.updateAttributes s project id new)
      (fun result => result.1.Reachable) := by
  unfold updateAttributes
  apply Run.Yields.bindAny
  intro next
  split
  · exact Run.Yields.of_throw _ _
  · next d _ =>
      dsimp only
      split
      · exact Run.Yields.of_throw_bind _ _ _
      · split
        · apply Run.Yields.bindAny
          intro text
          apply (SyncRun.yields_ofEdit hS
            (.removeDocuments project d.kind [id])).bind
          intro removed hRemoved
          apply (SyncRun.yields_ofEdit hRemoved
            (.addDocuments project d.kind [⟨next, text⟩])).bind
          intro added hAdded
          exact Run.Yields.of_pure hAdded
        · apply Run.Yields.bindStep
            (SyncRun.yields_ofEdit hS
              (.documentFolders project id next.folders)) hS
          intro folded hFolded
          apply Run.Yields.bindStep
            (SyncRun.yields_ofEdit hFolded
              (.documentSourceKind project id next.sourceKind))
            hFolded
          intro changed hChanged
          exact Run.Yields.of_pure hChanged

theorem yields_updateDocument
    (project : ProjectId)
    (id : DocumentId)
    (old new : DocumentNode) :
    Run.Yields (sync.updateDocument s project id old new)
      Solution.Reachable := by
  unfold updateDocument
  apply Run.Yields.bindAny
  intro _
  apply Run.Yields.bindStep
    (yields_updateAttributes hS project id new) hS
  rintro ⟨changed, rebuilt⟩ hChanged
  dsimp only
  split
  · apply Run.Yields.bindAny
    intro text
    exact SyncRun.yields_ofEdit hChanged
      (.documentText project id text)
  · exact Run.Yields.of_pure hChanged

------------------------------------------------------------
-- Parts of a project
------------------------------------------------------------

theorem yields_updateProjectAttributes
    (id : ProjectId)
    (current : ProjectAttributes)
    (old new : Checksum) :
    Run.Yields (updateProjectAttributes s id current old new)
      Solution.Reachable := by
  unfold updateProjectAttributes
  split
  · exact Run.Yields.of_pure hS
  · apply Run.Yields.bindAny
    intro next
    split
    · exact Run.Yields.of_throw_bind _ _ _
    · exact SyncRun.yields_ofEdit hS (.projectAttributes id next)

theorem yields_updateOptions
    (id : ProjectId)
    (old new : ProjectNode) :
    Run.Yields (updateOptions s id old new)
      Solution.Reachable := by
  unfold updateOptions
  dsimp only
  rw [← ite_not]
  apply Run.Yields.bindChange
    (fun options =>
      SyncRun.yields_ofEdit hS (.compilationOptions id options))
    hS
  intro compiled hCompiled
  split
  · exact Run.Yields.of_pure hCompiled
  · apply Run.Yields.bindAny
    intro options
    exact SyncRun.yields_ofEdit hCompiled
      (.parseOptions id options)

theorem yields_updateReferences
    (id : ProjectId)
    (before : Project)
    (old new : ProjectNode) :
    Run.Yields (updateReferences s id before old new)
      Solution.Reachable := by
  unfold updateReferences
  -- However the references to projects are set, the others follow.
  extract_lets rest others
  have hOthers :
      ∀ t : Solution, t.Reachable →
        Run.Yields (others t) Solution.Reachable := by
    intro t hT
    apply Run.Yields.bindChange
      (fun references =>
        SyncRun.yields_ofEdit hT
          (.metadataReferences id references))
      hT
    intro linked hLinked
    dsimp only [rest]
    split
    · apply Run.Yields.bindAny
      intro references
      exact SyncRun.yields_ofEdit hLinked
        (.projectAnalyzerReferences id references)
    · exact Run.Yields.of_pure hLinked
  split
  · apply Run.Yields.bindAny
    intro references
    exact (SyncRun.yields_ofEdit hS
      (.projectReferences id references)).bind hOthers
  · rw [← ite_not]
    exact Run.Yields.bindStep
      (SyncRun.yields_ofEdit hS (.projectReferencesOf id before))
      hS hOthers

theorem yields_stripReferences
    (id : ProjectId) :
    Run.Yields (stripReferences s id) Solution.Reachable := by
  unfold stripReferences
  split
  · exact Run.Yields.of_pure hS
  · split
    · exact Run.Yields.of_pure hS
    · exact SyncRun.yields_ofEdit hS (.projectReferences id [])

end Solution

------------------------------------------------------------
-- Projects and their documents
------------------------------------------------------------

/- An outcome whose solution came about by edits. -/
def Attainable
    (o : SyncOutcome) : Prop :=
  o.solution.Reachable

section Outcome

variable {o : SyncOutcome} (hO : Attainable o)

include hO

theorem yields_removeDocuments
    (project : ProjectId)
    (plan : DocumentPlan) :
    Run.Yields (removeDocuments project o plan) Attainable := by
  unfold removeDocuments
  apply (SyncRun.yields_ofEdit hO
    (.removeDocuments project plan.kind plan.removed)).bind
  intro solution hSolution
  exact Run.Yields.of_pure hSolution

theorem yields_countedUpdate
    (project : ProjectId)
    (change : DocumentId × Document × DocumentNode) :
    Run.Yields (sync.countedUpdate project o change)
      Attainable := by
  unfold countedUpdate
  apply (yields_updateDocument hO project _ _ _).bind
  intro solution hSolution
  exact Run.Yields.of_pure hSolution

theorem yields_placeDocuments
    (project : ProjectId)
    (plan : DocumentPlan) :
    Run.Yields (sync.placeDocuments project o plan)
      Attainable := by
  unfold placeDocuments
  apply Run.Yields.bindAny
  intro added
  apply (SyncRun.yields_ofEdit hO
    (.addDocuments project plan.kind added)).bind
  intro solution hSolution
  apply Run.Yields.foldlM
  · exact hSolution
  · intro o' change hO'
    exact yields_countedUpdate hO' project change

theorem yields_addAndUpdateDocuments
    (project : ProjectId)
    (plan : DocumentPlan) :
    Run.Yields (sync.addAndUpdateDocuments project o plan)
      Attainable := by
  unfold addAndUpdateDocuments
  apply Run.Yields.bindAny
  intro _
  apply Run.Yields.bindAny
  intro _
  exact yields_placeDocuments hO project plan

theorem yields_updateDocuments
    (project : ProjectId)
    (plans : List DocumentPlan) :
    Run.Yields (sync.updateDocuments project o plans)
      Attainable := by
  unfold updateDocuments
  apply (Run.Yields.foldlM hO (fun o' plan hO' =>
    yields_removeDocuments hO' project plan)).bind
  intro removed hRemoved
  exact Run.Yields.foldlM hRemoved (fun o' plan hO' =>
    yields_addAndUpdateDocuments hO' project plan)

theorem yields_updateProject
    (before : Project)
    (new : ProjectNode) :
    Run.Yields (sync.updateProject o before new) Attainable := by
  unfold updateProject
  apply Run.Yields.bindAny
  intro _
  apply Run.Yields.bindAny
  intro _
  apply (yields_updateProjectAttributes hO _ _ _ _).bind
  intro attributed hAttributed
  apply (yields_updateOptions hAttributed _ _ _).bind
  intro opted hOpted
  apply (yields_updateReferences hOpted _ _ _ _).bind
  intro referring hReferring
  apply Run.Yields.bindAny
  intro plans
  refine Run.Yields.bind (P := Attainable) ?_ ?_
  · apply yields_updateDocuments
    exact hReferring
  · intro updated hUpdated
    exact Run.Yields.of_pure hUpdated

theorem yields_dropProject
    (id : ProjectId) :
    Run.Yields (dropProject o id) Attainable := by
  unfold dropProject
  apply (SyncRun.yields_ofEdit hO (.removeProject id)).bind
  intro solution hSolution
  exact Run.Yields.of_pure hSolution

theorem yields_bringProject
    (entry : ProjectId × ProjectNode) :
    Run.Yields (sync.bringProject o entry) Attainable := by
  unfold bringProject
  apply Run.Yields.bindAny
  intro _
  apply Run.Yields.bindAny
  intro found
  cases found with
  | some d =>
      apply (SyncRun.yields_ofEdit hO (.addProject d)).bind
      intro solution hSolution
      exact Run.Yields.of_pure hSolution
  | none =>
      apply Run.Yields.bindAny
      intro skipped
      exact Run.Yields.of_pure hO

/- All changes to projects are edits. -/
theorem yields_updateProjects
    (old new : Collection) :
    Run.Yields (sync.updateProjects o old new) Attainable := by
  unfold updateProjects
  apply Run.Yields.bindAny
  intro _
  apply Run.Yields.bindAny
  intro difference
  apply Run.Yields.bindAny
  intro after
  apply Run.Yields.bindAny
  intro _
  apply (Run.Yields.foldlM (P := Solution.Reachable) hO
    (fun s id hS => yields_stripReferences hS id)).bind
  intro stripped hStripped
  refine Run.Yields.bind (P := Attainable)
    (Run.Yields.foldlM ?_ (fun o' id hO' =>
      yields_dropProject hO' id)) ?_
  · exact hStripped
  intro dropped hDropped
  apply (Run.Yields.foldlM hDropped
    (fun o' entry hO' => yields_bringProject hO' entry)).bind
  intro brought hBrought
  apply Run.Yields.foldlM hBrought
  intro o' entry hO'
  split
  · exact Run.Yields.of_pure hO'
  · exact yields_updateProject hO' _ _

end Outcome

------------------------------------------------------------
-- Validation
------------------------------------------------------------

/- What is built from a store came about by edits. -/
theorem reachable_of_scratchBuild
    {build : ScratchBuild}
    (hBuilt : build.solution = .ok s) :
    s.Reachable := by
  unfold ScratchBuild.solution at hBuilt
  rcases bind_eq_ok_iff.1 hBuilt with ⟨t, hDescribed, hRest⟩
  have hT : t.Reachable := .described hDescribed
  revert hRest
  cases build.frozen with
  | none =>
      intro hSame
      rw [← Except.ok.inj hSame]
      exact hT
  | some frozen =>
      dsimp only
      split
      · exact fun hAttached =>
          .edited (e := .attachFrozen frozen) hT hAttached
      · intro hSame
        rw [← Except.ok.inj hSame]
        exact hT

/-
  An outcome that can be relied on if results are compared: it
  came about by edits, and unless projects were left out, it
  has the checksum of the target and says so.
-/
structure Sound
    (sync : Synchronizer)
    (target : Checksum)
    (o : SyncOutcome) : Prop where
  reachable : o.solution.Reachable
  checksum :
    sync.settings.validate.isEnabled = true →
      o.report.skippedProjects = [] →
        o.solution.checksum = target
  compared :
    sync.settings.validate.isEnabled = true →
      o.report.skippedProjects = [] →
        o.report.validated = true ∨ o.report.upToDate = true

theorem yields_validate
    {o : SyncOutcome}
    (hO : Attainable o)
    (target : Checksum) :
    Run.Yields (sync.validate o target) (sync.Sound target) := by
  unfold validate
  split
  · next hPartial =>
      -- Nothing was compared, so that something was left out.
      have hNot :
          sync.settings.validate.isEnabled = true →
            o.report.skippedProjects ≠ [] := by
        intro hEnabled hWhole
        simp [hEnabled, SyncReport.isPartial, hWhole] at hPartial
      exact Run.Yields.of_pure
        ⟨hO, fun hEnabled hWhole => absurd hWhole (hNot hEnabled),
          fun hEnabled hWhole => absurd hWhole (hNot hEnabled)⟩
  · dsimp only
    split
    · next hSame =>
        exact Run.Yields.of_pure
          ⟨hO, fun _ _ => hSame, fun _ _ => Or.inl rfl⟩
    · apply Run.Yields.bindAny
      intro build
      apply Run.Yields.bind (P := fun s => build.solution = .ok s)
      · cases build.solution with
        | error e => exact Run.Yields.of_throw _ _
        | ok s => exact Run.Yields.of_pure rfl
      · intro rebuilt hBuilt
        split
        · exact Run.Yields.of_throw_bind _ _ _
        · next hFits =>
            have hSame : rebuilt.checksum = target := by
              simp only [Bool.or_eq_true, not_or, bne_iff_ne,
                not_not] at hFits
              exact hFits.2
            exact Run.Yields.of_pure
              ⟨reachable_of_scratchBuild hBuilt,
                fun _ _ => hSame, fun _ _ => Or.inl rfl⟩

------------------------------------------------------------
-- The whole run
------------------------------------------------------------

/- Every way in which a run ends well gives a sound outcome. -/
theorem yields_bring
    {baseline : Solution}
    (hBaseline : baseline.Reachable)
    (target : Checksum) :
    Run.Yields (sync.bring baseline target)
      (sync.Sound target) := by
  unfold bring
  apply Run.Yields.bindAny
  intro _
  dsimp only
  split
  · next hSame =>
      exact Run.Yields.of_pure
        ⟨hBaseline, fun _ _ => hSame, fun _ _ => Or.inr rfl⟩
  · have hPlain : baseline.withoutFrozen.Reachable :=
      .edited (e := .detachFrozen) hBaseline rfl
    apply Run.Yields.bindAny
    intro new
    apply (yields_updateSolutionAttributes hPlain _ _ _).bind
    intro attributed hAttributed
    rw [← ite_not]
    apply Run.Yields.bindStep (P := Attainable)
    · apply yields_updateProjects
      exact hAttributed
    · exact hAttributed
    · intro updated hUpdated
      apply (yields_updateSolutionAnalyzers hUpdated _ _).bind
      intro analyzed hAnalyzed
      apply (yields_updateFrozen hAnalyzed _).bind
      intro frozen hFrozen
      apply yields_validate
      exact hFrozen

theorem yields_synchronizeWithReport
    {baseline : Solution}
    (hBaseline : baseline.Reachable)
    (target : Checksum) :
    Run.Yields (sync.synchronizeWithReport baseline target)
      (sync.Sound target) := by
  unfold synchronizeWithReport
  apply Run.Yields.bindAny
  intro before
  apply (yields_bring hBaseline target).bind
  intro o hSound
  apply Run.Yields.bindAny
  intro after
  exact Run.Yields.of_pure
    ⟨hSound.reachable, hSound.checksum, hSound.compared⟩

/-
  Two runs towards the same target that compared their results
  and left nothing out have reached it, whatever their sources
  answered and wherever they started.  If the hash has no
  collision among the byte strings hashed for the results,
  these have the same content.
-/
theorem synchronizeWithReport_agree
    {first second : Synchronizer}
    {b₁ b₂ : Solution}
    {target : Checksum}
    {s₁ s₂ t₁ t₂ : Session}
    {o₁ o₂ : SyncOutcome}
    (hB₁ : b₁.Reachable)
    (hB₂ : b₂.Reachable)
    (hEnabled₁ : first.settings.validate.isEnabled = true)
    (hEnabled₂ : second.settings.validate.isEnabled = true)
    (hRun₁ :
      (first.synchronizeWithReport b₁ target).start s₁ =
        (.ok o₁, t₁))
    (hRun₂ :
      (second.synchronizeWithReport b₂ target).start s₂ =
        (.ok o₂, t₂))
    (hWhole₁ : o₁.report.skippedProjects = [])
    (hWhole₂ : o₂.report.skippedProjects = []) :
    (o₁.solution.checksum = target ∧
      o₂.solution.checksum = target) ∧
    ((o₁.report.validated = true ∨ o₁.report.upToDate = true) ∧
      (o₂.report.validated = true ∨ o₂.report.upToDate = true)) ∧
    (Faithful
        {a | a ∈ o₁.solution.assets ∨ a ∈ o₂.solution.assets} →
      o₁.solution.SameContent o₂.solution) := by
  have hSound₁ : first.Sound target o₁ :=
    Run.Spec.of_ok
      (yields_synchronizeWithReport hB₁ target) hRun₁
  have hSound₂ : second.Sound target o₂ :=
    Run.Spec.of_ok
      (yields_synchronizeWithReport hB₂ target) hRun₂
  have hChecksum₁ := hSound₁.checksum hEnabled₁ hWhole₁
  have hChecksum₂ := hSound₂.checksum hEnabled₂ hWhole₂
  refine ⟨⟨hChecksum₁, hChecksum₂⟩,
    ⟨hSound₁.compared hEnabled₁ hWhole₁,
      hSound₂.compared hEnabled₂ hWhole₂⟩, ?_⟩
  intro hFaithful
  have hEq : o₁.solution = o₂.solution :=
    Solution.eq_of_checksum hFaithful hSound₁.reachable.wellFormed
      hSound₂.reachable.wellFormed (fun _ hA => Or.inl hA)
      (fun _ hA => Or.inr hA) (hChecksum₁.trans hChecksum₂.symm)
  rw [hEq]
  exact Solution.SameContent.refl _

/- A link that takes what comes. -/
def credulous : Synchronizer where
  link :=
    { source := .ofEntries Solution.small.publication
      verifies := false }
  settings := { validate := .always }

theorem atHand_small_self :
    credulous.AtHand Solution.small Solution.small {} where
  never := rfl
  holds := Source.holds_ofEntries _
  cache := atHand_small.cache
  pool := atHand_small.pool
  faithful := by
    apply atHand_small.faithful.mono
    rintro a (hA | hA)
    · exact Or.inr (Or.inl hA)
    · exact Or.inr hA

theorem bare_agrees_small :
    ∃ (o₁ o₂ : SyncOutcome) (t₁ t₂ : Session),
      (toSmall.synchronizeWithReport Solution.bare
          Solution.small.checksum).start {} = (.ok o₁, t₁) ∧
        (credulous.synchronizeWithReport Solution.small
            Solution.small.checksum).start {} = (.ok o₂, t₂) ∧
          o₁.solution.checksum = o₂.solution.checksum ∧
            o₁.solution.SameContent o₂.solution := by
  have hBare := Solution.reachable_bare
  have hSmall := Solution.reachable_small
  have hWhole₁ : toSmall.leftOut Solution.bare .small = [] := by
    decide +kernel
  have hWhole₂ : credulous.leftOut Solution.small .small = [] := by
    decide +kernel
  have hKeeps : Solution.small.KeepsFields Solution.small :=
    (Solution.continues_iff_keepsFields hSmall.wellFormed
      hSmall.wellFormed).1 .refl
  rcases atHand_small.exists_run hBare hSmall
      (by decide +kernel) keepsFields_small with
    ⟨f₁, t₁, hRun₁⟩
  rcases atHand_small_self.exists_run hSmall hSmall
      (Solution.sameLineage_self _) hKeeps with
    ⟨f₂, t₂, hRun₂⟩
  rcases synchronizeWithReport_agree hBare hSmall rfl rfl
      hRun₁ hRun₂
      (by simp [atHand_small.skippedProjects_reported hBare
        hSmall, hWhole₁])
      (by simp [atHand_small_self.skippedProjects_reported
        hSmall hSmall, hWhole₂]) with
    ⟨⟨hChecksum₁, hChecksum₂⟩, -, hSame⟩
  refine ⟨_, _, t₁, t₂, hRun₁, hRun₂,
    hChecksum₁.trans hChecksum₂.symm, hSame ?_⟩
  apply Solution.faithful_small.mono
  dsimp only
  rw [attained_eq hSmall.wellFormed hWhole₁,
    attained_eq hSmall.wellFormed hWhole₂]
  exact fun a hA => Or.inr (hA.elim id id)

end Synchronizer

end SnapTree
