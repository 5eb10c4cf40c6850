import SnapTree.Proofs.Sync.Projects
import SnapTree.Sync.Synchronize

/-
  This file proves what a baseline becomes when it is brought
  to a target, part by part: the target, without the projects
  that cannot be held, and what is reported about it.

  Key definitions include:
    * `Synchronizer.attained`
    * `Synchronizer.leftOut`
    * `Synchronizer.reported`

  Key theorems include:
    * `SyncReport.skippedProjects_migrating`
    * `Synchronizer.attained_eq`
    * `Supply.gives_bring`
-/

namespace SnapTree

------------------------------------------------------------
-- What is reported
------------------------------------------------------------

namespace SyncReport

/- What no change to a project touches stays as it was. -/
theorem renewing_of_updating
    {α : Type}
    {f : SyncReport → α}
    (hField : ∀ r p q, f (r.updating p q) = f r)
    (r : SyncReport)
    (done : List (Project × Project)) :
    f (r.renewing done) = f r := by
  unfold renewing
  induction done generalizing r with
  | nil => rfl
  | cons pair rest ih =>
      rw [List.foldl_cons, ih, hField]

section

variable
  (r : SyncReport)
  (supports : Project → Bool)
  (m target : ProjectMap)

@[simp]
theorem skippedProjects_migrating :
    (r.migrating supports m target).skippedProjects =
      r.skippedProjects ++
        ((comers m target).filter (fun q => !supports q)).map
          Project.skipped := by
  unfold migrating
  rw [renewing_of_updating (f := skippedProjects)]
  · dsimp only [joining, dropping]
  · intro r p q
    dsimp only [updating, revising, removing]

@[simp]
theorem validated_migrating :
    (r.migrating supports m target).validated = r.validated := by
  unfold migrating
  rw [renewing_of_updating (f := validated)]
  · dsimp only [joining, dropping]
  · intro r p q
    dsimp only [updating, revising, removing]

@[simp]
theorem usedFallback_migrating :
    (r.migrating supports m target).usedFallback =
      r.usedFallback := by
  unfold migrating
  rw [renewing_of_updating (f := usedFallback)]
  · dsimp only [joining, dropping]
  · intro r p q
    dsimp only [updating, revising, removing]

end

/- Nothing happens to projects that are those of the target. -/
theorem migrating_self
    (r : SyncReport)
    (supports : Project → Bool)
    (m : ProjectMap) :
    r.migrating supports m m = r := by
  unfold migrating leavers comers changers
  rw [departing_self, Std.ExtTreeMap.keys_eq_nil_iff.2 rfl,
    Std.ExtTreeMap.toList_eq_nil_iff.2 rfl]
  unfold renewing joining dropping
  simp

end SyncReport

------------------------------------------------------------
-- What is attained
------------------------------------------------------------

namespace ProjectMap

variable (supports : Project → Bool) (m target : ProjectMap)

/- Projects that are all there before all stay. -/
theorem attained_self :
    attained supports m m = m := by
  apply Std.ExtTreeMap.ext_getElem?
  intro k
  apply Option.ext
  intro p
  unfold attained
  rw [Std.ExtTreeMap.getElem?_filter',
    Option.filter_eq_some_iff, Bool.or_eq_true,
    Std.ExtTreeMap.contains_iff_mem]
  constructor
  · exact And.left
  · intro hP
    exact ⟨hP, Or.inl (mem_of_getElem? hP)⟩

variable {m target} in
/- All projects are attained if none is left out. -/
theorem attained_eq_target
    (hTarget : IsKeyed Project.id target)
    (hNone :
      (comers m target).filter (fun q => !supports q) = []) :
    attained supports m target = target := by
  apply Std.ExtTreeMap.ext_getElem?
  intro k
  apply Option.ext
  intro q
  unfold attained
  rw [Std.ExtTreeMap.getElem?_filter',
    Option.filter_eq_some_iff, Bool.or_eq_true,
    Std.ExtTreeMap.contains_iff_mem]
  constructor
  · exact And.left
  · intro hQ
    refine ⟨hQ, ?_⟩
    by_cases hHere : k ∈ m
    · exact Or.inl hHere
    · right
      have hKey := hTarget k q hQ
      subst hKey
      have hComes := (mem_comers hTarget).2 ⟨hQ, hHere⟩
      simpa using List.filter_eq_nil_iff.1 hNone q hComes

end ProjectMap

/-
  A solution with some of its projects, and with its frozen
  document if that belongs to one of them.
-/
def Solution.restricted
    (t : Solution)
    (projects : ProjectMap) : Solution :=
  { t with
    projects
    frozen :=
      t.frozen.filter
        (fun f => projects.contains f.identity.projectId) }

/- With all of its projects, a solution is itself. -/
theorem Solution.WellFormed.restricted_self
    {t : Solution}
    (hWell : t.WellFormed) :
    t.restricted t.projects = t := by
  have hFrozen :
      t.frozen.filter
          (fun f => t.projects.contains f.identity.projectId) =
        t.frozen := by
    cases hF : t.frozen with
    | none => rfl
    | some f =>
        rw [Option.filter_some, if_pos]
        exact Std.ExtTreeMap.contains_iff_mem.2
          (hWell.frozen f hF)
  unfold restricted
  rw [hFrozen]

namespace Solution

/- A frozen document does not count for other parts of a root. -/
theorem attributes_node_withoutFrozen
    (s : Solution) :
    s.withoutFrozen.node.attributes = s.node.attributes := by
  rw [attributes_node, attributes_node]
  rfl

theorem projects_node_withoutFrozen
    (s : Solution) :
    s.withoutFrozen.node.projects = s.node.projects := by
  rw [projects_node, projects_node]
  rfl

theorem analyzerReferences_node_withoutFrozen
    (s : Solution) :
    s.withoutFrozen.node.analyzerReferences =
      s.node.analyzerReferences := by
  rw [analyzerReferences_node, analyzerReferences_node]
  rfl

/- A solution is a version of itself. -/
theorem sameLineage_self
    (s : Solution) :
    s.sameLineage s.attributes = true := by
  unfold sameLineage id
  simp

theorem Continues.refl
    {s : Solution} :
    s.Continues s := by
  intro id p q hP hQ
  rw [hP] at hQ
  rw [Option.some.inj hQ]
  exact Project.Continues.refl q

end Solution

namespace Synchronizer

variable (sync : Synchronizer) (s t : Solution)

/-
  The target without the projects that the baseline lacks and
  that cannot be held.
-/
def attained : Solution :=
  t.restricted
    (ProjectMap.attained sync.supports s.projects t.projects)

/- The projects of a target that a baseline does not get. -/
def leftOut : List Project :=
  t.projectList.filter
    (fun q => !s.containsProject q.id && !sync.supports q)

/- What is reported about the projects. -/
def migration : SyncReport :=
  ({ baseline := s.checksum, target := t.checksum } :
    SyncReport).migrating sync.supports s.projects t.projects

/- What is reported in the end, fetches apart. -/
def reported : SyncReport :=
  if s.checksum = t.checksum then
    { baseline := s.checksum
      target := t.checksum
      upToDate := true }
  else
    { sync.migration s t with
      validated :=
        sync.settings.validate.isEnabled &&
          !(sync.migration s t).isPartial }

variable {sync s t}

/- Those that a baseline does not get are among those that come. -/
theorem leftOut_eq
    (hKeyed : IsKeyed Project.id t.projects) :
    sync.leftOut s t =
      (comers s.projects t.projects).filter
        (fun q => !sync.supports q) := by
  unfold leftOut
  rw [comers_eq hKeyed, List.filter_filter]
  apply List.filter_congr
  intro q _
  rw [Bool.and_comm]
  rfl

theorem skippedProjects_migration
    (hKeyed : IsKeyed Project.id t.projects) :
    (sync.migration s t).skippedProjects =
      (sync.leftOut s t).map Project.skipped := by
  unfold migration
  rw [SyncReport.skippedProjects_migrating, leftOut_eq hKeyed]
  rfl

/- The target itself is attained if no project is left out. -/
theorem attained_eq
    (hWell : t.WellFormed)
    (hWhole : sync.leftOut s t = []) :
    sync.attained s t = t := by
  rw [leftOut_eq hWell.isKeyed] at hWhole
  unfold attained
  rw [ProjectMap.attained_eq_target _ hWell.isKeyed hWhole,
    hWell.restricted_self]

/- Where the projects are the same, none of them is touched. -/
theorem migration_of_same
    (hSame : s.projects = t.projects)
    {b : Solution}
    (hB : b.projects = s.projects) :
    (⟨b.holding
        (ProjectMap.attained sync.supports s.projects t.projects),
        sync.migration s t⟩ : SyncOutcome) =
      ⟨b, { baseline := s.checksum, target := t.checksum }⟩ := by
  unfold migration
  rw [← hSame, ProjectMap.attained_self,
    SyncReport.migrating_self, ← hB, Solution.holding_self]

/- What is attained has a frozen document if its project is there. -/
theorem attained_of_parts
    {c : Solution}
    (hAttributes : c.attributes = t.attributes)
    (hProjects :
      c.projects =
        ProjectMap.attained sync.supports s.projects t.projects)
    (hReferences : c.analyzerReferences = t.analyzerReferences) :
    ({ c with
      frozen :=
        t.frozen.filter
          (fun f => c.projects.contains f.identity.projectId) } :
        Solution) =
      sync.attained s t := by
  unfold attained Solution.restricted
  rw [← hAttributes, ← hProjects, ← hReferences]

/- What is attained passes the comparison with the target. -/
theorem validate_attained
    (hWell : t.WellFormed) :
    sync.validate ⟨sync.attained s t, sync.migration s t⟩
        t.checksum =
      pure
        ⟨sync.attained s t,
          { sync.migration s t with
            validated :=
              sync.settings.validate.isEnabled &&
                !(sync.migration s t).isPartial }⟩ := by
  have hUnmarked : (sync.migration s t).validated = false := by
    unfold Synchronizer.migration
    rw [SyncReport.validated_migrating]
  have hLeft :
      ({ sync.migration s t with validated := false } :
        SyncReport) = sync.migration s t := by
    rw [← hUnmarked]
  unfold Synchronizer.validate
  cases hEnabled : sync.settings.validate.isEnabled with
  | false =>
      rw [Bool.false_and, hLeft]
      rfl
  | true =>
      cases hPartial : (sync.migration s t).isPartial with
      | true =>
          dsimp only
          rw [Bool.not_true, Bool.and_false, hLeft,
            if_pos (Bool.or_true _)]
      | false =>
          have hNone : sync.leftOut s t = [] := by
            unfold SyncReport.isPartial at hPartial
            rw [Synchronizer.skippedProjects_migration
              hWell.isKeyed] at hPartial
            simpa using hPartial
          have hWhole :
              (sync.attained s t).checksum = t.checksum := by
            rw [Synchronizer.attained_eq hWell hNone]
          dsimp only
          rw [if_neg (by simp), if_pos hWhole]
          rfl

end Synchronizer

------------------------------------------------------------
-- The parts of a solution
------------------------------------------------------------

namespace Supply

variable {sync : Synchronizer} (S : Supply sync.link)
variable {K : Set Asset} {fail : SyncError → Prop}
variable (hLack : ∀ e, S.lack e → fail (.ofAsset e))

variable
  {s t : Solution}
  {assets : Set Asset}
  (hBoth : s.Comparable t assets)
  (hWanted : ∀ a, s.Needs t a → a ∈ S.wanted)
  (b : Solution)

include hLack hBoth hWanted

/- A solution gets its attributes, if it is of one lineage. -/
theorem gives_updateSolutionAttributes
    (target : Checksum)
    (hB : b.attributes = s.attributes)
    (hLineage :
      ¬s.sameLineage t.attributes = true →
        ∀ field, fail (.notIncremental s.id target field)) :
    S.Gives K
      (sync.updateSolutionAttributes b target
        s.node.attributes t.node.attributes)
      (s.sameLineage t.attributes = true)
      { b with attributes := t.attributes } K fail := by
  rcases Solution.forall_mem_assets.1 hBoth.left_mem with
    ⟨-, hAttributesS, -⟩
  rcases Solution.forall_mem_assets.1 hBoth.right_mem with
    ⟨-, hAttributesT, -⟩
  have hId : b.id = s.id := by
    unfold Solution.id
    rw [hB]
  have hSameLineage :
      b.sameLineage t.attributes =
        s.sameLineage t.attributes := by
    unfold Solution.sameLineage Solution.id
    rw [hB]
  rw [s.attributes_node, t.attributes_node]
  unfold Synchronizer.updateSolutionAttributes
  by_cases hSame :
      AssetValue.checksum s.attributes =
        AssetValue.checksum t.attributes
  · have hEq : s.attributes = t.attributes :=
      hBoth.faithful.value_eq hAttributesS hAttributesT rfl rfl
        hSame
    rw [if_pos hSame, ← hEq, ← hB]
    apply Gives.anyway ?_ (Gives.of_pure _)
    unfold Solution.sameLineage Solution.id
    simp [hB, hEq]
  · have hFetch :
        S.Gives K
          (sync.fetch (AssetValue.checksum t.attributes)) True
          t.attributes K fail :=
      S.gives_fetch_keep hLack
        (hWanted _ (.attributes (fun hEq => hSame (by rw [hEq]))))
    rw [if_neg hSame]
    apply hFetch.bind
    rw [hSameLineage, hId]
    dsimp only
    cases hLineageOk : s.sameLineage t.attributes with
    | false =>
        have hFail :=
          hLineage (by rw [hLineageOk]; exact Bool.false_ne_true)
        split
        · exact Gives.of_throw_bind (hFail .id)
        · exact Gives.of_throw_bind (hFail .filePath)
    | true =>
        have hIds : t.attributes.id = s.id := by
          unfold Solution.sameLineage at hLineageOk
          rw [Bool.and_eq_true, beq_iff_eq] at hLineageOk
          exact hLineageOk.1.symm
        rw [if_neg (not_not.2 hIds)]
        apply Gives.anyway rfl
        apply S.gives_ofEdit
        exact Solution.withAttributes_eq_ok_iff.2
          ⟨hIds.trans hId.symm, rfl⟩

/- A solution gets its analyzer references. -/
theorem gives_updateSolutionAnalyzers
    (hB : b.analyzerReferences = s.analyzerReferences) :
    S.Gives K
      (sync.updateSolutionAnalyzers b s.node.analyzerReferences
        t.node.analyzerReferences)
      True { b with analyzerReferences := t.analyzerReferences }
      K fail := by
  unfold Synchronizer.updateSolutionAnalyzers
  by_cases hSame :
      s.node.analyzerReferences.checksum =
        t.node.analyzerReferences.checksum
  · have hEq := hBoth.analyzerReferences_eq hSame
    rw [if_pos hSame, ← hEq, ← hB]
    exact Gives.of_pure _
  · have hNe : s.analyzerReferences ≠ t.analyzerReferences := by
      intro hEq
      rw [s.analyzerReferences_node, t.analyzerReferences_node,
        hEq] at hSame
      exact hSame rfl
    have hFetch :
        S.Gives K
          (sync.fetchAnalyzerReferences
            t.node.analyzerReferences)
          True t.analyzerReferences K fail :=
      (S.gives_fetchAnalyzerReferences hLack (by simp)
        (fun r hR => hWanted _ (.analyzerReference hNe hR))).keep
          (fun a hA => Or.inl hA)
    rw [if_neg hSame]
    apply hFetch.bind
    exact Gives.of_pure _

/-
  The frozen document is attached if its project is present,
  and nothing is in its place otherwise.
-/
theorem gives_updateFrozen
    (hB : b.frozen = none) :
    S.Gives K (sync.updateFrozen b t.node) True
      { b with
        frozen :=
          t.frozen.filter
            (fun f =>
              b.projects.contains f.identity.projectId) }
      K fail := by
  rcases Solution.forall_mem_assets.1 hBoth.right_mem with
    ⟨-, -, -, -, hFrozenT⟩
  unfold Synchronizer.updateFrozen
  rw [Solution.frozen?_node hBoth.faithful hFrozenT]
  have hSame : ({ b with frozen := none } : Solution) = b := by
    rw [← hB]
  cases hF : t.frozen with
  | none =>
      rw [Option.filter_none, hSame]
      exact Gives.of_pure _
  | some f =>
      have hFetch :
          S.Gives K
            (sync.fetchFrozen (AssetValue.checksum f.identity)
              (AssetValue.checksum f.text))
            True f K fail :=
        (S.gives_fetchFrozen hLack
          (fun a hA => hWanted a (.frozen hF hA))).keep
            (fun a hA => Or.inl hA)
      rw [Option.filter_some, Option.map_some]
      dsimp only
      apply hFetch.bind
      by_cases hPresent : f.identity.projectId ∈ b.projects
      · rw [if_pos (Solution.containsProject_iff.2 hPresent),
          if_pos (Std.ExtTreeMap.contains_iff_mem.2 hPresent)]
        apply S.gives_ofEdit
        exact Solution.withFrozen_eq_ok_iff.2 ⟨hPresent, rfl⟩
      · rw [if_neg (fun h =>
            hPresent (Solution.containsProject_iff.1 h)),
          if_neg (fun h =>
            hPresent (Std.ExtTreeMap.contains_iff_mem.1 h)),
          hSame]
        exact Gives.of_pure _

------------------------------------------------------------
-- The whole run
------------------------------------------------------------

/-
  Once it has the projects that are attained, a solution lacks
  the analyzer references and the frozen document.
-/
theorem gives_finish
    (hB :
      b.attributes = t.attributes ∧ b.frozen = none ∧
        b.analyzerReferences = s.analyzerReferences) :
    S.Gives K
      (do
        let c ←
          sync.updateSolutionAnalyzers
            (b.holding
              (ProjectMap.attained sync.supports s.projects
                t.projects))
            s.node.analyzerReferences t.node.analyzerReferences
        let c ← sync.updateFrozen c t.node
        sync.validate ⟨c, sync.migration s t⟩ t.checksum)
      True
      ⟨sync.attained s t,
        { sync.migration s t with
          validated :=
            sync.settings.validate.isEnabled &&
              !(sync.migration s t).isPartial }⟩
      K fail := by
  let projects :=
    ProjectMap.attained sync.supports s.projects t.projects
  let c : Solution :=
    { b.holding projects with
      analyzerReferences := t.analyzerReferences }
  have hFrozen :=
    S.gives_updateFrozen hLack hBoth hWanted (K := K) c hB.2.1
  rw [Synchronizer.attained_of_parts (c := c) hB.1 rfl rfl]
    at hFrozen
  apply (S.gives_updateSolutionAnalyzers hLack hBoth hWanted
    (b.holding projects) hB.2.2).bind
  apply hFrozen.bind
  rw [Synchronizer.validate_attained hBoth.right]
  exact Gives.of_pure _

/-
  A baseline is brought to a target of the same lineage, where
  nothing changes that stays as long as a project or a document
  lives.
-/
theorem gives_bring
    (hLineage :
      ¬s.sameLineage t.attributes = true →
        ∀ field, fail (.notIncremental s.id t.checksum field))
    (hField :
      s.sameLineage t.attributes = true → ¬s.Continues t →
        ∀ v : Violation, v.cause? = none →
          fail (.protocolViolation v)) :
    S.Gives K (sync.bring s t.checksum)
      (s.sameLineage t.attributes = true ∧ s.Continues t)
      ⟨sync.attained s t, sync.reported s t⟩ K fail := by
  unfold Synchronizer.bring Synchronizer.reported
  apply (S.gives_checkCancelled hLack).bind
  dsimp only
  by_cases hSame : s.checksum = t.checksum
  · have hEq := hBoth.eq_of_checksum hSame
    have hAttained : sync.attained s t = s := by
      unfold Synchronizer.attained
      rw [← hEq, ProjectMap.attained_self,
        hBoth.left.restricted_self]
    rw [if_pos hSame, if_pos hSame, hAttained]
    apply Gives.anyway ?_ (Gives.of_pure _)
    rw [← hEq]
    exact ⟨s.sameLineage_self, Solution.Continues.refl⟩
  · have hFetch :
        S.Gives K (sync.fetch t.checksum) True t.node K fail := by
      rw [← t.checksum_toAsset_node]
      exact S.gives_fetch_keep hLack (hWanted _ .node)
    let b : Solution :=
      { s.withoutFrozen with attributes := t.attributes }
    let r : SyncReport :=
      { baseline := s.checksum, target := t.checksum }
    have hAttributes :=
      S.gives_updateSolutionAttributes (K := K) hLack hBoth
        hWanted s.withoutFrozen t.checksum rfl hLineage
    rw [if_neg hSame, if_neg hSame]
    apply hFetch.bind
    rw [s.attributes_node_withoutFrozen,
      s.projects_node_withoutFrozen,
      s.analyzerReferences_node_withoutFrozen]
    refine hAttributes.bindIf (fun hLineageOk => ?_)
    refine Gives.bindEitherAlways
      (v := ⟨b.holding
        (ProjectMap.attained sync.supports s.projects
          t.projects), sync.migration s t⟩) ?_ ?_ ?_
    · intro hChecksum
      have hEq := hBoth.projects_eq hChecksum
      rw [Synchronizer.migration_of_same (b := b) hEq rfl]
      apply Gives.anyway ?_ (Gives.of_pure _)
      intro id p q hP hQ
      rw [← hEq, hP] at hQ
      rw [Option.some.inj hQ]
      exact Project.Continues.refl q
    · intro _
      exact S.gives_updateProjects hLack hBoth b r rfl hWanted
        (hField hLineageOk)
    · exact S.gives_finish hLack hBoth hWanted b
        ⟨rfl, rfl, rfl⟩

end Supply

end SnapTree
