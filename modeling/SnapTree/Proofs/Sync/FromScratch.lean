import SnapTree.Proofs.Sync.Synchronize
import SnapTree.Sync.FromScratch

/-
  This file proves what is built from nothing but a store that
  holds a snapshot: the snapshot, without the projects that
  cannot be held.

  Key definitions include:
    * `Synchronizer.held`
    * `Synchronizer.scratchBuild`

  Key theorems include:
    * `Supply.gives_collect`
    * `Synchronizer.solution_scratchBuild`
    * `Supply.gives_createSolution`
-/

namespace SnapTree

open ReferenceGraph

/- Some of the projects of a map refer in no cycle if all do. -/
theorem ReferenceGraph.Acyclic.filter
    {m : ProjectMap}
    (hAcyclic : Acyclic m)
    (f : ProjectId → Project → Bool) :
    Acyclic (m.filter f) := by
  have hSettles : ProjectMap.Settles (m.filter f) m := by
    intro id p hP
    rw [Std.ExtTreeMap.getElem?_filter',
      Option.filter_eq_some_iff] at hP
    exact Or.inr ⟨p, hP.1, rfl⟩
  exact hSettles.acyclic hAcyclic

/- Items of two sorts come out sort by sort, in their order. -/
theorem filterMap_getLeft?_sorted
    {α β γ : Type}
    (p : α → Bool)
    (f : α → β)
    (g : α → γ)
    (xs : List α) :
    (xs.map (fun x =>
        if p x then Sum.inl (f x) else Sum.inr (g x))).filterMap
          Sum.getLeft? = (xs.filter p).map f := by
  induction xs with
  | nil => rfl
  | cons x xs ih =>
      rw [List.map_cons, List.filterMap_cons, ih]
      cases hSort : p x with
      | true =>
          rw [List.filter_cons_of_pos hSort]
          rfl
      | false =>
          rw [List.filter_cons_of_neg (by simp [hSort])]
          rfl

theorem filterMap_getRight?_sorted
    {α β γ : Type}
    (p : α → Bool)
    (f : α → β)
    (g : α → γ)
    (xs : List α) :
    (xs.map (fun x =>
        if p x then Sum.inl (f x) else Sum.inr (g x))).filterMap
          Sum.getRight? = (xs.filter (fun x => !p x)).map g := by
  induction xs with
  | nil => rfl
  | cons x xs ih =>
      rw [List.map_cons, List.filterMap_cons, ih]
      cases hSort : p x with
      | true =>
          rw [List.filter_cons_of_neg (by simp [hSort])]
          rfl
      | false =>
          rw [List.filter_cons_of_pos (by simp [hSort])]
          rfl

namespace Synchronizer

variable (sync : Synchronizer) (t : Solution)

/- The projects of a solution that can be held. -/
def held : ProjectMap :=
  t.projects.filter (fun _ p => sync.supports p)

/- What a store that holds a solution says about it. -/
def scratchBuild : ScratchBuild where
  description :=
    { attributes := t.attributes
      projects :=
        (t.projectList.filter sync.supports).map
          Project.describe
      analyzerReferences := t.analyzerReferences }
  frozen := t.frozen
  skipped :=
    (t.projectList.filter (fun p => !sync.supports p)).map
      Project.skipped

variable {sync t} (hWell : t.WellFormed)

include hWell

/- The projects described are those that can be held. -/
theorem projectMap_scratchBuild :
    (sync.scratchBuild t).description.projectMap =
      sync.held t := by
  have hNodup :
      (((t.projectList.filter sync.supports).map
        Project.describe).map ProjectDescription.id).Nodup := by
    rw [List.map_map]
    exact hWell.isKeyed.nodup_values.sublist
      (List.filter_sublist.map _)
  have hDescribed :
      ∀ (id : ProjectId) (p : Project),
        t.projects[id]? = some p →
          p.describe.id = id ∧ p.describe.project = p :=
    fun id p hStands =>
      ⟨hWell.keyed id p hStands,
        (hWell.project id p hStands).project_describe⟩
  unfold SolutionDescription.projectMap scratchBuild held
  apply entering_eq hNodup
  intro id p
  rw [Std.ExtTreeMap.getElem?_filter',
    Option.filter_eq_some_iff]
  constructor
  · rintro ⟨hStands, hSupported⟩
    refine ⟨p.describe, List.mem_map_of_mem ?_,
      hDescribed id p hStands⟩
    exact List.mem_filter.2 ⟨mem_values hStands, hSupported⟩
  · rintro ⟨d, hD, hId, hProject⟩
    rcases List.mem_map.1 hD with ⟨q, hQ, rfl⟩
    rcases List.mem_filter.1 hQ with ⟨hMem, hSupported⟩
    have hStands := (Solution.mem_projectList hWell).1 hMem
    rcases hDescribed q.id q hStands with ⟨hSameId, hSame⟩
    rw [← hId, ← hProject, hSame, hSameId]
    exact ⟨hStands, hSupported⟩

/- What is built is the solution with these projects. -/
theorem solution_scratchBuild :
    (sync.scratchBuild t).solution =
      .ok (t.restricted (sync.held t)) := by
  have hMap :
      (sync.scratchBuild t).description.projectMap =
        sync.held t :=
    projectMap_scratchBuild hWell
  have hNodup :
      ((sync.scratchBuild t).description.projects.map
        ProjectDescription.id).Nodup := by
    unfold scratchBuild
    rw [List.map_map]
    exact hWell.isKeyed.nodup_values.sublist
      (List.filter_sublist.map _)
  have hDocuments :
      ∀ d ∈ (sync.scratchBuild t).description.projects,
        d.documentIds.Nodup := by
    intro d hD
    rcases List.mem_map.1 hD with ⟨q, hQ, rfl⟩
    have hStands :=
      (Solution.mem_projectList hWell).1
        (List.mem_of_mem_filter hQ)
    exact (hWell.project q.id q hStands).nodup_documentIds
  have hAcyclic :
      Acyclic (sync.scratchBuild t).description.projectMap := by
    rw [hMap]
    exact hWell.acyclic.filter _
  have hMade :=
    Solution.ofDescription_eq_ok_iff.2
      ⟨hDocuments, hNodup, hAcyclic, rfl⟩
  rw [hMap] at hMade
  have hFrozen : (sync.scratchBuild t).frozen = t.frozen := rfl
  unfold ScratchBuild.solution Solution.restricted
  rw [hMade, hFrozen]
  refine bind_eq_ok_iff.2 ⟨_, rfl, ?_⟩
  cases t.frozen with
  | none => rfl
  | some f =>
      dsimp only
      rw [Option.filter_some]
      by_cases hHeld : f.identity.projectId ∈ sync.held t
      · rw [if_pos (Solution.containsProject_iff.2 hHeld),
          if_pos (Std.ExtTreeMap.contains_iff_mem.2 hHeld)]
        exact Solution.withFrozen_eq_ok_iff.2 ⟨hHeld, rfl⟩
      · rw [if_neg (fun h =>
            hHeld (Solution.containsProject_iff.1 h)),
          if_neg (fun h =>
            hHeld (Std.ExtTreeMap.contains_iff_mem.1 h))]
        rfl

end Synchronizer

------------------------------------------------------------
-- Building from a store
------------------------------------------------------------

namespace Supply

variable {sync : Synchronizer} (S : Supply sync.link)
variable {K : Set Asset} {fail : SyncError → Prop}
variable (hLack : ∀ e, S.lack e → fail (.ofAsset e))

include hLack

/- A project is described, or named among those left out. -/
theorem gives_collectProject
    {p : Project}
    (hWanted : ∀ a ∈ p.assets, a ∈ S.wanted) :
    S.Gives K (sync.collectProject p.checksum) True
      (if sync.supports p then .inl p.describe
        else .inr p.skipped)
      K fail := by
  have hNode : Asset.projectNode p.node ∈ p.assets := by
    simp [Project.assets]
  have hAttributes :
      Asset.projectAttributes p.attributes ∈ p.assets := by
    simp [Project.assets]
  let K' :=
    K ∪ {.projectNode p.node, .projectAttributes p.attributes}
  have hDescription :
      S.Gives K (sync.projectDescription p.checksum) True
        (if sync.supports p then some p.describe else none) K'
        fail :=
    S.gives_projectDescription hLack (hWanted _ hNode)
      (hWanted _ hAttributes) (fun _ => hWanted)
  suffices hAll :
      S.Gives K (sync.collectProject p.checksum) True _ K' fail
      from
    hAll.keep (fun a hA => Or.inl hA)
  unfold Synchronizer.collectProject
  apply (S.gives_checkCancelled hLack).bind
  cases hSupported : sync.supports p with
  | true =>
      rw [if_pos hSupported] at hDescription
      apply hDescription.bind
      exact Gives.of_pure _
  | false =>
      rw [if_neg (by simp [hSupported])] at hDescription
      apply hDescription.bind
      dsimp only
      rw [map_eq_pure_bind]
      apply (S.gives_skippedProject hLack (p := p)
        (Or.inr (Or.inl rfl)) (Or.inr (Or.inr rfl))).bind
      exact Gives.of_pure _

section Solution

variable
  {t : Solution}
  {assets : Set Asset}
  (hFaithful : Faithful assets)
  (hAssets : ∀ a ∈ t.assets, a ∈ assets)
  (hWanted : ∀ a ∈ t.assets, a ∈ S.wanted)

include hFaithful hAssets hWanted

/- A store that holds a solution says all about it. -/
theorem gives_collect :
    S.Gives K (sync.collect t.checksum) True
      (sync.scratchBuild t) K fail := by
  rcases Solution.forall_mem_assets.1 hWanted with
    ⟨hNode, hAttributes, hReferences, hProjects, hFrozen⟩
  rcases Solution.forall_mem_assets.1 hAssets with
    ⟨-, -, -, -, hFrozenAssets⟩
  have hFetchNode :
      S.Gives K (sync.fetch t.checksum) True t.node K fail := by
    rw [← t.checksum_toAsset_node]
    exact S.gives_fetch_keep hLack hNode
  have hFetchAttributes :
      S.Gives K (sync.fetch t.node.attributes) True t.attributes
        K fail := by
    rw [t.attributes_node]
    exact S.gives_fetch_keep hLack hAttributes
  have hTrees :
      S.Gives K
        (SyncRun.ofAssets
          (sync.link.fetchProjects
            (t.projectList.map Project.checksum)))
        True () K fail :=
    ((S.gives_fetchProjects hProjects).failingAs hLack).keep
      (fun a hA => Or.inl hA)
  have hCollected :
      S.Gives K
        ((t.projectList.map Project.checksum).mapM
          sync.collectProject)
        True
        (t.projectList.map (fun p =>
          if sync.supports p then Sum.inl p.describe
          else Sum.inr p.skipped)) K fail := by
    rw [List.mapM_map]
    apply Gives.mapM
    intro p hP
    exact S.gives_collectProject hLack (hProjects p hP)
  have hAnalyzers :
      S.Gives K
        (sync.fetchAnalyzerReferences t.node.analyzerReferences)
        True t.analyzerReferences K fail :=
    (S.gives_fetchAnalyzerReferences hLack (by simp)
      hReferences).keep (fun a hA => Or.inl hA)
  unfold Synchronizer.collect
  apply hFetchNode.bind
  apply hFetchAttributes.bind
  rw [t.projects_node, Collection.members_of]
  apply hTrees.bind
  apply hCollected.bind
  apply hAnalyzers.bind
  dsimp only
  rw [filterMap_getLeft?_sorted, filterMap_getRight?_sorted,
    Solution.frozen?_node hFaithful hFrozenAssets]
  unfold Synchronizer.scratchBuild
  cases hF : t.frozen with
  | none => exact Gives.of_pure _
  | some f =>
      have hFetchFrozen :
          S.Gives K
            (sync.fetchFrozen (AssetValue.checksum f.identity)
              (AssetValue.checksum f.text))
            True f K fail :=
        (S.gives_fetchFrozen hLack (hFrozen f hF)).keep
          (fun a hA => Or.inl hA)
      rw [Option.map_some]
      dsimp only
      simp only [map_eq_pure_bind, bind_assoc, pure_bind]
      apply hFetchFrozen.bind
      exact Gives.of_pure _

/- A solution is built of a store that holds it. -/
theorem gives_createSolution
    (hWell : t.WellFormed) :
    S.Gives K (sync.createSolution t.checksum) True
      (t.restricted (sync.held t)) K fail := by
  unfold Synchronizer.createSolution
  apply (S.gives_collect hLack hFaithful hAssets hWanted).bind
  exact S.gives_ofEdit
    (Synchronizer.solution_scratchBuild hWell)

end Solution

end Supply

end SnapTree
