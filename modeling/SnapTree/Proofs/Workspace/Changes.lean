import SnapTree.Proofs.Workspace.CycleSearch
import SnapTree.Proofs.Workspace.Descriptions
import SnapTree.Workspace.Edit

/-
  This file proves when a solution can be described or changed
  and what the result is: all changes to a project put another
  one in its place.

  Key definitions include:
    * `Solution.put`
    * `Solution.drop`
    * `SolutionDescription.projectMap`

  Key theorems include:
    * `Solution.ofDescription_eq_ok_iff`
    * `Solution.changeProject_eq_ok_iff`
    * `Solution.withProjectReferences_eq_ok_iff`
    * `Solution.addProject_eq_ok_iff`
    * `Solution.removeProject_eq_ok_iff`
    * `Solution.withFrozen_eq_ok_iff`
-/

namespace SnapTree

open ReferenceGraph

/- The identity of the project that a description gives. -/
def ProjectDescription.id
    (d : ProjectDescription) : ProjectId :=
  d.attributes.id

/- The projects described, by identity. -/
def SolutionDescription.projectMap
    (d : SolutionDescription) : ProjectMap :=
  entering ProjectDescription.id ProjectDescription.project ∅
    d.projects

namespace Solution

/- A solution with a project under an identity. -/
def put
    (s : Solution)
    (id : ProjectId)
    (p : Project) : Solution :=
  { s with projects := s.projects.insert id p }

/- A solution without a project and its frozen document. -/
def drop
    (s : Solution)
    (id : ProjectId) : Solution :=
  { s with
    projects := s.projects.erase id
    frozen := s.frozen.filter (fun f => f.identity.projectId ≠ id) }

section

variable
  (s : Solution)
  (id : ProjectId)
  (p q : Project)

@[simp]
theorem attributes_put :
    (s.put id p).attributes = s.attributes :=
  rfl

@[simp]
theorem analyzerReferences_put :
    (s.put id p).analyzerReferences = s.analyzerReferences :=
  rfl

@[simp]
theorem frozen_put :
    (s.put id p).frozen = s.frozen :=
  rfl

@[simp]
theorem projects_put :
    (s.put id p).projects = s.projects.insert id p :=
  rfl

@[simp]
theorem projects_drop :
    (s.drop id).projects = s.projects.erase id :=
  rfl

@[simp]
theorem put_put :
    (s.put id p).put id q = s.put id q := by
  unfold put
  congr 1
  apply Std.ExtTreeMap.ext_getElem?
  intro other
  simp only [Std.ExtTreeMap.getElem?_insert]
  split <;> rfl

end

theorem containsProject_iff
    {s : Solution}
    {id : ProjectId} :
    s.containsProject id = true ↔ id ∈ s.projects :=
  Std.ExtTreeMap.contains_iff_mem

/- Putting a project where it already stands changes nothing. -/
theorem put_self
    {s : Solution}
    {id : ProjectId}
    {p : Project}
    (hStands : s.projects[id]? = some p) :
    s.put id p = s := by
  have hSame : s.projects.insert id p = s.projects := by
    apply Std.ExtTreeMap.ext_getElem?
    intro other
    rw [Std.ExtTreeMap.getElem?_insert]
    split
    · next hEq =>
        rw [← Std.LawfulEqOrd.eq_of_compare hEq, hStands]
    · rfl
  unfold put
  rw [hSame]

------------------------------------------------------------
-- Descriptions
------------------------------------------------------------

/-
  Descriptions of projects give a map exactly if each of them
  is acceptable and their identities are distinct.
-/
theorem projectMap_eq_ok_iff
    {ds : List ProjectDescription}
    {m : ProjectMap} :
    projectMap ds = .ok m ↔
      (∀ d ∈ ds, d.documentIds.Nodup) ∧
        (ds.map ProjectDescription.id).Nodup ∧
          m = entering ProjectDescription.id
            ProjectDescription.project ∅ ds := by
  unfold projectMap
  rw [foldlM_entering_eq_ok_iff
    (fun d => d.documentIds.Nodup) ProjectDescription.id
    ProjectDescription.project]
  · simp
  · intro m d m'
    have hContains :
        m.contains d.attributes.id = true ↔ d.id ∈ m :=
      Std.ExtTreeMap.contains_iff_mem
    rw [bind_eq_ok_iff]
    constructor
    · rintro ⟨p, hP, hOk⟩
      rcases Project.ofDescription_eq_ok_iff.1 hP with ⟨hNodup, rfl⟩
      split at hOk
      · cases hOk
      · next hFree =>
          rw [hContains] at hFree
          exact ⟨hNodup, hFree, (Except.ok.inj hOk).symm⟩
    · rintro ⟨hNodup, hFree, rfl⟩
      refine ⟨_, Project.ofDescription_eq_ok_iff.2
        ⟨hNodup, rfl⟩, ?_⟩
      rw [if_neg (fun hTaken => hFree (hContains.1 hTaken))]
      rfl

/-
  A description is accepted exactly if those of its projects
  are, their identities are distinct, and their references
  form no cycle.
-/
theorem ofDescription_eq_ok_iff
    {d : SolutionDescription}
    {s : Solution} :
    ofDescription d = .ok s ↔
      (∀ p ∈ d.projects, p.documentIds.Nodup) ∧
        (d.projects.map ProjectDescription.id).Nodup ∧
          Acyclic d.projectMap ∧
            s = ⟨d.attributes, d.projectMap,
              d.analyzerReferences, none⟩ := by
  unfold ofDescription
  rw [bind_eq_ok_iff]
  constructor
  · rintro ⟨m, hMap, hOk⟩
    rcases projectMap_eq_ok_iff.1 hMap with ⟨hNodups, hNodup, rfl⟩
    rcases bind_eq_ok_iff.1 hOk with ⟨⟨⟩, hAcyclic, hOk⟩
    exact ⟨hNodups, hNodup, checkAcyclic_eq_ok_iff.1 hAcyclic,
      (Except.ok.inj hOk).symm⟩
  · rintro ⟨hNodups, hNodup, hAcyclic, rfl⟩
    refine ⟨_, projectMap_eq_ok_iff.2
      ⟨hNodups, hNodup, rfl⟩, ?_⟩
    exact bind_eq_ok_iff.2
      ⟨(), checkAcyclic_eq_ok_iff.2 hAcyclic, rfl⟩

------------------------------------------------------------
-- Changes to the solution
------------------------------------------------------------

theorem withAttributes_eq_ok_iff
    {s t : Solution}
    {attributes : SolutionAttributes} :
    s.withAttributes attributes = .ok t ↔
      attributes.id = s.id ∧ t = { s with attributes } := by
  unfold withAttributes
  by_cases hId : attributes.id = s.id
  · rw [if_neg (by simpa using hId)]
    constructor
    · intro hOk
      exact ⟨hId, (Except.ok.inj hOk).symm⟩
    · rintro ⟨-, rfl⟩
      rfl
  · rw [if_pos hId]
    constructor
    · intro hOk
      cases hOk
    · rintro ⟨hSame, -⟩
      exact absurd hSame hId

/-
  A project can be added exactly if its description is
  acceptable, its identity is free, and it closes no cycle.
-/
theorem addProject_eq_ok_iff
    {s t : Solution}
    {d : ProjectDescription} :
    s.addProject d = .ok t ↔
      d.id ∉ s.projects ∧ d.documentIds.Nodup ∧
        t = s.put d.id d.project ∧
          (d.projectReferences = [] ∨ Acyclic t.projects) := by
  unfold addProject
  have hContains :
      s.containsProject d.attributes.id = true ↔
        d.id ∈ s.projects :=
    containsProject_iff
  by_cases hTaken : d.id ∈ s.projects
  · rw [if_pos (hContains.2 hTaken)]
    constructor
    · intro hOk
      cases hOk
    · rintro ⟨hFree, -⟩
      exact absurd hTaken hFree
  · rw [if_neg (fun h => hTaken (hContains.1 h)), bind_eq_ok_iff]
    constructor
    · rintro ⟨p, hP, hOk⟩
      rcases Project.ofDescription_eq_ok_iff.1 hP with ⟨hNodup, rfl⟩
      dsimp only at hOk
      by_cases hEmpty : d.projectReferences = []
      · rw [hEmpty] at hOk
        exact ⟨hTaken, hNodup, (Except.ok.inj hOk).symm,
          Or.inl hEmpty⟩
      · have hSome : d.projectReferences.isEmpty = false := by
          simpa using hEmpty
        rw [hSome] at hOk
        rcases bind_eq_ok_iff.1 hOk with ⟨⟨⟩, hAcyclic, hOk⟩
        have hT := (Except.ok.inj hOk).symm
        refine ⟨hTaken, hNodup, hT, Or.inr ?_⟩
        rw [hT]
        exact checkAcyclic_eq_ok_iff.1 hAcyclic
    · rintro ⟨-, hNodup, rfl, hAcyclic⟩
      refine ⟨_, Project.ofDescription_eq_ok_iff.2
        ⟨hNodup, rfl⟩, ?_⟩
      dsimp only
      rcases hAcyclic with hEmpty | hAcyclic
      · rw [hEmpty]
        rfl
      · split
        · rfl
        · exact bind_eq_ok_iff.2
            ⟨(), checkAcyclic_eq_ok_iff.2 hAcyclic, rfl⟩

theorem removeProject_eq_ok_iff
    {s t : Solution}
    {id : ProjectId} :
    s.removeProject id = .ok t ↔
      id ∈ s.projects ∧ t = s.drop id := by
  unfold removeProject
  rw [ite_eq_ok_iff, containsProject_iff]
  rfl

theorem withFrozen_eq_ok_iff
    {s t : Solution}
    {frozen : FrozenDocument} :
    s.withFrozen frozen = .ok t ↔
      frozen.identity.projectId ∈ s.projects ∧
        t = { s with frozen := some frozen } := by
  unfold withFrozen
  rw [ite_eq_ok_iff, containsProject_iff]

------------------------------------------------------------
-- Changes to a project
------------------------------------------------------------

/- What changes a project is put in its place. -/
theorem changeProject_eq_ok_iff
    {s t : Solution}
    {id : ProjectId}
    {change : Project → Except EditError Project} :
    s.changeProject id change = .ok t ↔
      ∃ p q, s.projects[id]? = some p ∧ change p = .ok q ∧
        t = s.put id q := by
  unfold changeProject project?
  cases hStands : s.projects[id]? with
  | none => simp
  | some p =>
      simp only [Option.some.injEq]
      constructor
      · intro hOk
        split at hOk
        · cases hOk
        · next q hChange =>
            exact ⟨p, q, rfl, hChange, (Except.ok.inj hOk).symm⟩
      · rintro ⟨p', q, rfl, hChange, rfl⟩
        rw [hChange]
        rfl

/-
  The references of a project can be replaced exactly if the
  new ones close no cycle.
-/
theorem withProjectReferences_eq_ok_iff
    {s t : Solution}
    {id : ProjectId}
    {references : List ProjectReference} :
    s.withProjectReferences id references = .ok t ↔
      ∃ p, s.projects[id]? = some p ∧
        t = s.put id { p with projectReferences := references } ∧
          (references = [] ∨ Acyclic t.projects) := by
  unfold withProjectReferences
  rw [bind_eq_ok_iff]
  constructor
  · rintro ⟨u, hChange, hOk⟩
    rcases changeProject_eq_ok_iff.1 hChange with
      ⟨p, q, hStands, hQ, rfl⟩
    rw [← Except.ok.inj hQ] at hOk
    by_cases hEmpty : references = []
    · subst hEmpty
      exact ⟨p, hStands, (Except.ok.inj hOk).symm, Or.inl rfl⟩
    · have hSome : references.isEmpty = false := by
        simpa using hEmpty
      rw [hSome] at hOk
      rcases bind_eq_ok_iff.1 hOk with ⟨⟨⟩, hAcyclic, hOk⟩
      have hT := (Except.ok.inj hOk).symm
      refine ⟨p, hStands, hT, Or.inr ?_⟩
      rw [hT]
      exact checkAcyclic_eq_ok_iff.1 hAcyclic
  · rintro ⟨p, hStands, rfl, hAcyclic⟩
    refine ⟨_, changeProject_eq_ok_iff.2
      ⟨p, _, hStands, rfl, rfl⟩, ?_⟩
    rcases hAcyclic with rfl | hAcyclic
    · rfl
    · split
      · rfl
      · exact bind_eq_ok_iff.2
          ⟨(), checkAcyclic_eq_ok_iff.2 hAcyclic, rfl⟩

/- A project may not change what it was made with. -/
theorem Project.withAttributes_eq_ok_iff
    {p q : Project}
    {attributes : ProjectAttributes} :
    p.withAttributes attributes = .ok q ↔
      attributes.id = p.attributes.id ∧
        attributes.language = p.attributes.language ∧
          attributes.isSubmission = p.attributes.isSubmission ∧
            q = { p with attributes } := by
  unfold Project.withAttributes
  split
  · next hId =>
      constructor
      · intro hOk
        cases hOk
      · rintro ⟨hSame, -⟩
        exact absurd hSame hId
  split
  · next hLanguage =>
      constructor
      · intro hOk
        cases hOk
      · rintro ⟨-, hSame, -⟩
        exact absurd hSame hLanguage
  split
  · next hSubmission =>
      constructor
      · intro hOk
        cases hOk
      · rintro ⟨-, -, hSame, -⟩
        exact absurd hSame hSubmission
  · next hId hLanguage hSubmission =>
      rw [not_not] at hId hLanguage hSubmission
      constructor
      · intro hOk
        exact ⟨hId, hLanguage, hSubmission,
          (Except.ok.inj hOk).symm⟩
      · rintro ⟨-, -, -, rfl⟩
        rfl

/- What changes a document is put in its place. -/
theorem changeDocument_eq_ok_iff
    {s t : Solution}
    {project : ProjectId}
    {id : DocumentId}
    {change : Document → Except EditError Document} :
    s.changeDocument project id change = .ok t ↔
      ∃ p d e, s.projects[project]? = some p ∧
        p.document? id = some d ∧ change d = .ok e ∧
          t = s.put project (p.putDocument e) := by
  unfold changeDocument
  rw [changeProject_eq_ok_iff]
  constructor
  · rintro ⟨p, q, hStands, hChange, rfl⟩
    split at hChange
    · cases hChange
    · next d hFound =>
        split at hChange
        · cases hChange
        · next e hE =>
            refine ⟨p, d, e, hStands, hFound, hE, ?_⟩
            rw [Except.ok.inj hChange]
  · rintro ⟨p, d, e, hStands, hFound, hE, rfl⟩
    refine ⟨p, _, hStands, ?_, rfl⟩
    rw [hFound]
    dsimp only
    rw [hE]

/- Only ordinary documents may change in this way. -/
theorem changeOrdinary_eq_ok_iff
    {change : OrdinaryChange}
    {f : DocumentAttributes → DocumentAttributes}
    {d e : Document} :
    changeOrdinary change f d = .ok e ↔
      d.kind = .ordinary ∧
        e = { d with attributes := f d.attributes } :=
  ite_eq_ok_iff

end Solution

end SnapTree
