import SnapTree.Proofs.Workspace.Changes

/-
  This file proves what holds of every solution that is made
  from nothing or from a description and changed by any number
  of edits: projects and documents stand under their
  identities, no document is in two kinds, references form no
  cycle, and a frozen document belongs to a project that is
  present.

  Key definitions include:
    * `Solution.WellFormed`
    * `Solution.Reachable`

  Key theorems include:
    * `Solution.WellFormed.apply`
    * `Solution.Reachable.wellFormed`
-/

namespace SnapTree

open ReferenceGraph

------------------------------------------------------------
-- References that form no cycle
------------------------------------------------------------

namespace ReferenceGraph

theorem mem_presentTargets_iff
    {m : ProjectMap}
    {p : Project}
    {id : ProjectId} :
    id ∈ presentTargets m p ↔
      id ∈ p.projectReferences.map ProjectReference.projectId ∧
        id ∈ m := by
  rw [presentTargets, List.mem_filter,
    Std.ExtTreeMap.contains_iff_mem]

namespace Acyclic

variable {m m' : ProjectMap}

/-
  No cycle comes about if every reference was there before or
  leads to a project without references.
-/
theorem of_refers
    (hAcyclic : Acyclic m)
    (hRefers :
      ∀ a b, Refers m' a b →
        Refers m a b ∨ ∀ c, ¬Refers m' b c) :
    Acyclic m' := by
  have hOld :
      ∀ a b c, Relation.TransGen (Refers m') a b →
        Refers m' b c → Relation.TransGen (Refers m) a b := by
    intro a b c hPath
    induction hPath generalizing c with
    | single hEdge =>
        intro hNext
        rcases hRefers _ _ hEdge with hEdge | hSink
        · exact .single hEdge
        · exact absurd hNext (hSink c)
    | tail _ hEdge ih =>
        intro hNext
        rcases hRefers _ _ hEdge with hOldEdge | hSink
        · exact (ih _ hEdge).tail hOldEdge
        · exact absurd hNext (hSink c)
  intro a hCycle
  rcases Relation.TransGen.head'_iff.1 hCycle with ⟨b, hEdge, -⟩
  exact hAcyclic a (hOld a a b hCycle hEdge)

theorem empty :
    Acyclic ∅ := by
  intro a hCycle
  rcases Relation.TransGen.head'_iff.1 hCycle with
    ⟨b, ⟨p, hStands, -⟩, -⟩
  simp at hStands

/- A project may be replaced by one with the same references. -/
theorem insert_of_eq
    (hAcyclic : Acyclic m)
    {id : ProjectId}
    {p q : Project}
    (hStands : m[id]? = some p)
    (hReferences : q.projectReferences = p.projectReferences) :
    Acyclic (m.insert id q) := by
  apply hAcyclic.of_refers
  rintro a b ⟨r, hR, hTarget⟩
  left
  rw [mem_presentTargets_iff, Std.ExtTreeMap.mem_insert,
    Std.compare_eq_iff_eq] at hTarget
  have hPresent : b ∈ m := by
    rcases hTarget.2 with rfl | hMem
    · exact mem_of_getElem? hStands
    · exact hMem
  rw [Std.ExtTreeMap.getElem?_insert] at hR
  split at hR
  · next hSame =>
      rw [← Std.LawfulEqOrd.eq_of_compare hSame]
      refine ⟨p, hStands,
        mem_presentTargets_iff.2 ⟨?_, hPresent⟩⟩
      rw [← hReferences, Option.some.inj hR]
      exact hTarget.1
  · exact ⟨r, hR,
      mem_presentTargets_iff.2 ⟨hTarget.1, hPresent⟩⟩

/- A project without references closes no cycle. -/
theorem insert_of_nil
    (hAcyclic : Acyclic m)
    (id : ProjectId)
    {q : Project}
    (hNone : q.projectReferences = []) :
    Acyclic (m.insert id q) := by
  have hSink : ∀ c, ¬Refers (m.insert id q) id c := by
    rintro c ⟨r, hR, hTarget⟩
    rw [Std.ExtTreeMap.getElem?_insert_self] at hR
    rw [mem_presentTargets_iff, ← Option.some.inj hR, hNone]
      at hTarget
    exact absurd hTarget.1 List.not_mem_nil
  apply hAcyclic.of_refers
  rintro a b ⟨r, hR, hTarget⟩
  by_cases hNew : b = id
  · right
    rw [hNew]
    exact hSink
  · left
    rw [mem_presentTargets_iff, Std.ExtTreeMap.mem_insert,
      Std.compare_eq_iff_eq] at hTarget
    rw [Std.ExtTreeMap.getElem?_insert] at hR
    split at hR
    · next hSame =>
        rw [← Option.some.inj hR, hNone] at hTarget
        exact absurd hTarget.1 List.not_mem_nil
    · refine ⟨r, hR,
        mem_presentTargets_iff.2 ⟨hTarget.1, ?_⟩⟩
      exact hTarget.2.resolve_left (fun h => hNew h.symm)

theorem erase
    (hAcyclic : Acyclic m)
    (id : ProjectId) :
    Acyclic (m.erase id) := by
  apply hAcyclic.of_refers
  rintro a b ⟨r, hR, hTarget⟩
  left
  rw [mem_presentTargets_iff, Std.ExtTreeMap.mem_erase]
    at hTarget
  rw [Std.ExtTreeMap.getElem?_erase] at hR
  split at hR
  · cases hR
  · exact ⟨r, hR,
      mem_presentTargets_iff.2 ⟨hTarget.1, hTarget.2.2⟩⟩

end Acyclic

end ReferenceGraph

------------------------------------------------------------
-- Solutions in order
------------------------------------------------------------

namespace Solution

/-
  Projects stand under their identities with their documents
  in order, their references form no cycle, and the project of
  a frozen document is present.
-/
structure WellFormed
    (s : Solution) : Prop where
  keyed :
    ∀ (id : ProjectId) (p : Project),
      s.projects[id]? = some p → p.id = id
  project :
    ∀ (id : ProjectId) (p : Project),
      s.projects[id]? = some p → p.WellFormed
  acyclic : Acyclic s.projects
  frozen :
    ∀ f : FrozenDocument,
      s.frozen = some f → f.identity.projectId ∈ s.projects

/-
  The solutions that can come about: empty ones, those that a
  description gives, and whatever edits make of them.
-/
inductive Reachable : Solution → Prop where
  | empty
      (attributes : SolutionAttributes) :
      Reachable (.empty attributes)
  | described
      {d : SolutionDescription}
      {s : Solution}
      (hOk : ofDescription d = .ok s) :
      Reachable s
  | edited
      {s t : Solution}
      {e : Edit}
      (hReachable : Reachable s)
      (hOk : s.apply e = .ok t) :
      Reachable t

namespace WellFormed

theorem isKeyed
    {s : Solution}
    (hWell : s.WellFormed) :
    IsKeyed Project.id s.projects :=
  hWell.keyed

theorem of_empty
    (attributes : SolutionAttributes) :
    (empty attributes).WellFormed where
  keyed := by
    intro id p hStands
    simp [empty] at hStands
  project := by
    intro id p hStands
    simp [empty] at hStands
  acyclic := Acyclic.empty
  frozen := by
    intro f hFrozen
    cases hFrozen

theorem of_ofDescription
    {d : SolutionDescription}
    {s : Solution}
    (hOk : ofDescription d = .ok s) :
    s.WellFormed := by
  rcases ofDescription_eq_ok_iff.1 hOk with
    ⟨hNodups, hNodup, hAcyclic, rfl⟩
  have hEntry :
      ∀ (id : ProjectId) (p : Project),
        d.projectMap[id]? = some p →
          ∃ x ∈ d.projects, x.id = id ∧ x.project = p := by
    intro id p hStands
    rcases (getElem?_entering hNodup).1 hStands with
      hNew | ⟨-, hNone⟩
    · exact hNew
    · simp at hNone
  refine ⟨?_, ?_, hAcyclic, ?_⟩
  · intro id p hStands
    rcases hEntry id p hStands with ⟨x, -, rfl, rfl⟩
    rfl
  · intro id p hStands
    rcases hEntry id p hStands with ⟨x, hX, -, rfl⟩
    exact Project.wellFormed_project (hNodups x hX)
  · intro f hFrozen
    cases hFrozen

section

variable
  {s : Solution}
  (hWell : s.WellFormed)

include hWell

/- A project in order may be put under its identity. -/
theorem put
    {id : ProjectId}
    {q : Project}
    (hQ : q.WellFormed)
    (hId : q.id = id)
    (hAcyclic : Acyclic (s.put id q).projects) :
    (s.put id q).WellFormed where
  keyed := by
    intro other p hStands
    rw [projects_put, Std.ExtTreeMap.getElem?_insert] at hStands
    split at hStands
    · next hSame =>
        rw [← Option.some.inj hStands, hId]
        exact Std.LawfulEqOrd.eq_of_compare hSame
    · exact hWell.keyed other p hStands
  project := by
    intro other p hStands
    rw [projects_put, Std.ExtTreeMap.getElem?_insert] at hStands
    split at hStands
    · rw [← Option.some.inj hStands]
      exact hQ
    · exact hWell.project other p hStands
  acyclic := hAcyclic
  frozen := by
    intro f hFrozen
    rw [projects_put, Std.ExtTreeMap.mem_insert]
    exact Or.inr (hWell.frozen f hFrozen)

/- A change that leaves identity and references alone. -/
theorem changeProject
    {t : Solution}
    {id : ProjectId}
    {change : Project → Except EditError Project}
    (hChange :
      ∀ p q, p.WellFormed → change p = .ok q →
        q.WellFormed ∧ q.id = p.id ∧
          q.projectReferences = p.projectReferences)
    (hOk : s.changeProject id change = .ok t) :
    t.WellFormed := by
  rcases changeProject_eq_ok_iff.1 hOk with ⟨p, q, hStands, hQ, rfl⟩
  rcases hChange p q (hWell.project id p hStands) hQ with
    ⟨hWellQ, hId, hReferences⟩
  refine hWell.put hWellQ ?_ ?_
  · rw [hId]
    exact hWell.keyed id p hStands
  · exact hWell.acyclic.insert_of_eq hStands hReferences

/- A change to options or to references of other sorts. -/
theorem setField
    {t : Solution}
    {id : ProjectId}
    {f : Project → Project}
    (hField :
      ∀ p, (f p).documents = p.documents ∧ (f p).id = p.id ∧
        (f p).projectReferences = p.projectReferences)
    (hOk : s.changeProject id (fun p => .ok (f p)) = .ok t) :
    t.WellFormed := by
  apply hWell.changeProject ?_ hOk
  intro p q hP hQ
  rcases hField p with ⟨hDocuments, hId, hReferences⟩
  rw [← Except.ok.inj hQ]
  refine ⟨⟨?_, ?_⟩, hId, hReferences⟩
  · rw [hDocuments]
    exact hP.keyed
  · rw [hDocuments]
    exact hP.apart

/- A change to a document that leaves its name and kind alone. -/
theorem changeDocument
    {t : Solution}
    {project : ProjectId}
    {id : DocumentId}
    {change : Document → Except EditError Document}
    (hChange :
      ∀ d e, change d = .ok e → e.id = d.id ∧ e.kind = d.kind)
    (hOk : s.changeDocument project id change = .ok t) :
    t.WellFormed := by
  rcases changeDocument_eq_ok_iff.1 hOk with
    ⟨p, d, e, hStands, hFound, hE, rfl⟩
  have hWellP := hWell.project project p hStands
  rcases Project.document?_eq_some hFound with ⟨kind, hKind⟩
  rcases hWellP.keyed kind id d hKind with ⟨rfl, rfl⟩
  rcases hChange d e hE with ⟨hId, hSameKind⟩
  refine hWell.put (hWellP.putDocument hKind hId hSameKind) ?_ ?_
  · exact hWell.keyed project p hStands
  · exact hWell.acyclic.insert_of_eq hStands rfl

theorem withProjectReferences
    {t : Solution}
    {id : ProjectId}
    {references : List ProjectReference}
    (hOk : s.withProjectReferences id references = .ok t) :
    t.WellFormed := by
  rcases withProjectReferences_eq_ok_iff.1 hOk with
    ⟨p, hStands, rfl, hAcyclic⟩
  have hWellP := hWell.project id p hStands
  refine hWell.put ⟨hWellP.keyed, hWellP.apart⟩ ?_ ?_
  · exact hWell.keyed id p hStands
  · rcases hAcyclic with rfl | hAcyclic
    · exact hWell.acyclic.insert_of_nil id rfl
    · exact hAcyclic

theorem addProject
    {t : Solution}
    {d : ProjectDescription}
    (hOk : s.addProject d = .ok t) :
    t.WellFormed := by
  rcases addProject_eq_ok_iff.1 hOk with ⟨-, hNodup, rfl, hAcyclic⟩
  refine hWell.put (Project.wellFormed_project hNodup) rfl ?_
  rcases hAcyclic with hNone | hAcyclic
  · exact hWell.acyclic.insert_of_nil d.id hNone
  · exact hAcyclic

theorem removeProject
    {t : Solution}
    {id : ProjectId}
    (hOk : s.removeProject id = .ok t) :
    t.WellFormed := by
  rcases removeProject_eq_ok_iff.1 hOk with ⟨-, rfl⟩
  have hOld :
      ∀ (other : ProjectId) (p : Project),
        (s.drop id).projects[other]? = some p →
          s.projects[other]? = some p := by
    intro other p hStands
    rw [projects_drop, Std.ExtTreeMap.getElem?_erase] at hStands
    split at hStands
    · cases hStands
    · exact hStands
  refine ⟨?_, ?_, hWell.acyclic.erase id, ?_⟩
  · intro other p hStands
    exact hWell.keyed other p (hOld other p hStands)
  · intro other p hStands
    exact hWell.project other p (hOld other p hStands)
  · intro f hFrozen
    rcases Option.filter_eq_some_iff.1 hFrozen with ⟨hSome, hOther⟩
    rw [projects_drop, Std.ExtTreeMap.mem_erase]
    refine ⟨?_, hWell.frozen f hSome⟩
    intro hSame
    rw [decide_eq_true_eq] at hOther
    exact hOther (Std.LawfulEqOrd.eq_of_compare hSame).symm

theorem withFrozen
    {t : Solution}
    {frozen : FrozenDocument}
    (hOk : s.withFrozen frozen = .ok t) :
    t.WellFormed := by
  rcases withFrozen_eq_ok_iff.1 hOk with ⟨hStands, rfl⟩
  refine ⟨hWell.keyed, hWell.project, hWell.acyclic, ?_⟩
  intro f hFrozen
  rw [← Option.some.inj hFrozen]
  exact hStands

theorem addDocuments
    {t : Solution}
    {project : ProjectId}
    {kind : DocumentKind}
    {ds : List DocumentDescription}
    (hOk : s.addDocuments project kind ds = .ok t) :
    t.WellFormed := by
  unfold Solution.addDocuments at hOk
  split at hOk
  · rw [← Except.ok.inj hOk]
    exact hWell
  · apply hWell.changeProject ?_ hOk
    intro p q hP hQ
    rcases Project.addDocuments_eq_ok_iff.1 hQ with
      ⟨hNodup, hFree, rfl⟩
    exact ⟨hP.including hNodup hFree, rfl, rfl⟩

theorem removeDocuments
    {t : Solution}
    {project : ProjectId}
    {kind : DocumentKind}
    {ids : List DocumentId}
    (hOk : s.removeDocuments project kind ids = .ok t) :
    t.WellFormed := by
  unfold Solution.removeDocuments at hOk
  split at hOk
  · rw [← Except.ok.inj hOk]
    exact hWell
  · apply hWell.changeProject ?_ hOk
    intro p q hP hQ
    rcases Project.removeDocuments_eq_ok_iff.1 hQ with ⟨-, rfl⟩
    exact ⟨hP.excluding kind ids, rfl, rfl⟩

/- Attributes that only ordinary documents may change. -/
theorem changeOrdinary
    {t : Solution}
    {project : ProjectId}
    {id : DocumentId}
    {change : OrdinaryChange}
    {f : DocumentAttributes → DocumentAttributes}
    (hId : ∀ a, (f a).id = a.id)
    (hOk :
      s.changeDocument project id
        (Solution.changeOrdinary change f) = .ok t) :
    t.WellFormed := by
  apply hWell.changeDocument ?_ hOk
  intro d e hE
  rcases changeOrdinary_eq_ok_iff.1 hE with ⟨-, rfl⟩
  exact ⟨hId d.attributes, rfl⟩

/- Every edit keeps a solution in order. -/
theorem apply
    {t : Solution}
    {e : Edit}
    (hOk : s.apply e = .ok t) :
    t.WellFormed := by
  cases e with
  | attributes a =>
      rcases withAttributes_eq_ok_iff.1 hOk with ⟨-, rfl⟩
      exact ⟨hWell.keyed, hWell.project, hWell.acyclic,
        hWell.frozen⟩
  | analyzerReferences rs =>
      rw [← Except.ok.inj hOk]
      exact ⟨hWell.keyed, hWell.project, hWell.acyclic,
        hWell.frozen⟩
  | addProject d => exact hWell.addProject hOk
  | removeProject p => exact hWell.removeProject hOk
  | projectAttributes p a =>
      refine hWell.changeProject ?_ hOk
      intro p q hP hQ
      rcases Project.withAttributes_eq_ok_iff.1 hQ with
        ⟨hId, -, -, rfl⟩
      exact ⟨⟨hP.keyed, hP.apart⟩, hId, rfl⟩
  | compilationOptions p o =>
      exact hWell.setField
        (f := fun p => { p with compilationOptions := o })
        (fun _ => ⟨rfl, rfl, rfl⟩) hOk
  | parseOptions p o =>
      exact hWell.setField
        (f := fun p => { p with parseOptions := o })
        (fun _ => ⟨rfl, rfl, rfl⟩) hOk
  | metadataReferences p rs =>
      exact hWell.setField
        (f := fun p => { p with metadataReferences := rs })
        (fun _ => ⟨rfl, rfl, rfl⟩) hOk
  | projectAnalyzerReferences p rs =>
      exact hWell.setField
        (f := fun p => { p with analyzerReferences := rs })
        (fun _ => ⟨rfl, rfl, rfl⟩) hOk
  | projectReferences p rs
  | projectReferencesOf p source =>
      exact hWell.withProjectReferences hOk
  | addDocuments p kind ds => exact hWell.addDocuments hOk
  | removeDocuments p kind ids =>
      exact hWell.removeDocuments hOk
  | documentText p d text =>
      have hOk : s.withDocumentText p d text = .ok t := hOk
      unfold withDocumentText at hOk
      apply hWell.changeDocument ?_ hOk
      intro d e hE
      rw [← Except.ok.inj hE]
      exact ⟨rfl, rfl⟩
  | documentFolders p d folders =>
      have hOk : s.withDocumentFolders p d folders = .ok t := hOk
      unfold withDocumentFolders at hOk
      refine hWell.changeOrdinary ?_ hOk
      exact fun _ => rfl
  | documentSourceKind p d kind =>
      have hOk : s.withDocumentSourceKind p d kind = .ok t := hOk
      unfold withDocumentSourceKind at hOk
      refine hWell.changeOrdinary ?_ hOk
      exact fun _ => rfl
  | attachFrozen frozen => exact hWell.withFrozen hOk
  | detachFrozen =>
      rw [← Except.ok.inj hOk]
      refine ⟨hWell.keyed, hWell.project, hWell.acyclic, ?_⟩
      intro f hFrozen
      cases hFrozen

end

end WellFormed

/- Whatever can come about is in order. -/
theorem Reachable.wellFormed
    {s : Solution}
    (hReachable : s.Reachable) :
    s.WellFormed := by
  induction hReachable with
  | empty attributes => exact WellFormed.of_empty attributes
  | described hOk => exact WellFormed.of_ofDescription hOk
  | edited _ hOk ih => exact ih.apply hOk

end Solution

end SnapTree
