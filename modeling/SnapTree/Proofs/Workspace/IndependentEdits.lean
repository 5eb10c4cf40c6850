import SnapTree.Proofs.Workspace.Identification
import SnapTree.Proofs.Workspace.Parts

/-
  This file proves that edits which address different parts of
  a snapshot do not get in each other's way.  An edit revises
  the parts it addresses, each by what stood there before, and
  leaves the others alone; so two edits that address nothing
  in common give the same in either order.

  Key definitions include:
    * `Edit.Addresses`
    * `Edit.Independent`
    * `Edit.revise`
    * `Edit.Leaves`

  Key theorems include:
    * `Solution.part_apply`
    * `Edit.revise_eq_self`
    * `Edit.revise_comm`
    * `Solution.independent_edits_commute`
-/

namespace SnapTree

------------------------------------------------------------
-- What an edit addresses
------------------------------------------------------------

namespace Edit

/-
  The parts that an edit addresses.  To add or to remove a
  project is to address all of it, and to add or to remove
  documents is to address those that are named.
-/
def Addresses : Edit → SnapshotPart → Prop
  | .attributes _, x => x = .solution .attributes
  | .analyzerReferences _, x => x = .solution .analyzerReferences
  | .addProject d, x => x.project? = some d.id
  | .removeProject p, x => x.project? = some p
  | .projectAttributes p _, x => x = .project p .attributes
  | .compilationOptions p _, x =>
      x = .project p .compilationOptions
  | .parseOptions p _, x => x = .project p .parseOptions
  | .projectReferences p _, x => x = .project p .projectReferences
  | .projectReferencesOf p _, x =>
      x = .project p .projectReferences
  | .metadataReferences p _, x =>
      x = .project p .metadataReferences
  | .projectAnalyzerReferences p _, x =>
      x = .project p .analyzerReferences
  | .addDocuments p _ ds, x => ∃ d ∈ ds, x = .document p d.id
  | .removeDocuments p _ ids, x => ∃ id ∈ ids, x = .document p id
  | .documentText p d _, x => x = .document p d
  | .documentFolders p d _, x => x = .document p d
  | .documentSourceKind p d _, x => x = .document p d
  | .attachFrozen _, x => x = .solution .frozenDocument
  | .detachFrozen, x => x = .solution .frozenDocument

/- Two edits address no part in common. -/
def Independent
    (e f : Edit) : Prop :=
  ∀ x, e.Addresses x → ¬f.Addresses x

/- Edits of parts of different projects are independent. -/
theorem Independent.of_projects
    {e f : Edit}
    {p q : ProjectId}
    (hE : ∀ x, e.Addresses x → x.project? = some p)
    (hF : ∀ x, f.Addresses x → x.project? = some q)
    (hApart : p ≠ q) :
    e.Independent f := by
  intro x hX hY
  have hSame := (hE x hX).symm.trans (hF x hY)
  exact hApart (Option.some.inj hSame)

end Edit

------------------------------------------------------------
-- What an edit makes of each part
------------------------------------------------------------

namespace SnapshotPart

/- Revise one part and no other. -/
def only
    (x : SnapshotPart)
    (f : x.Content → x.Content) :
    (y : SnapshotPart) → y.Content → y.Content :=
  Function.update (fun _ c => c) x f

/- Put a project, or none, in the place of one. -/
def within
    (id : ProjectId)
    (p : Option Project) :
    (x : SnapshotPart) → x.Content → x.Content
  | .solution _, c => c
  | .project other part, c =>
      if other = id then p.map (fun p => p.content part) else c
  | .document other d, c =>
      if other = id then p.bind (fun p => p.document? d) else c

/- Revise the documents of a project, each by its identity. -/
def eachDocument
    (project : ProjectId)
    (f : DocumentId → Option Document → Option Document) :
    (x : SnapshotPart) → x.Content → x.Content
  | .solution _, c => c
  | .project _ _, c => c
  | .document other id, c =>
      if other = project then f id c else c

@[simp]
theorem only_self
    (x : SnapshotPart)
    (f : x.Content → x.Content)
    (c : x.Content) :
    x.only f x c = f c := by
  unfold only
  rw [Function.update_self]

theorem only_of_ne
    {x y : SnapshotPart}
    (hOther : y ≠ x)
    (f : x.Content → x.Content)
    (c : y.Content) :
    x.only f y c = c := by
  unfold only
  rw [Function.update_of_ne hOther]

/- A part is not revised with one that belongs elsewhere. -/
theorem only_of_project?_ne
    {x y : SnapshotPart}
    (hOther : y.project? ≠ x.project?)
    (f : x.Content → x.Content)
    (c : y.Content) :
    x.only f y c = c :=
  only_of_ne (fun hSame => hOther (congrArg project? hSame)) f c

section

variable
  (id other : ProjectId)
  (p : Option Project)

@[simp]
theorem within_solution
    (part : SolutionPart)
    (c : part.Content) :
    within id p (.solution part) c = c :=
  rfl

@[simp]
theorem within_project
    (part : ProjectPart)
    (c : Option part.Content) :
    within id p (.project other part) c =
      if other = id then p.map (fun p => p.content part) else c :=
  rfl

@[simp]
theorem within_document
    (d : DocumentId)
    (c : Option Document) :
    within id p (.document other d) c =
      if other = id then p.bind (fun p => p.document? d) else c :=
  rfl

end

/- Other projects and the solution stay as they are. -/
theorem within_of_ne
    {id : ProjectId}
    {x : SnapshotPart}
    (hOther : x.project? ≠ some id)
    (p : Option Project)
    (c : x.Content) :
    within id p x c = c := by
  cases x with
  | solution part => rfl
  | project other part
  | document other d =>
      exact if_neg (fun hSame => hOther (congrArg some hSame))

theorem eachDocument_self
    (project : ProjectId)
    (f : DocumentId → Option Document → Option Document)
    (id : DocumentId)
    (c : Option Document) :
    eachDocument project f (.document project id) c = f id c :=
  if_pos rfl

/- A part stays as it is unless it is a document that changes. -/
theorem eachDocument_eq_self
    {project : ProjectId}
    {f : DocumentId → Option Document → Option Document}
    {x : SnapshotPart}
    (hSame : ∀ id, x = .document project id → ∀ c, f id c = c)
    (c : x.Content) :
    eachDocument project f x c = c := by
  cases x with
  | solution part => rfl
  | project other part => rfl
  | document other id =>
      by_cases hProject : other = project
      · subst hProject
        rw [eachDocument_self]
        exact hSame id rfl c
      · exact if_neg hProject

end SnapshotPart

namespace Edit

/- What an edit makes of what a part holds. -/
def revise : Edit → (x : SnapshotPart) → x.Content → x.Content
  | .attributes a =>
      SnapshotPart.only (.solution .attributes) (fun _ => a)
  | .analyzerReferences rs =>
      SnapshotPart.only (.solution .analyzerReferences)
        (fun _ => rs)
  | .addProject d => SnapshotPart.within d.id (some d.project)
  | .removeProject p => fun x c =>
      SnapshotPart.within p none x
        (SnapshotPart.only (.solution .frozenDocument)
          (Option.filter (fun f => f.identity.projectId ≠ p)) x c)
  | .projectAttributes p a =>
      SnapshotPart.only (.project p .attributes)
        (Option.map (fun _ => a))
  | .compilationOptions p o =>
      SnapshotPart.only (.project p .compilationOptions)
        (Option.map (fun _ => o))
  | .parseOptions p o =>
      SnapshotPart.only (.project p .parseOptions)
        (Option.map (fun _ => o))
  | .projectReferences p rs =>
      SnapshotPart.only (.project p .projectReferences)
        (Option.map (fun _ => rs))
  | .projectReferencesOf p source =>
      SnapshotPart.only (.project p .projectReferences)
        (Option.map (fun _ => source.projectReferences))
  | .metadataReferences p rs =>
      SnapshotPart.only (.project p .metadataReferences)
        (Option.map (fun _ => rs))
  | .projectAnalyzerReferences p rs =>
      SnapshotPart.only (.project p .analyzerReferences)
        (Option.map (fun _ => rs))
  | .addDocuments p kind ds =>
      SnapshotPart.eachDocument p (fun id c =>
        ((ds.find? (fun d => d.id = id)).map
          (.ofDescription kind)).or c)
  | .removeDocuments p _ ids =>
      SnapshotPart.eachDocument p (fun id c =>
        if id ∈ ids then none else c)
  | .documentText p d text =>
      SnapshotPart.only (.document p d)
        (Option.map (fun d => { d with text }))
  | .documentFolders p d folders =>
      SnapshotPart.only (.document p d)
        (Option.map (fun d =>
          { d with attributes := { d.attributes with folders } }))
  | .documentSourceKind p d sourceKind =>
      SnapshotPart.only (.document p d)
        (Option.map (fun d =>
          { d with
            attributes := { d.attributes with sourceKind } }))
  | .attachFrozen f =>
      SnapshotPart.only (.solution .frozenDocument)
        (fun _ => some f)
  | .detachFrozen =>
      SnapshotPart.only (.solution .frozenDocument) (fun _ => none)

/-
  A part that an edit does not address stays as it is.  The
  frozen document is left out, since it goes with its project.
-/
theorem revise_eq_self
    {e : Edit}
    {x : SnapshotPart}
    (hNot : ¬e.Addresses x)
    (hX : x ≠ .solution .frozenDocument)
    (c : x.Content) :
    e.revise x c = c := by
  cases e with
  | addProject d => exact SnapshotPart.within_of_ne hNot _ c
  | removeProject p =>
      unfold revise
      dsimp only
      rw [SnapshotPart.only_of_ne hX,
        SnapshotPart.within_of_ne hNot]
  | addDocuments p kind ds =>
      apply SnapshotPart.eachDocument_eq_self
      rintro id rfl c
      have hAbsent : ds.find? (fun d => d.id = id) = none := by
        rw [List.find?_eq_none]
        intro d hD hId
        exact hNot ⟨d, hD, by rw [of_decide_eq_true hId]⟩
      rw [hAbsent]
      rfl
  | removeDocuments p kind ids =>
      apply SnapshotPart.eachDocument_eq_self
      rintro id rfl c
      exact if_neg (fun hId => hNot ⟨id, hId, rfl⟩)
  | _ => exact SnapshotPart.only_of_ne hNot _ c

end Edit

------------------------------------------------------------
-- What an edit makes of a snapshot
------------------------------------------------------------

namespace Solution

variable {s t : Solution}

theorem getElem?_projects_put
    (s : Solution)
    (id : ProjectId)
    (q : Project)
    (other : ProjectId) :
    (s.put id q).projects[other]? =
      if other = id then some q else s.projects[other]? := by
  rw [projects_put, Std.ExtTreeMap.getElem?_insert]
  simp only [Std.compare_eq_iff_eq, eq_comm (b := other)]

theorem getElem?_projects_drop
    (s : Solution)
    (id : ProjectId)
    (other : ProjectId) :
    (s.drop id).projects[other]? =
      if other = id then none else s.projects[other]? := by
  rw [projects_drop, Std.ExtTreeMap.getElem?_erase]
  simp only [Std.compare_eq_iff_eq, eq_comm (b := other)]

theorem part_put
    (s : Solution)
    (id : ProjectId)
    (q : Project)
    (x : SnapshotPart) :
    (s.put id q).part x =
      SnapshotPart.within id (some q) x (s.part x) := by
  cases x with
  | solution part => cases part <;> rfl
  | project other part =>
      rw [SnapshotPart.within_project, part_project,
        part_project, getElem?_projects_put]
      split <;> rfl
  | document other d =>
      rw [SnapshotPart.within_document, part_document,
        part_document, getElem?_projects_put]
      split <;> rfl

theorem part_drop
    (s : Solution)
    (id : ProjectId)
    (x : SnapshotPart) :
    (s.drop id).part x =
      (Edit.removeProject id).revise x (s.part x) := by
  unfold Edit.revise
  dsimp only
  cases x with
  | solution part =>
      rw [SnapshotPart.within_solution]
      by_cases hFrozen : part = .frozenDocument
      · subst hFrozen
        rw [SnapshotPart.only_self]
        rfl
      · rw [SnapshotPart.only_of_ne (by simpa using hFrozen)]
        cases part with
        | attributes | analyzerReferences => rfl
        | frozenDocument => exact absurd rfl hFrozen
  | project other part =>
      rw [SnapshotPart.only_of_ne SnapshotPart.noConfusion,
        SnapshotPart.within_project, part_project, part_project,
        getElem?_projects_drop]
      split <;> rfl
  | document other d =>
      rw [SnapshotPart.only_of_ne SnapshotPart.noConfusion,
        SnapshotPart.within_document, part_document,
        part_document, getElem?_projects_drop]
      split <;> rfl

/- Where a part of the solution is replaced, that is all. -/
theorem part_replace
    (part : SolutionPart)
    (o : part.Content)
    (x : SnapshotPart) :
    (s.replace part o).part x =
      (SnapshotPart.solution part).only (fun _ => o) x
        (s.part x) := by
  cases x with
  | solution other =>
      by_cases hSame : other = part
      · subst hSame
        rw [SnapshotPart.only_self]
        cases other <;> rfl
      · rw [SnapshotPart.only_of_ne (by simpa using hSame)]
        cases part <;> cases other <;>
          first | rfl | exact absurd rfl hSame
  | project other p =>
      rw [SnapshotPart.only_of_ne SnapshotPart.noConfusion]
      cases part <;> rfl
  | document other d =>
      rw [SnapshotPart.only_of_ne SnapshotPart.noConfusion]
      cases part <;> rfl

section

variable
  {id : ProjectId}
  {p q : Project}
  (hStands : s.projects[id]? = some p)

include hStands

/- It is enough to know what becomes of the parts of a project. -/
theorem part_put_eq
    {revise : (x : SnapshotPart) → x.Content → x.Content}
    (hApart :
      ∀ (x : SnapshotPart) (c : x.Content),
        x.project? ≠ some id → revise x c = c)
    (hContent :
      ∀ part,
        revise (.project id part) (some (p.content part)) =
          some (q.content part))
    (hDocument :
      ∀ d,
        revise (.document id d) (p.document? d) = q.document? d)
    (x : SnapshotPart) :
    (s.put id q).part x = revise x (s.part x) := by
  rw [part_put]
  by_cases hX : x.project? = some id
  · cases x with
    | solution part => cases hX
    | project other part =>
        rcases Option.some.inj hX with rfl
        rw [SnapshotPart.within_project, if_pos rfl,
          part_project, hStands]
        exact (hContent part).symm
    | document other d =>
        rcases Option.some.inj hX with rfl
        rw [SnapshotPart.within_document, if_pos rfl,
          part_document, hStands]
        exact (hDocument d).symm
  · rw [SnapshotPart.within_of_ne hX, hApart x _ hX]

/- Where one part of a project is replaced, that is all. -/
theorem part_put_replace
    (part : ProjectPart)
    (o : part.Content)
    (x : SnapshotPart) :
    (s.put id (p.replace part o)).part x =
      (SnapshotPart.project id part).only (Option.map (fun _ => o)) x
        (s.part x) := by
  apply part_put_eq hStands
  · intro x c hX
    exact SnapshotPart.only_of_project?_ne hX _ c
  · intro other
    by_cases hSame : other = part
    · subst hSame
      rw [SnapshotPart.only_self, p.content_replace_self]
      rfl
    · rw [SnapshotPart.only_of_ne (by simpa using hSame),
        p.content_replace_of_ne part o hSame]
  · intro d
    rw [SnapshotPart.only_of_ne SnapshotPart.noConfusion,
      p.document?_replace]

/- Where only documents of a project change, that is all. -/
theorem part_put_eachDocument
    {f : DocumentId → Option Document → Option Document}
    (hContent : ∀ part, q.content part = p.content part)
    (hDocument : ∀ d, q.document? d = f d (p.document? d))
    (x : SnapshotPart) :
    (s.put id q).part x =
      SnapshotPart.eachDocument id f x (s.part x) := by
  apply part_put_eq hStands
  · intro x c hX
    apply SnapshotPart.eachDocument_eq_self
    rintro d rfl
    exact absurd rfl hX
  · intro part
    rw [hContent]
    rfl
  · intro d
    rw [SnapshotPart.eachDocument_self, hDocument]

end

/- The changes that replace one part of a project. -/
theorem part_changeProject
    {id : ProjectId}
    (part : ProjectPart)
    (o : part.Content)
    (hOk :
      s.changeProject id (fun p => .ok (p.replace part o)) = .ok t)
    (x : SnapshotPart) :
    t.part x =
      (SnapshotPart.project id part).only (Option.map (fun _ => o)) x
        (s.part x) := by
  rcases changeProject_eq_ok_iff.1 hOk with
    ⟨p, q, hStands, hQ, rfl⟩
  rcases Except.ok.inj hQ with rfl
  exact part_put_replace hStands part o x

section

variable (hWell : s.WellFormed)

include hWell

/- Where one document is replaced, that is all. -/
theorem part_changeDocument
    {project : ProjectId}
    {id : DocumentId}
    {change : Document → Except EditError Document}
    {f : Document → Document}
    (hChange :
      ∀ d e, change d = .ok e →
        e = f d ∧ e.id = d.id ∧ e.kind = d.kind)
    (hOk : s.changeDocument project id change = .ok t)
    (x : SnapshotPart) :
    t.part x =
      (SnapshotPart.document project id).only (Option.map f) x
        (s.part x) := by
  rcases changeDocument_eq_ok_iff.1 hOk with
    ⟨p, d, e, hStands, hFound, hE, rfl⟩
  rcases hChange d e hE with ⟨rfl, hId, hKind⟩
  have hWellP := hWell.project project p hStands
  rcases Project.document?_eq_some hFound with ⟨kind, hD⟩
  rcases hWellP.keyed kind id d hD with ⟨rfl, rfl⟩
  apply part_put_eq hStands
  · intro x c hX
    exact SnapshotPart.only_of_project?_ne hX _ c
  · intro part
    rw [SnapshotPart.only_of_ne SnapshotPart.noConfusion]
    cases part <;> rfl
  · intro other
    rw [hWellP.document?_putDocument hD hId hKind]
    by_cases hSame : other = d.id
    · subst hSame
      rw [SnapshotPart.only_self, if_pos rfl, hFound]
      rfl
    · rw [SnapshotPart.only_of_ne (by simpa using hSame),
        if_neg hSame]

theorem part_addDocuments
    {project : ProjectId}
    {kind : DocumentKind}
    {ds : List DocumentDescription}
    (hOk : s.addDocuments project kind ds = .ok t)
    (x : SnapshotPart) :
    t.part x =
      (Edit.addDocuments project kind ds).revise x (s.part x) := by
  unfold addDocuments at hOk
  split at hOk
  · next hEmpty =>
      rcases List.isEmpty_iff.1 hEmpty with rfl
      rcases Except.ok.inj hOk with rfl
      exact (SnapshotPart.eachDocument_eq_self
        (fun _ _ _ => rfl) _).symm
  · rcases changeProject_eq_ok_iff.1 hOk with
      ⟨p, q, hStands, hQ, rfl⟩
    rcases Project.addDocuments_eq_ok_iff.1 hQ with
      ⟨hNodup, hFree, rfl⟩
    have hWellP := hWell.project project p hStands
    have hContent :
        ∀ part, (p.including kind ds).content part =
          p.content part :=
      fun part => by cases part <;> rfl
    exact part_put_eachDocument hStands hContent
      (hWellP.document?_including hNodup hFree) x

theorem part_removeDocuments
    {project : ProjectId}
    {kind : DocumentKind}
    {ids : List DocumentId}
    (hOk : s.removeDocuments project kind ids = .ok t)
    (x : SnapshotPart) :
    t.part x =
      (Edit.removeDocuments project kind ids).revise x
        (s.part x) := by
  unfold removeDocuments at hOk
  split at hOk
  · next hEmpty =>
      rcases List.isEmpty_iff.1 hEmpty with rfl
      rcases Except.ok.inj hOk with rfl
      exact (SnapshotPart.eachDocument_eq_self
        (fun _ _ _ => if_neg List.not_mem_nil) _).symm
  · rcases changeProject_eq_ok_iff.1 hOk with
      ⟨p, q, hStands, hQ, rfl⟩
    rcases Project.removeDocuments_eq_ok_iff.1 hQ with
      ⟨hPresent, rfl⟩
    have hWellP := hWell.project project p hStands
    have hContent :
        ∀ part, (p.excluding kind ids).content part =
          p.content part :=
      fun part => by cases part <;> rfl
    exact part_put_eachDocument hStands hContent
      (hWellP.document?_excluding hPresent) x

/- The attributes that only ordinary documents may change. -/
theorem part_changeOrdinary
    {project : ProjectId}
    {id : DocumentId}
    {change : OrdinaryChange}
    {f : DocumentAttributes → DocumentAttributes}
    (hId : ∀ a, (f a).id = a.id)
    (hOk :
      s.changeDocument project id (changeOrdinary change f) =
        .ok t)
    (x : SnapshotPart) :
    t.part x =
      (SnapshotPart.document project id).only
        (Option.map
          (fun d => { d with attributes := f d.attributes })) x
        (s.part x) := by
  refine part_changeDocument hWell ?_ hOk x
  intro d e hE
  rcases changeOrdinary_eq_ok_iff.1 hE with ⟨-, rfl⟩
  exact ⟨rfl, hId d.attributes, rfl⟩

/- An edit revises each part by what stood there before. -/
theorem part_apply
    {e : Edit}
    (hOk : s.apply e = .ok t)
    (x : SnapshotPart) :
    t.part x = e.revise x (s.part x) := by
  cases e with
  | attributes a =>
      rcases withAttributes_eq_ok_iff.1 hOk with ⟨-, rfl⟩
      exact part_replace .attributes a x
  | analyzerReferences rs =>
      rcases Except.ok.inj hOk with rfl
      exact part_replace .analyzerReferences rs x
  | addProject d =>
      rcases addProject_eq_ok_iff.1 hOk with ⟨-, -, rfl, -⟩
      exact s.part_put d.id d.project x
  | removeProject p =>
      rcases removeProject_eq_ok_iff.1 hOk with ⟨-, rfl⟩
      exact s.part_drop p x
  | projectAttributes p a =>
      rcases changeProject_eq_ok_iff.1 hOk with
        ⟨p, q, hStands, hQ, rfl⟩
      rcases Project.withAttributes_eq_ok_iff.1 hQ with
        ⟨-, -, -, rfl⟩
      exact part_put_replace hStands .attributes a x
  | compilationOptions p o =>
      exact part_changeProject .compilationOptions o hOk x
  | parseOptions p o =>
      exact part_changeProject .parseOptions o hOk x
  | projectReferences p rs =>
      rcases withProjectReferences_eq_ok_iff.1 hOk with
        ⟨p, hStands, rfl, -⟩
      exact part_put_replace hStands .projectReferences rs x
  | projectReferencesOf p source =>
      rcases withProjectReferences_eq_ok_iff.1 hOk with
        ⟨p, hStands, rfl, -⟩
      exact part_put_replace hStands .projectReferences _ x
  | metadataReferences p rs =>
      exact part_changeProject .metadataReferences rs hOk x
  | projectAnalyzerReferences p rs =>
      exact part_changeProject .analyzerReferences rs hOk x
  | addDocuments p kind ds => exact part_addDocuments hWell hOk x
  | removeDocuments p kind ids =>
      exact part_removeDocuments hWell hOk x
  | documentText p d text =>
      have hOk : s.withDocumentText p d text = .ok t := hOk
      unfold withDocumentText at hOk
      refine part_changeDocument hWell ?_ hOk x
      intro d e hE
      rcases Except.ok.inj hE with rfl
      exact ⟨rfl, rfl, rfl⟩
  | documentFolders p d folders =>
      have hOk : s.withDocumentFolders p d folders = .ok t := hOk
      unfold withDocumentFolders at hOk
      refine part_changeOrdinary hWell ?_ hOk x
      exact fun _ => rfl
  | documentSourceKind p d kind =>
      have hOk : s.withDocumentSourceKind p d kind = .ok t := hOk
      unfold withDocumentSourceKind at hOk
      refine part_changeOrdinary hWell ?_ hOk x
      exact fun _ => rfl
  | attachFrozen f =>
      rcases withFrozen_eq_ok_iff.1 hOk with ⟨-, rfl⟩
      exact part_replace .frozenDocument (some f) x
  | detachFrozen =>
      rcases Except.ok.inj hOk with rfl
      exact part_replace .frozenDocument none x

end

end Solution

------------------------------------------------------------
-- The frozen document
------------------------------------------------------------

namespace Edit

/-
  Whether an edit takes a frozen document away that it does
  not address: one of a project that it removes.
-/
def drops : Edit → FrozenDocument → Bool
  | .removeProject p, f => f.identity.projectId = p
  | _, _ => false

variable {e f : Edit}

theorem revise_frozen
    (hNot : ¬e.Addresses (.solution .frozenDocument))
    (c : Option FrozenDocument) :
    e.revise (.solution .frozenDocument) c =
      c.filter (fun g => !e.drops g) := by
  have hAll : ∀ c : Option FrozenDocument,
      c = c.filter (fun _ => true) := by
    intro c
    cases c <;> rfl
  cases e with
  | removeProject p =>
      unfold revise drops
      dsimp only
      rw [SnapshotPart.within_solution, SnapshotPart.only_self]
      simp only [ne_eq, decide_not]
  | attachFrozen g => exact absurd rfl hNot
  | detachFrozen => exact absurd rfl hNot
  | addProject d => exact hAll c
  | addDocuments p kind ds => exact hAll c
  | removeDocuments p kind ids => exact hAll c
  | _ => exact Eq.trans (SnapshotPart.only_of_ne hNot _ c) (hAll c)

/- What is attached does not depend on what was there before. -/
theorem revise_frozen_of_addresses
    (hAddresses : e.Addresses (.solution .frozenDocument)) :
    ∃ o : Option FrozenDocument,
      (∀ c, e.revise (.solution .frozenDocument) c = o) ∧
        ∀ g, o = some g → e = .attachFrozen g := by
  cases e with
  | attachFrozen g =>
      refine ⟨some g, fun c => SnapshotPart.only_self _ _ c, ?_⟩
      rintro _ ⟨⟩
      rfl
  | detachFrozen =>
      exact ⟨none, fun c => SnapshotPart.only_self _ _ c, nofun⟩
  | addDocuments p kind ds
  | removeDocuments p kind ids =>
      rcases hAddresses with ⟨_, -, hSame⟩
      cases hSame
  | _ => cases hAddresses

/- A project that is there after an edit was not removed by it. -/
theorem not_drops_of_mem
    {s t : Solution}
    (hOk : s.apply e = .ok t)
    {g : FrozenDocument}
    (hMem : g.identity.projectId ∈ t.projects) :
    e.drops g = false := by
  cases e with
  | removeProject p =>
      rcases Solution.removeProject_eq_ok_iff.1 hOk with ⟨-, rfl⟩
      rw [Solution.projects_drop, Std.ExtTreeMap.mem_erase] at hMem
      apply decide_eq_false
      rintro rfl
      exact hMem.1 Std.compare_self
  | _ => rfl

end Edit

------------------------------------------------------------
-- Edits in either order
------------------------------------------------------------

namespace Edit

variable
  {e f : Edit}
  {s t u v : Solution}

/-
  An edit that attaches a frozen document, or detaches it, and
  one that does neither give the same frozen document in
  either order.
-/
theorem revise_frozen_comm
    (hF : s.apply f = .ok t)
    (hFE : t.apply e = .ok v)
    (hAddresses : e.Addresses (.solution .frozenDocument))
    (hNot : ¬f.Addresses (.solution .frozenDocument))
    (c : Option FrozenDocument) :
    f.revise (.solution .frozenDocument)
        (e.revise (.solution .frozenDocument) c) =
      e.revise (.solution .frozenDocument)
        (f.revise (.solution .frozenDocument) c) := by
  rcases revise_frozen_of_addresses hAddresses with
    ⟨o, hConstant, hAttached⟩
  rw [hConstant, hConstant, revise_frozen hNot]
  cases o with
  | none => rfl
  | some g =>
      rcases hAttached g rfl with rfl
      have hMem := (Solution.withFrozen_eq_ok_iff.1 hFE).1
      rw [Option.filter_some, not_drops_of_mem hF hMem]
      rfl

/-
  Independent edits revise every part in the same way in
  either order, where both orders succeed.
-/
theorem revise_comm
    (hIndependent : e.Independent f)
    {r : Solution}
    (hE : s.apply e = .ok r)
    (hEF : r.apply f = .ok u)
    (hF : s.apply f = .ok t)
    (hFE : t.apply e = .ok v)
    (x : SnapshotPart)
    (c : x.Content) :
    f.revise x (e.revise x c) = e.revise x (f.revise x c) := by
  by_cases hX : x = .solution .frozenDocument
  · subst hX
    by_cases hAddressesE : e.Addresses (.solution .frozenDocument)
    · exact revise_frozen_comm hF hFE hAddressesE
        (hIndependent _ hAddressesE) c
    by_cases hAddressesF : f.Addresses (.solution .frozenDocument)
    · exact (revise_frozen_comm hE hEF hAddressesF
        hAddressesE c).symm
    · simp only [revise_frozen hAddressesE,
        revise_frozen hAddressesF, Option.filter_filter,
        Bool.and_comm]
  -- Any other part is left as it is by one of the two.
  · by_cases hAddressesE : e.Addresses x
    · have hNotF := hIndependent x hAddressesE
      rw [revise_eq_self hNotF hX, revise_eq_self hNotF hX]
    · rw [revise_eq_self hAddressesE hX,
        revise_eq_self hAddressesE hX]

/-
  What an edit leaves alone: all parts that it does not
  address, with their checksums, and so every project none of
  whose parts it addresses.  Only a frozen document goes when
  its project is removed.
-/
structure Leaves
    (e : Edit)
    (s t : Solution) : Prop where
  parts :
    ∀ x : SnapshotPart, ¬e.Addresses x →
      (x = .solution .frozenDocument →
        ∀ g, s.frozen = some g → e.drops g = false) →
      t.part x = s.part x ∧ t.checksumsOf x = s.checksumsOf x
  projects :
    ∀ id : ProjectId,
      (∀ x : SnapshotPart, x.project? = some id → ¬e.Addresses x) →
        t.projects[id]? = s.projects[id]?
  frozen :
    ∀ g, s.frozen = some g → e.drops g = true → t.frozen = none

/- An edit leaves alone what it does not address. -/
theorem leaves_of_apply
    (hWell : s.WellFormed)
    (hOk : s.apply e = .ok t) :
    e.Leaves s t := by
  have hPart : ∀ x, t.part x = e.revise x (s.part x) :=
    Solution.part_apply hWell hOk
  have hFrozen :
      ¬e.Addresses (.solution .frozenDocument) →
        t.frozen = s.frozen.filter (fun g => !e.drops g) :=
    fun hNot =>
      (hPart (.solution .frozenDocument)).trans
        (revise_frozen hNot s.frozen)
  refine ⟨?_, ?_, ?_⟩
  · intro x hNot hKept
    have hSame : t.part x = s.part x := by
      by_cases hX : x = .solution .frozenDocument
      · subst hX
        refine Eq.trans (hFrozen hNot) ?_
        change s.frozen.filter _ = s.frozen
        cases hG : s.frozen with
        | none => rfl
        | some g =>
            rw [Option.filter_some, hKept rfl g hG]
            rfl
      · rw [hPart]
        exact revise_eq_self hNot hX _
    exact ⟨hSame, Solution.checksumsOf_congr hSame⟩
  · intro id hNot
    apply Solution.getElem?_projects_eq_of_parts
      (hWell.apply hOk) hWell
    intro x hX
    rw [hPart]
    apply revise_eq_self (hNot x hX)
    rintro rfl
    cases hX
  · intro g hG hDrops
    have hNot : ¬e.Addresses (.solution .frozenDocument) := by
      cases e with
      | removeProject p => exact nofun
      | _ => cases hDrops
    rw [hFrozen hNot, hG, Option.filter_some, hDrops]
    rfl

end Edit

namespace Solution

/- Two edits are carried out if one is and then the other. -/
theorem applyAll_pair_eq_ok_iff
    {s u : Solution}
    {e f : Edit} :
    s.applyAll [e, f] = .ok u ↔
      ∃ r, s.apply e = .ok r ∧ r.apply f = .ok u := by
  unfold applyAll
  rw [List.foldlM_cons, bind_eq_ok_iff]
  simp only [List.foldlM_cons, List.foldlM_nil, bind_pure]

/-
  Edits that address no part in common give the same snapshot
  in either order, whenever both orders succeed, and every
  edit leaves all parts as they are that it does not address,
  their checksums included.
-/
theorem independent_edits_commute
    {s : Solution}
    (hReachable : s.Reachable)
    {e f : Edit}
    (hIndependent : e.Independent f) :
    (∀ u v : Solution,
      s.applyAll [e, f] = .ok u → s.applyAll [f, e] = .ok v →
        u.SameContent v ∧ u.frozen = v.frozen ∧
          u.checksum = v.checksum) ∧
    ∀ (g : Edit) (r t : Solution),
      r.Reachable → r.apply g = .ok t → g.Leaves r t := by
  constructor
  · intro u v hU hV
    rcases applyAll_pair_eq_ok_iff.1 hU with ⟨r, hE, hEF⟩
    rcases applyAll_pair_eq_ok_iff.1 hV with ⟨t, hF, hFE⟩
    have hS : s.WellFormed := hReachable.wellFormed
    have hR : r.WellFormed := hS.apply hE
    have hT : t.WellFormed := hS.apply hF
    have hSame : u = v := by
      apply eq_of_parts (hR.apply hEF) (hT.apply hFE)
      intro x
      rw [part_apply hR hEF, part_apply hS hE,
        part_apply hT hFE, part_apply hS hF]
      exact Edit.revise_comm hIndependent hE hEF hF hFE x _
    subst hSame
    exact ⟨.refl u, rfl, rfl⟩
  · intro g r t hR hOk
    exact Edit.leaves_of_apply hR.wellFormed hOk

/- An edit that adds a second project. -/
def addOther : Edit :=
  .addProject
    { attributes :=
        { id := ⟨⟨Vector.replicate 16 1⟩⟩, language := "C#"
          name := "Other" } }

/- An edit that gives the document of the first another text. -/
def retext : Edit :=
  .documentText default default "class B;"

theorem independent_edits_commute_small :
    addOther.Independent retext ∧
      ∃ u v : Solution,
        small.applyAll [addOther, retext] = .ok u ∧
          small.applyAll [retext, addOther] = .ok v ∧
            u.SameContent v ∧ u.checksum = v.checksum ∧
              ∃ t, small.apply retext = .ok t ∧
                retext.Leaves small t := by
  have hIndependent : addOther.Independent retext := by
    apply Edit.Independent.of_projects
    · exact fun _ hX => hX
    · rintro _ rfl
      rfl
    · decide
  have hFirst : (small.applyAll [addOther, retext]).isOk := by
    decide +kernel
  have hSecond : (small.applyAll [retext, addOther]).isOk := by
    decide +kernel
  refine ⟨hIndependent, ?_⟩
  cases hU : small.applyAll [addOther, retext] with
  | error e =>
      rw [hU] at hFirst
      cases hFirst
  | ok u =>
      cases hV : small.applyAll [retext, addOther] with
      | error e =>
          rw [hV] at hSecond
          cases hSecond
      | ok v =>
          rcases independent_edits_commute reachable_small
            hIndependent with ⟨hSame, hLeaves⟩
          rcases hSame u v hU hV with ⟨hContent, -, hChecksum⟩
          rcases applyAll_pair_eq_ok_iff.1 hV with ⟨t, hT, -⟩
          exact ⟨u, v, rfl, rfl, hContent, hChecksum, t, hT,
            hLeaves _ _ _ reachable_small hT⟩

end Solution

end SnapTree
