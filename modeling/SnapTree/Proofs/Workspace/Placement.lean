import SnapTree.Proofs.Workspace.Changes

/-
  This file proves what changes do to a project that was put
  into a solution: the result is the solution with the changed
  project put in the same place.

  Key definitions include:
    * `Project.holding`

  Key theorems include:
    * `Project.WellFormed.holding`
    * `Solution.changeProject_put`
    * `Solution.addDocuments_put`
    * `Solution.removeDocuments_put`
    * `Solution.changeDocument_put`
-/

namespace SnapTree

namespace ByKind

variable {α : Type}

@[simp]
theorem set_get_self
    (b : ByKind α)
    (kind : DocumentKind) :
    b.set kind (b.get kind) = b := by
  cases kind <;> rfl

@[simp]
theorem set_set
    (b : ByKind α)
    (kind : DocumentKind)
    (x y : α) :
    (b.set kind x).set kind y = b.set kind y := by
  cases kind <;> rfl

end ByKind

------------------------------------------------------------
-- Projects with other documents
------------------------------------------------------------

namespace Project

/- A project with other documents. -/
def holding
    (p : Project)
    (documents : ByKind DocumentMap) : Project :=
  { p with documents }

section

variable
  (p : Project)
  (documents others : ByKind DocumentMap)

@[simp]
theorem documents_holding :
    (p.holding documents).documents = documents :=
  rfl

@[simp]
theorem holding_holding :
    (p.holding documents).holding others = p.holding others :=
  rfl

@[simp]
theorem holding_self :
    p.holding p.documents = p :=
  rfl

end

/-
  Documents are in order if they stand under their identities
  and are a choice of those of a project in order, kind by
  kind.
-/
theorem WellFormed.holding
    {p q : Project}
    (hWell : q.WellFormed)
    {documents : ByKind DocumentMap}
    (hKeyed :
      ∀ (kind : DocumentKind) (id : DocumentId) (d : Document),
        (documents.get kind)[id]? = some d →
          d.id = id ∧ d.kind = kind)
    (hChoice :
      ∀ (kind : DocumentKind) (id : DocumentId),
        id ∈ documents.get kind → id ∈ q.documents.get kind) :
    (p.holding documents).WellFormed where
  keyed := hKeyed
  apart := by
    intro kind other id hKind hOther
    exact hWell.apart kind other id (hChoice kind id hKind)
      (hChoice other id hOther)

/- Putting a document where it stands changes nothing. -/
theorem putDocument_self
    {p : Project}
    {d : Document}
    (hStands : (p.documents.get d.kind)[d.id]? = some d) :
    p.putDocument d = p := by
  have hMap :
      (p.documents.get d.kind).insert d.id d =
        p.documents.get d.kind := by
    apply Std.ExtTreeMap.ext_getElem?
    intro id
    rw [Std.ExtTreeMap.getElem?_insert]
    split
    · next hSame =>
        rw [← Std.LawfulEqOrd.eq_of_compare hSame, hStands]
    · rfl
  unfold putDocument
  rw [hMap, ByKind.set_get_self]

/- Only the last of two documents put in one place stays. -/
theorem putDocument_putDocument
    {p : Project}
    {d e : Document}
    (hId : e.id = d.id)
    (hKind : e.kind = d.kind) :
    (p.putDocument d).putDocument e = p.putDocument e := by
  have hMap :
      ((p.documents.get d.kind).insert d.id d).insert d.id e =
        (p.documents.get d.kind).insert d.id e := by
    apply Std.ExtTreeMap.ext_getElem?
    intro id
    simp only [Std.ExtTreeMap.getElem?_insert]
    split <;> rfl
  unfold putDocument
  dsimp only
  rw [hId, hKind, ByKind.get_set_self, hMap, ByKind.set_set]

end Project

------------------------------------------------------------
-- Changes to a project that was put
------------------------------------------------------------

namespace Solution

variable {s : Solution} {id : ProjectId} {p q : Project}

theorem getElem?_put_self :
    (s.put id p).projects[id]? = some p := by
  rw [projects_put, Std.ExtTreeMap.getElem?_insert_self]

theorem document?_put
    (document : DocumentId) :
    (s.put id p).document? id document =
      p.document? document := by
  unfold document? project?
  rw [getElem?_put_self]
  rfl

theorem changeProject_put
    {change : Project → Except EditError Project}
    (hChange : change p = .ok q) :
    (s.put id p).changeProject id change =
      .ok (s.put id q) :=
  changeProject_eq_ok_iff.2
    ⟨p, q, getElem?_put_self, hChange,
      (put_put s id p q).symm⟩

theorem withProjectAttributes_put
    {attributes : ProjectAttributes}
    (hId : attributes.id = p.attributes.id)
    (hLanguage : attributes.language = p.attributes.language)
    (hSubmission :
      attributes.isSubmission = p.attributes.isSubmission) :
    (s.put id p).withProjectAttributes id attributes =
      .ok (s.put id { p with attributes }) :=
  changeProject_put (Project.withAttributes_eq_ok_iff.2
    ⟨hId, hLanguage, hSubmission, rfl⟩)

theorem withProjectReferences_put
    {references : List ProjectReference}
    (hAcyclic :
      references = [] ∨
        ReferenceGraph.Acyclic
          (s.put id
            { p with projectReferences := references }).projects) :
    (s.put id p).withProjectReferences id references =
      .ok (s.put id
        { p with projectReferences := references }) := by
  refine withProjectReferences_eq_ok_iff.2
    ⟨p, getElem?_put_self, ?_, hAcyclic⟩
  exact (put_put s id p _).symm

theorem removeDocuments_put
    {kind : DocumentKind}
    {ids : List DocumentId}
    (hPresent : ∀ x ∈ ids, x ∈ p.documents.get kind) :
    (s.put id p).removeDocuments id kind ids =
      .ok (s.put id (p.excluding kind ids)) := by
  have hRemove :
      (s.put id p).changeProject id
          (fun p => p.removeDocuments kind ids) =
        .ok (s.put id (p.excluding kind ids)) :=
    changeProject_put
      (Project.removeDocuments_eq_ok_iff.2 ⟨hPresent, rfl⟩)
  unfold removeDocuments
  split
  · next hNone =>
      have hNone : ids = [] := List.isEmpty_iff.1 hNone
      subst hNone
      unfold Project.excluding DocumentMap.excluding
      rw [erasing_nil, ByKind.set_get_self]
  · exact hRemove

theorem addDocuments_put
    {kind : DocumentKind}
    {ds : List DocumentDescription}
    (hNodup : (ds.map DocumentDescription.id).Nodup)
    (hFree : ∀ d ∈ ds, p.containsDocument d.id = false) :
    (s.put id p).addDocuments id kind ds =
      .ok (s.put id (p.including kind ds)) := by
  have hAdd :
      (s.put id p).changeProject id
          (fun p => p.addDocuments kind ds) =
        .ok (s.put id (p.including kind ds)) :=
    changeProject_put
      (Project.addDocuments_eq_ok_iff.2 ⟨hNodup, hFree, rfl⟩)
  unfold addDocuments
  split
  · next hNone =>
      have hNone : ds = [] := List.isEmpty_iff.1 hNone
      subst hNone
      unfold Project.including DocumentMap.including
      rw [entering_nil, ByKind.set_get_self]
  · exact hAdd

/-
  A document that was put in the place of another can be
  changed as long as it keeps its name and kind.
-/
theorem changeDocument_put
    (hWell : p.WellFormed)
    {d e f : Document}
    (hStands : (p.documents.get d.kind)[d.id]? = some d)
    (hIdE : e.id = d.id)
    (hKindE : e.kind = d.kind)
    {change : Document → Except EditError Document}
    (hChange : change e = .ok f)
    (hIdF : f.id = d.id)
    (hKindF : f.kind = d.kind) :
    (s.put id (p.putDocument e)).changeDocument id d.id change =
      .ok (s.put id (p.putDocument f)) := by
  have hStandsE :
      ((p.putDocument e).documents.get d.kind)[d.id]? =
        some e := by
    unfold Project.putDocument
    dsimp only
    rw [hKindE, ByKind.get_set_self, hIdE,
      Std.ExtTreeMap.getElem?_insert_self]
  have hFound : (p.putDocument e).document? d.id = some e :=
    (hWell.putDocument hStands hIdE hKindE).document?_eq hStandsE
  refine changeDocument_eq_ok_iff.2
    ⟨p.putDocument e, e, f, getElem?_put_self, hFound, hChange,
      ?_⟩
  rw [put_put, Project.putDocument_putDocument
    (hIdF.trans hIdE.symm) (hKindF.trans hKindE.symm)]

section Documents

variable
  (hWell : p.WellFormed)
  {d e : Document}
  (hStands : (p.documents.get d.kind)[d.id]? = some d)
  (hId : e.id = d.id)
  (hKind : e.kind = d.kind)

include hWell hStands hId hKind

theorem withDocumentText_put
    (text : String) :
    (s.put id (p.putDocument e)).withDocumentText id d.id text =
      .ok (s.put id (p.putDocument { e with text })) :=
  changeDocument_put hWell hStands hId hKind rfl hId hKind

theorem withDocumentFolders_put
    (hOrdinary : d.kind = .ordinary)
    (folders : List String) :
    (s.put id (p.putDocument e)).withDocumentFolders id d.id
        folders =
      .ok (s.put id (p.putDocument
        { e with attributes := { e.attributes with folders } })) :=
  changeDocument_put hWell hStands hId hKind
    (if_pos (hKind.trans hOrdinary)) hId hKind

theorem withDocumentSourceKind_put
    (hOrdinary : d.kind = .ordinary)
    (sourceKind : SourceKind) :
    (s.put id (p.putDocument e)).withDocumentSourceKind id d.id
        sourceKind =
      .ok (s.put id (p.putDocument
        { e with
          attributes := { e.attributes with sourceKind } })) :=
  changeDocument_put hWell hStands hId hKind
    (if_pos (hKind.trans hOrdinary)) hId hKind

/-
  A document of any kind can be taken out and put back with
  other attributes and another text.
-/
theorem addDocuments_put_excluding :
    (s.put id (p.excluding d.kind [d.id])).addDocuments id d.kind
        [e.describe] =
      .ok (s.put id (p.putDocument e)) := by
  have hFree :
      ∀ x ∈ [e.describe],
        (p.excluding d.kind [d.id]).containsDocument x.id =
          false := by
    intro x hX
    rw [List.mem_singleton.1 hX, Document.id_describe, hId,
      ← Bool.not_eq_true, Project.containsDocument_iff]
    rintro ⟨other, hMem⟩
    unfold Project.excluding at hMem
    dsimp only at hMem
    by_cases hOther : other = d.kind
    · subst hOther
      rw [ByKind.get_set_self,
        Std.ExtTreeMap.mem_iff_isSome_getElem?,
        DocumentMap.getElem?_excluding] at hMem
      simp at hMem
    · rw [ByKind.get_set_of_ne _ hOther] at hMem
      exact hOther (hWell.apart other d.kind d.id hMem
        (mem_of_getElem? hStands))
  have hSame :
      (p.excluding d.kind [d.id]).including d.kind
          [e.describe] =
        p.putDocument e := by
    have hMap :
        DocumentMap.including d.kind
            (DocumentMap.excluding (p.documents.get d.kind)
              [d.id])
            [e.describe] =
          (p.documents.get d.kind).insert d.id e := by
      apply Std.ExtTreeMap.ext_getElem?
      intro other
      unfold DocumentMap.including DocumentMap.excluding
      rw [entering_cons, entering_nil, Document.id_describe,
        ← hKind, Document.ofDescription_describe, hId, erasing,
        List.foldl_cons, List.foldl_nil]
      simp only [Std.ExtTreeMap.getElem?_insert,
        Std.ExtTreeMap.getElem?_erase]
      split <;> rfl
    unfold Project.including Project.excluding
      Project.putDocument
    dsimp only
    rw [ByKind.get_set_self, hMap, ByKind.set_set, hKind, hId]
  rw [addDocuments_put (by simp) hFree, hSame]

end Documents

end Solution

end SnapTree
