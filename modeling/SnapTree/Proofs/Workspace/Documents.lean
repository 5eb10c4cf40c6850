import SnapTree.Proofs.Data.Keyed
import SnapTree.Workspace.Project

/-
  This file proves when the documents of a project can be
  added, removed and replaced, and what is there afterwards.
  Each of these keeps every document under its identity, in
  the map of its kind and in no other.

  Key definitions include:
    * `DocumentMap.including`
    * `DocumentMap.excluding`
    * `Project.WellFormed`

  Key theorems include:
    * `DocumentMap.extend_eq_ok_iff`
    * `Project.addDocuments_eq_ok_iff`
    * `Project.removeDocuments_eq_ok_iff`
-/

namespace SnapTree

/- The identity of the document that a description gives. -/
def DocumentDescription.id
    (d : DocumentDescription) : DocumentId :=
  d.attributes.id

@[simp]
theorem Document.id_ofDescription
    (kind : DocumentKind)
    (d : DocumentDescription) :
    (Document.ofDescription kind d).id = d.id :=
  rfl

@[simp]
theorem Document.id_describe
    (d : Document) :
    d.describe.id = d.id :=
  rfl

@[simp]
theorem Document.ofDescription_describe
    (d : Document) :
    Document.ofDescription d.kind d.describe = d :=
  rfl

theorem DocumentKind.mem_all
    (kind : DocumentKind) :
    kind ∈ DocumentKind.all := by
  cases kind <;> decide

------------------------------------------------------------
-- Maps of documents
------------------------------------------------------------

namespace DocumentMap

/- A map with the documents of descriptions put into it. -/
def including
    (kind : DocumentKind)
    (m : DocumentMap)
    (ds : List DocumentDescription) : DocumentMap :=
  entering DocumentDescription.id (.ofDescription kind) m ds

/- A map with the documents of some identities taken out. -/
def excluding
    (m : DocumentMap)
    (ids : List DocumentId) : DocumentMap :=
  erasing m ids

theorem mem_including
    {kind : DocumentKind}
    {m : DocumentMap}
    {ds : List DocumentDescription}
    {id : DocumentId} :
    id ∈ including kind m ds ↔
      id ∈ ds.map DocumentDescription.id ∨ id ∈ m :=
  mem_entering

/-
  Descriptions extend a map exactly if their identities are
  distinct and not taken.
-/
theorem extend_eq_ok_iff
    {project : ProjectId}
    {kind : DocumentKind}
    {m m' : DocumentMap}
    {ds : List DocumentDescription} :
    extend project kind m ds = .ok m' ↔
      (ds.map DocumentDescription.id).Nodup ∧
        (∀ d ∈ ds, d.id ∉ m) ∧ m' = including kind m ds := by
  unfold extend including
  rw [foldlM_entering_eq_ok_iff (fun _ => True)
    DocumentDescription.id (Document.ofDescription kind)]
  · simp
  · intro m d m'
    have hContains :
        m.contains d.attributes.id = true ↔ d.id ∈ m :=
      Std.ExtTreeMap.contains_iff_mem
    split
    · next hTaken =>
        constructor
        · intro hOk
          cases hOk
        · rintro ⟨-, hFree, -⟩
          exact absurd (hContains.1 hTaken) hFree
    · next hFree =>
        rw [hContains] at hFree
        constructor
        · intro hOk
          exact ⟨trivial, hFree, (Except.ok.inj hOk).symm⟩
        · rintro ⟨-, -, rfl⟩
          rfl

/- What a map holds once identities were taken out. -/
theorem getElem?_excluding
    (m : DocumentMap)
    (ids : List DocumentId)
    (id : DocumentId) :
    (excluding m ids)[id]? =
      if id ∈ ids then none else m[id]? :=
  getElem?_erasing m ids id

end DocumentMap

------------------------------------------------------------
-- Projects with their documents in order
------------------------------------------------------------

namespace Project

/-
  Documents stand under their identities in the map of their
  kind, and no identity is in the maps of two kinds.
-/
structure WellFormed
    (p : Project) : Prop where
  keyed :
    ∀ (kind : DocumentKind) (id : DocumentId) (d : Document),
      (p.documents.get kind)[id]? = some d →
        d.id = id ∧ d.kind = kind
  apart :
    ∀ (kind other : DocumentKind) (id : DocumentId),
      id ∈ p.documents.get kind →
        id ∈ p.documents.get other → kind = other

/- A document that is found is in the map of some kind. -/
theorem document?_eq_some
    {p : Project}
    {id : DocumentId}
    {d : Document}
    (hFound : p.document? id = some d) :
    ∃ kind, (p.documents.get kind)[id]? = some d := by
  rcases List.exists_of_findSome?_eq_some hFound with
    ⟨kind, -, hKind⟩
  exact ⟨kind, hKind⟩

theorem containsDocument_iff
    {p : Project}
    {id : DocumentId} :
    p.containsDocument id = true ↔
      ∃ kind, id ∈ p.documents.get kind := by
  unfold containsDocument document?
  rw [List.isSome_findSome?, List.any_eq_true]
  constructor
  · rintro ⟨kind, -, hKind⟩
    exact ⟨kind, Std.ExtTreeMap.mem_iff_isSome_getElem?.2 hKind⟩
  · rintro ⟨kind, hKind⟩
    exact ⟨kind, kind.mem_all,
      Std.ExtTreeMap.mem_iff_isSome_getElem?.1 hKind⟩

/- Nothing is found under an identity that no kind has. -/
theorem notMem_of_not_containsDocument
    {p : Project}
    {id : DocumentId}
    (hFree : p.containsDocument id = false)
    (kind : DocumentKind) :
    id ∉ p.documents.get kind := by
  intro hMem
  rw [containsDocument_iff.2 ⟨kind, hMem⟩] at hFree
  cases hFree

namespace WellFormed

variable {p : Project}

/- A document is found in the map that it stands in. -/
theorem document?_eq
    (hWell : p.WellFormed)
    {kind : DocumentKind}
    {id : DocumentId}
    {d : Document}
    (hStands : (p.documents.get kind)[id]? = some d) :
    p.document? id = some d := by
  have hMem : id ∈ p.documents.get kind :=
    mem_of_getElem? hStands
  cases hFound : p.document? id with
  | none =>
      have hContains := containsDocument_iff.2 ⟨kind, hMem⟩
      simp [containsDocument, hFound] at hContains
  | some e =>
      rcases document?_eq_some hFound with ⟨other, hOther⟩
      have hMemOther : id ∈ p.documents.get other :=
        mem_of_getElem? hOther
      rw [hWell.apart other kind id hMemOther hMem, hStands]
        at hOther
      exact hOther.symm

/- The documents of a kind are a keyed map. -/
theorem isKeyed
    (hWell : p.WellFormed)
    (kind : DocumentKind) :
    IsKeyed Document.id (p.documents.get kind) :=
  fun id d hD => (hWell.keyed kind id d hD).1

/- What stands in place of a map must be in order as well. -/
theorem set
    (hWell : p.WellFormed)
    {kind : DocumentKind}
    {m : DocumentMap}
    (hKeyed :
      ∀ (id : DocumentId) (d : Document),
        m[id]? = some d → d.id = id ∧ d.kind = kind)
    (hApart :
      ∀ id ∈ m, ∀ other, other ≠ kind →
        id ∉ p.documents.get other) :
    { p with documents := p.documents.set kind m }.WellFormed where
  keyed := by
    intro other id d hD
    by_cases hOther : other = kind
    · subst hOther
      rw [ByKind.get_set_self] at hD
      exact hKeyed id d hD
    · rw [ByKind.get_set_of_ne _ hOther] at hD
      exact hWell.keyed other id d hD
  apart := by
    intro one other id hOne hOther
    by_cases hIsOne : one = kind
    · by_cases hIsOther : other = kind
      · rw [hIsOne, hIsOther]
      · subst hIsOne
        rw [ByKind.get_set_self] at hOne
        rw [ByKind.get_set_of_ne _ hIsOther] at hOther
        exact absurd hOther (hApart id hOne other hIsOther)
    · rw [ByKind.get_set_of_ne _ hIsOne] at hOne
      by_cases hIsOther : other = kind
      · subst hIsOther
        rw [ByKind.get_set_self] at hOther
        exact absurd hOne (hApart id hOther one hIsOne)
      · rw [ByKind.get_set_of_ne _ hIsOther] at hOther
        exact hWell.apart one other id hOne hOther

end WellFormed

------------------------------------------------------------
-- Additions
------------------------------------------------------------

/- A project with the documents of descriptions put into it. -/
def including
    (p : Project)
    (kind : DocumentKind)
    (ds : List DocumentDescription) : Project :=
  { p with
    documents :=
      p.documents.set kind
        (DocumentMap.including kind (p.documents.get kind) ds) }

/-
  Documents can be added exactly if their identities are
  distinct and none of them is taken, in whatever kind.
-/
theorem addDocuments_eq_ok_iff
    {p q : Project}
    {kind : DocumentKind}
    {ds : List DocumentDescription} :
    p.addDocuments kind ds = .ok q ↔
      (ds.map DocumentDescription.id).Nodup ∧
        (∀ d ∈ ds, p.containsDocument d.id = false) ∧
          q = p.including kind ds := by
  unfold addDocuments
  cases hTaken : ds.find?
      (fun d => p.containsDocument d.attributes.id) with
  | some d =>
      have hContains := List.find?_some hTaken
      constructor
      · intro hOk
        cases hOk
      · rintro ⟨-, hFree, -⟩
        have hNot := hFree d (List.mem_of_find?_eq_some hTaken)
        rw [DocumentDescription.id, hContains] at hNot
        cases hNot
  | none =>
      have hFree : ∀ d ∈ ds, p.containsDocument d.id = false := by
        intro d hD
        exact Bool.not_eq_true _ ▸
          List.find?_eq_none.1 hTaken d hD
      have hNotMem : ∀ d ∈ ds, d.id ∉ p.documents.get kind :=
        fun d hD =>
          notMem_of_not_containsDocument (hFree d hD) kind
      cases hExtend :
          DocumentMap.extend p.id kind (p.documents.get kind)
            ds with
      | error e =>
          constructor
          · intro hOk
            cases hOk
          · rintro ⟨hNodup, -, -⟩
            rw [DocumentMap.extend_eq_ok_iff.2
              ⟨hNodup, hNotMem, rfl⟩] at hExtend
            cases hExtend
      | ok m =>
          rcases DocumentMap.extend_eq_ok_iff.1 hExtend with
            ⟨hNodup, -, rfl⟩
          constructor
          · intro hOk
            exact ⟨hNodup, hFree, (Except.ok.inj hOk).symm⟩
          · rintro ⟨-, -, rfl⟩
            rfl

theorem WellFormed.including
    {p : Project}
    (hWell : p.WellFormed)
    {kind : DocumentKind}
    {ds : List DocumentDescription}
    (hNodup : (ds.map DocumentDescription.id).Nodup)
    (hFree : ∀ d ∈ ds, p.containsDocument d.id = false) :
    (p.including kind ds).WellFormed := by
  apply hWell.set
  · intro id d hD
    rcases (getElem?_entering hNodup).1 hD with
      ⟨x, -, rfl, rfl⟩ | ⟨-, hOld⟩
    · exact ⟨rfl, rfl⟩
    · exact hWell.keyed kind id d hOld
  · intro id hMem other hOther hMemOther
    rcases DocumentMap.mem_including.1 hMem with hNew | hOld
    · rcases List.mem_map.1 hNew with ⟨d, hD, rfl⟩
      exact notMem_of_not_containsDocument (hFree d hD) other
        hMemOther
    · exact hOther (hWell.apart other kind id hMemOther hOld)

------------------------------------------------------------
-- Removals
------------------------------------------------------------

/- A project without the documents of some identities. -/
def excluding
    (p : Project)
    (kind : DocumentKind)
    (ids : List DocumentId) : Project :=
  { p with
    documents :=
      p.documents.set kind
        (DocumentMap.excluding (p.documents.get kind) ids) }

/- Documents can be removed exactly if they are all there. -/
theorem removeDocuments_eq_ok_iff
    {p q : Project}
    {kind : DocumentKind}
    {ids : List DocumentId} :
    p.removeDocuments kind ids = .ok q ↔
      (∀ id ∈ ids, id ∈ p.documents.get kind) ∧
        q = p.excluding kind ids := by
  unfold removeDocuments
  dsimp only
  cases hAbsent : ids.find?
      (fun id => !(p.documents.get kind).contains id) with
  | some id =>
      have hNot := List.find?_some hAbsent
      constructor
      · intro hOk
        cases hOk
      · rintro ⟨hPresent, -⟩
        have hMem := hPresent id
          (List.mem_of_find?_eq_some hAbsent)
        rw [Std.ExtTreeMap.contains_iff_mem.2 hMem] at hNot
        cases hNot
  | none =>
      have hPresent : ∀ id ∈ ids, id ∈ p.documents.get kind := by
        intro id hId
        simpa using List.find?_eq_none.1 hAbsent id hId
      constructor
      · intro hOk
        exact ⟨hPresent, (Except.ok.inj hOk).symm⟩
      · rintro ⟨-, rfl⟩
        rfl

theorem WellFormed.excluding
    {p : Project}
    (hWell : p.WellFormed)
    (kind : DocumentKind)
    (ids : List DocumentId) :
    (p.excluding kind ids).WellFormed := by
  apply hWell.set
  · intro id d hD
    rw [DocumentMap.getElem?_excluding] at hD
    split at hD
    · cases hD
    · exact hWell.keyed kind id d hD
  · intro id hMem other hOther hMemOther
    rw [Std.ExtTreeMap.mem_iff_isSome_getElem?,
      DocumentMap.getElem?_excluding] at hMem
    split at hMem
    · cases hMem
    · exact hOther (hWell.apart other kind id hMemOther
        (Std.ExtTreeMap.mem_iff_isSome_getElem?.2 hMem))

------------------------------------------------------------
-- Replacements
------------------------------------------------------------

/- A document may be replaced by one that goes by its name. -/
theorem WellFormed.putDocument
    {p : Project}
    (hWell : p.WellFormed)
    {d e : Document}
    (hStands : (p.documents.get d.kind)[d.id]? = some d)
    (hId : e.id = d.id)
    (hKind : e.kind = d.kind) :
    (p.putDocument e).WellFormed := by
  apply hWell.set
  · intro id f hF
    rw [Std.ExtTreeMap.getElem?_insert] at hF
    split at hF
    · next hSame =>
        have hF := Option.some.inj hF
        subst hF
        exact ⟨Std.LawfulEqOrd.eq_of_compare hSame, rfl⟩
    · exact hWell.keyed e.kind id f hF
  · intro id hMem other hOther hMemOther
    rw [Std.ExtTreeMap.mem_insert, Std.compare_eq_iff_eq]
      at hMem
    rcases hMem with rfl | hOld
    · apply hOther
      rw [hKind]
      refine hWell.apart other d.kind _ hMemOther ?_
      rw [hId]
      exact mem_of_getElem? hStands
    · exact hOther (hWell.apart other e.kind id hMemOther hOld)

end Project

end SnapTree
