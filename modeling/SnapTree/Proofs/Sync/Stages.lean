import SnapTree.Proofs.Sync.Plan
import SnapTree.Proofs.Workspace.Placement

/-
  This file follows the documents of a project through the
  stages of an update: those that go are removed from all
  kinds, and then, kind by kind, those that come are added and
  those that change are replaced.  At every stage a document
  is in one kind at most, and in the end all are as they
  should be.

  Key definitions include:
    * `Project.thinned`
    * `Project.filled`
    * `Project.revised`
    * `Project.settled`

  Key theorems include:
    * `Project.getElem?_filled`
    * `Project.revised_changersTo`
    * `Project.settled_all`
    * `Project.wellFormed_holding_revised`
    * `Project.addDocuments_put_settled`
-/

namespace SnapTree

namespace Project

variable (p q : Project)

------------------------------------------------------------
-- The stages
------------------------------------------------------------

/- The plan for the documents of a kind. -/
def planTo
    (kind : DocumentKind) : DocumentPlan :=
  .between kind (p.documents.get kind) (q.documents.get kind)

/- The documents of a kind without those that go. -/
def remaining
    (kind : DocumentKind) : DocumentMap :=
  DocumentMap.excluding (p.documents.get kind)
    (p.planTo q kind).removed

/- All documents, without those that go from some kinds. -/
def thinned
    (kinds : List DocumentKind) : ByKind DocumentMap :=
  .ofFn (fun kind =>
    if kind ∈ kinds then p.remaining q kind
    else p.documents.get kind)

/- The documents that come to a kind. -/
def comersTo
    (kind : DocumentKind) : List Document :=
  comers (p.documents.get kind) (q.documents.get kind)

/- The documents of a kind that change, before and after. -/
def changersTo
    (kind : DocumentKind) : List (Document × Document) :=
  changers (p.documents.get kind) (q.documents.get kind)

theorem added_planTo
    (kind : DocumentKind) :
    (p.planTo q kind).added =
      (p.comersTo q kind).map Document.node :=
  DocumentPlan.added_between

variable {p} in
theorem changed_planTo
    (hP : p.WellFormed)
    (kind : DocumentKind) :
    (p.planTo q kind).changed =
      (p.changersTo q kind).map
        (fun pair => (pair.1.id, pair.1, pair.2.node)) :=
  DocumentPlan.changed_between (hP.isKeyed kind)

/- The documents of a kind once those that come are there. -/
def filled
    (kind : DocumentKind) : DocumentMap :=
  DocumentMap.including kind (p.remaining q kind)
    ((p.comersTo q kind).map Document.describe)

/- The documents of a kind once some were replaced. -/
def revised
    (kind : DocumentKind)
    (done : List (Document × Document)) : DocumentMap :=
  entering (fun pair => pair.2.id) Prod.snd
    (p.filled q kind) done

/-
  All documents, where some kinds are thinned out and those of
  other kinds are as they should be.
-/
def settled
    (kinds done : List DocumentKind) : ByKind DocumentMap :=
  .ofFn (fun kind =>
    if kind ∈ done then q.documents.get kind
    else (p.thinned q kinds).get kind)

------------------------------------------------------------
-- From stage to stage
------------------------------------------------------------

theorem thinned_nil :
    p.thinned q [] = p.documents := by
  apply ByKind.ext_get
  intro kind
  unfold thinned
  rw [ByKind.get_ofFn, if_neg List.not_mem_nil]

theorem thinned_concat
    (done : List DocumentKind)
    (kind : DocumentKind) :
    (p.thinned q done).set kind (p.remaining q kind) =
      p.thinned q (done ++ [kind]) := by
  apply ByKind.ext_get
  intro other
  by_cases hKind : other = kind
  · subst hKind
    rw [ByKind.get_set_self]
    unfold thinned
    rw [ByKind.get_ofFn, if_pos (by simp)]
  · rw [ByKind.get_set_of_ne _ hKind]
    unfold thinned
    rw [ByKind.get_ofFn, ByKind.get_ofFn]
    simp [hKind]

theorem settled_nil
    (kinds : List DocumentKind) :
    p.settled q kinds [] = p.thinned q kinds := by
  apply ByKind.ext_get
  intro kind
  unfold settled
  rw [ByKind.get_ofFn, if_neg List.not_mem_nil]

theorem settled_concat
    (kinds done : List DocumentKind)
    (kind : DocumentKind) :
    (p.settled q kinds done).set kind (q.documents.get kind) =
      p.settled q kinds (done ++ [kind]) := by
  apply ByKind.ext_get
  intro other
  by_cases hKind : other = kind
  · subst hKind
    rw [ByKind.get_set_self]
    unfold settled
    rw [ByKind.get_ofFn, if_pos (by simp)]
  · rw [ByKind.get_set_of_ne _ hKind]
    unfold settled
    rw [ByKind.get_ofFn, ByKind.get_ofFn]
    simp [hKind]

/- All is as it should be once every kind that differs is. -/
theorem settled_all
    {kinds : List DocumentKind}
    (hSame :
      ∀ kind, kind ∉ kinds →
        p.documents.get kind = q.documents.get kind) :
    p.settled q kinds kinds = q.documents := by
  apply ByKind.ext_get
  intro kind
  unfold settled thinned
  rw [ByKind.get_ofFn, ByKind.get_ofFn]
  by_cases hKind : kind ∈ kinds
  · rw [if_pos hKind]
  · rw [if_neg hKind, if_neg hKind, hSame kind hKind]

/- A kind that is not settled yet is still thinned out. -/
theorem get_settled_of_notMem
    {kinds done : List DocumentKind}
    {kind : DocumentKind}
    (hKind : kind ∈ kinds)
    (hLater : kind ∉ done) :
    (p.settled q kinds done).get kind = p.remaining q kind := by
  unfold settled thinned
  rw [ByKind.get_ofFn, ByKind.get_ofFn, if_neg hLater,
    if_pos hKind]

------------------------------------------------------------
-- What is there at each stage
------------------------------------------------------------

variable {p q} {kind : DocumentKind} {id : DocumentId}
variable {d : Document}

/- What remains was there and is to be there. -/
theorem getElem?_remaining :
    (p.remaining q kind)[id]? = some d ↔
      (p.documents.get kind)[id]? = some d ∧
        id ∈ q.documents.get kind := by
  unfold remaining planTo
  rw [DocumentMap.getElem?_excluding,
    DocumentPlan.removed_between]
  by_cases hGone :
      id ∈ leavers (p.documents.get kind) (q.documents.get kind)
  · rw [if_pos hGone]
    constructor
    · intro hNone
      cases hNone
    · rintro ⟨-, hThere⟩
      exact absurd hThere
        (mem_leavers.1 hGone).2
  · rw [if_neg hGone]
    constructor
    · intro hHere
      refine ⟨hHere, ?_⟩
      by_contra hNot
      exact hGone (mem_leavers.2
        ⟨mem_of_getElem? hHere, hNot⟩)
    · exact And.left

variable (hP : p.WellFormed) (hQ : q.WellFormed)

include hQ in
/- A document of a kind is what remained or what came. -/
theorem getElem?_filled :
    (p.filled q kind)[id]? = some d ↔
      ((q.documents.get kind)[id]? = some d ∧
        id ∉ p.documents.get kind) ∨
      ((p.documents.get kind)[id]? = some d ∧
        id ∈ q.documents.get kind) := by
  have hKeyed := hQ.isKeyed kind
  have hComers :
      ((p.comersTo q kind).map Document.describe).map
          DocumentDescription.id =
        (p.comersTo q kind).map Document.id := by
    rw [List.map_map]
    rfl
  have hNodup :
      (((p.comersTo q kind).map Document.describe).map
        DocumentDescription.id).Nodup := by
    rw [hComers]
    exact nodup_comers hKeyed
  unfold filled DocumentMap.including
  rw [getElem?_entering hNodup, getElem?_remaining, hComers]
  constructor
  · rintro (⟨x, hX, rfl, rfl⟩ | ⟨-, hRemains⟩)
    · rcases List.mem_map.1 hX with ⟨e, hE, rfl⟩
      rcases (mem_comers hKeyed).1 hE with ⟨hThere, hNew⟩
      rcases hQ.keyed kind e.id e hThere with ⟨-, rfl⟩
      exact Or.inl ⟨hThere, hNew⟩
    · exact Or.inr hRemains
  · rintro (⟨hThere, hNew⟩ | hRemains)
    · left
      rcases hQ.keyed kind id d hThere with ⟨rfl, rfl⟩
      exact ⟨d.describe, List.mem_map_of_mem
        ((mem_comers hKeyed).2 ⟨hThere, hNew⟩),
        rfl, rfl⟩
    · right
      refine ⟨?_, hRemains⟩
      intro hComes
      rcases List.mem_map.1 hComes with ⟨e, hE, rfl⟩
      rcases (mem_comers hKeyed).1 hE with ⟨-, hNew⟩
      exact hNew (mem_of_getElem? hRemains.1)

include hP

theorem mem_changersTo
    {e : Document} :
    (d, e) ∈ p.changersTo q kind ↔
      (p.documents.get kind)[d.id]? = some d ∧
        (q.documents.get kind)[d.id]? = some e ∧ d ≠ e :=
  mem_changers (hP.isKeyed kind)

include hQ

/- A document that changes keeps its name. -/
theorem id_of_mem_changersTo
    {e : Document}
    (hMem : (d, e) ∈ p.changersTo q kind) :
    e.id = d.id :=
  key_eq_of_mem_changers (hP.isKeyed kind) (hQ.isKeyed kind) hMem

omit hP in
/- No two documents that change have the same name. -/
theorem nodup_changersTo :
    ((p.changersTo q kind).map (fun pair => pair.2.id)).Nodup :=
  nodup_changers (hQ.isKeyed kind)

section Revised

variable
  {changed : List (Document × Document)}
  (hChanged : changed.Sublist (p.changersTo q kind))

include hChanged

omit hP in
/- What is there once some documents were replaced. -/
theorem getElem?_revised :
    (p.revised q kind changed)[id]? = some d ↔
      (∃ c, (c, d) ∈ changed ∧ d.id = id) ∨
        (id ∉ changed.map (fun pair => pair.2.id) ∧
          (p.filled q kind)[id]? = some d) := by
  unfold revised
  rw [getElem?_entering
    ((nodup_changersTo hQ).sublist (hChanged.map _))]
  constructor
  · rintro (⟨⟨c, e⟩, hMem, rfl, rfl⟩ | hOld)
    · exact Or.inl ⟨c, hMem, rfl⟩
    · exact Or.inr hOld
  · rintro (⟨c, hMem, rfl⟩ | hOld)
    · exact Or.inl ⟨(c, d), hMem, rfl, rfl⟩
    · exact Or.inr hOld

/- Documents that are replaced come from one of both sides. -/
theorem exists_of_getElem?_revised
    (hStands : (p.revised q kind changed)[id]? = some d) :
    ((p.documents.get kind)[id]? = some d ∨
        (q.documents.get kind)[id]? = some d) ∧
      id ∈ q.documents.get kind := by
  rcases (getElem?_revised hQ hChanged).1 hStands with
    ⟨c, hPair, rfl⟩ | ⟨-, hOld⟩
  · have hChanger := hChanged.subset hPair
    rcases (mem_changersTo hP).1 hChanger with ⟨-, hThere, -⟩
    rw [← id_of_mem_changersTo hP hQ hChanger] at hThere
    exact ⟨Or.inr hThere, mem_of_getElem? hThere⟩
  · rcases (getElem?_filled hQ).1 hOld with
      ⟨hThere, -⟩ | ⟨hHere, hThere⟩
    · exact ⟨Or.inr hThere, mem_of_getElem? hThere⟩
    · exact ⟨Or.inl hHere, hThere⟩

end Revised

/- A document that is yet to be replaced stands as it was. -/
theorem getElem?_revised_of_later
    {changed rest : List (Document × Document)}
    {e : Document}
    (hSplit : p.changersTo q kind = changed ++ (d, e) :: rest) :
    (p.revised q kind changed)[d.id]? = some d := by
  have hMem : (d, e) ∈ p.changersTo q kind := mem_of_later hSplit
  have hNew := notMem_map_of_later (nodup_changersTo hQ) hSplit
  dsimp only at hNew
  rw [id_of_mem_changersTo hP hQ hMem] at hNew
  rw [getElem?_revised hQ (sublist_of_later hSplit)]
  rcases (mem_changersTo hP).1 hMem with ⟨hHere, hThere, -⟩
  exact Or.inr ⟨hNew, (getElem?_filled hQ).2
    (Or.inr ⟨hHere, mem_of_getElem? hThere⟩)⟩

/- Once all that change were replaced, the kind is settled. -/
theorem revised_changersTo :
    p.revised q kind (p.changersTo q kind) =
      q.documents.get kind := by
  apply Std.ExtTreeMap.ext_getElem?
  intro id
  apply Option.ext
  intro d
  rw [getElem?_revised hQ (List.Sublist.refl _),
    getElem?_filled hQ]
  constructor
  · rintro (⟨c, hPair, rfl⟩ | ⟨hNot, ⟨hThere, -⟩ | ⟨hHere, hMem⟩⟩)
    · rw [id_of_mem_changersTo hP hQ hPair]
      exact ((mem_changersTo hP).1 hPair).2.1
    · exact hThere
    · rcases mem_iff_exists_getElem?.1 hMem with ⟨e, hE⟩
      have hId := hP.isKeyed kind id d hHere
      subst hId
      by_cases hSame : d = e
      · rw [hSame] at hE ⊢
        exact hE
      · have hPair :=
          (mem_changersTo hP).2 ⟨hHere, hE, hSame⟩
        have hIdE := id_of_mem_changersTo hP hQ hPair
        exact absurd (List.mem_map.2 ⟨(d, e), hPair, hIdE⟩) hNot
  · intro hThere
    have hId := hQ.isKeyed kind id d hThere
    subst hId
    by_cases hMem :
        d.id ∈ (p.changersTo q kind).map (fun pair => pair.2.id)
    · rcases List.mem_map.1 hMem with ⟨⟨c, e⟩, hPair, hIdE⟩
      rcases (mem_changersTo hP).1 hPair with ⟨-, hE, -⟩
      rw [← id_of_mem_changersTo hP hQ hPair] at hE
      dsimp only at hIdE
      rw [hIdE, hThere] at hE
      rw [← Option.some.inj hE] at hPair
      exact Or.inl ⟨c, hPair, rfl⟩
    · refine Or.inr ⟨hMem, ?_⟩
      by_cases hHere : d.id ∈ p.documents.get kind
      · right
        rcases mem_iff_exists_getElem?.1 hHere with ⟨c, hC⟩
        have hIdC := hP.isKeyed kind d.id c hC
        have hSame : c = d := by
          by_contra hNe
          rw [← hIdC] at hC hThere
          have hPair :=
            (mem_changersTo hP).2 ⟨hC, hThere, hNe⟩
          exact hMem (List.mem_map.2 ⟨(c, d), hPair, rfl⟩)
        rw [hSame] at hC
        exact ⟨hC, mem_of_getElem? hThere⟩
      · exact Or.inl ⟨hThere, hHere⟩

omit hP hQ in
/- One document more is replaced. -/
theorem putDocument_holding_revised
    (r : Project)
    (m : ByKind DocumentMap)
    (changed : List (Document × Document))
    {e : Document}
    (hKind : e.kind = kind) :
    (r.holding (m.set kind (p.revised q kind changed))).putDocument
        e =
      r.holding (m.set kind
        (p.revised q kind (changed ++ [(d, e)]))) := by
  unfold putDocument revised
  rw [documents_holding, hKind, ByKind.get_set_self,
    ByKind.set_set, entering_concat]
  rfl

------------------------------------------------------------
-- Projects in order at each stage
------------------------------------------------------------

section Settled

variable
  {kinds done : List DocumentKind}
  (hSame :
    ∀ kind, kind ∉ kinds →
      p.documents.get kind = q.documents.get kind)

include hSame

omit hP hQ in
/- What is there comes from one of both sides and stays. -/
theorem exists_of_getElem?_settled
    (hStands : ((p.settled q kinds done).get kind)[id]? = some d) :
    ((p.documents.get kind)[id]? = some d ∨
        (q.documents.get kind)[id]? = some d) ∧
      id ∈ q.documents.get kind := by
  unfold settled thinned at hStands
  rw [ByKind.get_ofFn, ByKind.get_ofFn] at hStands
  split at hStands
  · exact ⟨Or.inr hStands, mem_of_getElem? hStands⟩
  split at hStands
  · rcases getElem?_remaining.1 hStands with ⟨hHere, hThere⟩
    exact ⟨Or.inl hHere, hThere⟩
  · next hKind =>
      refine ⟨Or.inl hStands, mem_of_getElem? (v := d) ?_⟩
      rw [← hSame kind hKind]
      exact hStands

/- Every stage of the replacements leaves a project in order. -/
theorem wellFormed_holding_revised
    {changed : List (Document × Document)}
    (hChanged : changed.Sublist (p.changersTo q kind))
    (r : Project) :
    (r.holding ((p.settled q kinds done).set kind
      (p.revised q kind changed))).WellFormed := by
  have hOrigin :
      ∀ (other : DocumentKind) (id : DocumentId) (d : Document),
        (((p.settled q kinds done).set kind
            (p.revised q kind changed)).get other)[id]? = some d →
          ((p.documents.get other)[id]? = some d ∨
              (q.documents.get other)[id]? = some d) ∧
            id ∈ q.documents.get other := by
    intro other id d hStands
    by_cases hKind : other = kind
    · subst hKind
      rw [ByKind.get_set_self] at hStands
      exact exists_of_getElem?_revised hP hQ hChanged hStands
    · rw [ByKind.get_set_of_ne _ hKind] at hStands
      exact exists_of_getElem?_settled hSame hStands
  apply hQ.holding
  · intro other id d hStands
    rcases (hOrigin other id d hStands).1 with hHere | hThere
    · exact hP.keyed other id d hHere
    · exact hQ.keyed other id d hThere
  · intro other id hMem
    rcases mem_iff_exists_getElem?.1 hMem with ⟨d, hD⟩
    exact (hOrigin other id d hD).2

omit hP in
/- The names of documents that come are free in all kinds. -/
theorem containsDocument_eq_false_of_comer
    (hKind : kind ∈ kinds)
    (hLater : kind ∉ done)
    (r : Project)
    {e : Document}
    (hComes : e ∈ p.comersTo q kind) :
    (r.holding (p.settled q kinds done)).containsDocument e.id =
      false := by
  rcases (mem_comers (hQ.isKeyed kind)).1 hComes with ⟨hThere, hNew⟩
  rw [← Bool.not_eq_true, containsDocument_iff]
  rintro ⟨other, hTaken⟩
  rw [documents_holding] at hTaken
  rcases mem_iff_exists_getElem?.1 hTaken with ⟨d, hD⟩
  have hStays := (exists_of_getElem?_settled hSame hD).2
  have hApart := hQ.apart other kind e.id hStays
    (mem_of_getElem? hThere)
  subst hApart
  rw [p.get_settled_of_notMem q hKind hLater,
    getElem?_remaining] at hD
  exact hNew (mem_of_getElem? hD.1)

omit hP in
/- The documents that come to a kind can be added. -/
theorem addDocuments_put_settled
    (hKind : kind ∈ kinds)
    (hLater : kind ∉ done)
    (s : Solution)
    (id : ProjectId)
    (r : Project) :
    (s.put id (r.holding (p.settled q kinds done))).addDocuments
        id kind ((p.comersTo q kind).map Document.describe) =
      .ok (s.put id (r.holding
        ((p.settled q kinds done).set kind
          (p.filled q kind)))) := by
  rw [Solution.addDocuments_put]
  · unfold including
    rw [documents_holding,
      p.get_settled_of_notMem q hKind hLater]
    rfl
  · rw [List.map_map]
    exact nodup_comers (hQ.isKeyed kind)
  · intro d hD
    rcases List.mem_map.1 hD with ⟨e, hE, rfl⟩
    exact containsDocument_eq_false_of_comer hQ hSame hKind
      hLater r hE

end Settled

end Project

end SnapTree
