import SnapTree.Proofs.Workspace.Placement
import SnapTree.Proofs.Workspace.Rearrangement

/-
  This file proves that documents which are added or removed
  together might as well be added or removed one by one, in
  whatever order: the same is accepted, and the same comes of
  it.  All documents are looked at before the first is added,
  so the first one must not matter to the others.

  Key definitions include:
    * `Solution.changeAtOnce`
    * `Solution.changeOneByOne`
    * `Solution.addOneByOne`
    * `Solution.removeOneByOne`
    * `Solution.SameOutcome`

  Key theorems include:
    * `Project.addDocuments_cons_eq_ok_iff`
    * `Project.removeDocuments_cons_eq_ok_iff`
    * `Solution.changeOneByOne_eq_ok_iff`
    * `Solution.batches_as_one_by_one`
-/

namespace SnapTree

------------------------------------------------------------
-- One document and the others
------------------------------------------------------------

namespace Project

variable
  {p q : Project}
  {kind : DocumentKind}

/- What a project contains once documents were added. -/
theorem containsDocument_including_iff
    {ds : List DocumentDescription}
    {id : DocumentId} :
    (p.including kind ds).containsDocument id = true ↔
      id ∈ ds.map DocumentDescription.id ∨
        p.containsDocument id = true := by
  rw [containsDocument_iff, containsDocument_iff]
  unfold including
  dsimp only
  constructor
  · rintro ⟨other, hMem⟩
    by_cases hOther : other = kind
    · subst hOther
      rw [ByKind.get_set_self, DocumentMap.mem_including]
        at hMem
      exact hMem.imp_right (fun hOld => ⟨other, hOld⟩)
    · rw [ByKind.get_set_of_ne _ hOther] at hMem
      exact Or.inr ⟨other, hMem⟩
  · intro hMem
    by_cases hHere :
        id ∈ ds.map DocumentDescription.id ∨
          id ∈ p.documents.get kind
    · refine ⟨kind, ?_⟩
      rw [ByKind.get_set_self, DocumentMap.mem_including]
      exact hHere
    · rw [not_or] at hHere
      rcases hMem.resolve_left hHere.1 with ⟨other, hOld⟩
      have hOther : other ≠ kind := by
        rintro rfl
        exact hHere.2 hOld
      refine ⟨other, ?_⟩
      rw [ByKind.get_set_of_ne _ hOther]
      exact hOld

theorem including_cons
    (d : DocumentDescription)
    (ds : List DocumentDescription) :
    p.including kind (d :: ds) =
      (p.including kind [d]).including kind ds := by
  unfold including DocumentMap.including
  rw [ByKind.get_set_self, ByKind.set_set, entering_cons,
    entering_cons, entering_nil]

theorem excluding_cons
    (id : DocumentId)
    (ids : List DocumentId) :
    p.excluding kind (id :: ids) =
      (p.excluding kind [id]).excluding kind ids := by
  unfold excluding DocumentMap.excluding
  rw [ByKind.get_set_self, ByKind.set_set]
  rfl

theorem addDocuments_nil
    (p : Project) :
    p.addDocuments kind [] = .ok p := by
  refine addDocuments_eq_ok_iff.2 ⟨List.nodup_nil, by simp, ?_⟩
  unfold including DocumentMap.including
  rw [entering_nil, ByKind.set_get_self]

theorem removeDocuments_nil
    (p : Project) :
    p.removeDocuments kind [] = .ok p := by
  refine removeDocuments_eq_ok_iff.2 ⟨by simp, ?_⟩
  unfold excluding DocumentMap.excluding
  rw [erasing_nil, ByKind.set_get_self]

/-
  The first document can be added, and then the others: they
  must not have its identity, and those that were there before
  still count.
-/
theorem addDocuments_cons_eq_ok_iff
    {d : DocumentDescription}
    {ds : List DocumentDescription} :
    p.addDocuments kind (d :: ds) = .ok q ↔
      ∃ r, p.addDocuments kind [d] = .ok r ∧
        r.addDocuments kind ds = .ok q := by
  simp only [addDocuments_eq_ok_iff]
  have hStill :
      ∀ e : DocumentDescription,
        (p.including kind [d]).containsDocument e.id = false ↔
          e.id ≠ d.id ∧ p.containsDocument e.id = false := by
    intro e
    rw [← Bool.not_eq_true, containsDocument_including_iff,
      not_or, Bool.not_eq_true, List.map_singleton,
      List.mem_singleton]
  rw [including_cons, List.map_cons, List.nodup_cons,
    List.forall_mem_cons]
  constructor
  · rintro ⟨⟨hNew, hNodup⟩, ⟨hFree, hOthers⟩, rfl⟩
    refine ⟨_, ⟨by simp, by simpa using hFree, rfl⟩, hNodup,
      ?_, rfl⟩
    intro e hE
    refine (hStill e).2 ⟨?_, hOthers e hE⟩
    intro hSame
    exact hNew (hSame ▸ List.mem_map_of_mem hE)
  · rintro ⟨r, ⟨-, hFree, rfl⟩, hNodup, hOthers, rfl⟩
    refine ⟨⟨?_, hNodup⟩,
      ⟨hFree d List.mem_cons_self, ?_⟩, rfl⟩
    · intro hMem
      rcases List.mem_map.1 hMem with ⟨e, hE, hSame⟩
      exact ((hStill e).1 (hOthers e hE)).1 hSame
    · exact fun e hE => ((hStill e).1 (hOthers e hE)).2

/-
  The first document can be removed, and then the others, if
  it is not one of them: it would not be there any more.
-/
theorem removeDocuments_cons_eq_ok_iff
    {id : DocumentId}
    {ids : List DocumentId}
    (hNew : id ∉ ids) :
    p.removeDocuments kind (id :: ids) = .ok q ↔
      ∃ r, p.removeDocuments kind [id] = .ok r ∧
        r.removeDocuments kind ids = .ok q := by
  simp only [removeDocuments_eq_ok_iff]
  have hStill :
      ∀ other ∈ ids,
        (other ∈ (p.excluding kind [id]).documents.get kind ↔
          other ∈ p.documents.get kind) := by
    intro other hOther
    have hNe : other ≠ id := by
      rintro rfl
      exact hNew hOther
    unfold excluding
    dsimp only
    rw [ByKind.get_set_self,
      Std.ExtTreeMap.mem_iff_isSome_getElem?,
      DocumentMap.getElem?_excluding,
      if_neg (by simpa using hNe),
      ← Std.ExtTreeMap.mem_iff_isSome_getElem?]
  rw [excluding_cons, List.forall_mem_cons]
  constructor
  · rintro ⟨⟨hFirst, hOthers⟩, rfl⟩
    refine ⟨_, ⟨by simpa using hFirst, rfl⟩, ?_, rfl⟩
    exact fun other hOther =>
      (hStill other hOther).2 (hOthers other hOther)
  · rintro ⟨r, ⟨hFirst, rfl⟩, hOthers, rfl⟩
    refine ⟨⟨hFirst id List.mem_cons_self, ?_⟩, rfl⟩
    exact fun other hOther =>
      (hStill other hOther).1 (hOthers other hOther)

/- The order in which documents are added does not matter. -/
theorem addDocuments_of_perm
    {ds es : List DocumentDescription}
    (hPerm : es.Perm ds)
    (hOk : p.addDocuments kind ds = .ok q) :
    p.addDocuments kind es = .ok q := by
  rcases addDocuments_eq_ok_iff.1 hOk with
    ⟨hNodup, hFree, rfl⟩
  have hIds := hPerm.map DocumentDescription.id
  refine addDocuments_eq_ok_iff.2
    ⟨hIds.nodup_iff.2 hNodup,
      fun d hD => hFree d (hPerm.mem_iff.1 hD), ?_⟩
  unfold including DocumentMap.including
  rw [entering_eq_of_perm (m := p.documents.get kind) hNodup
    (hPerm.symm.map _)]

/- The order in which documents are removed does not matter. -/
theorem removeDocuments_of_perm
    {ids others : List DocumentId}
    (hPerm : others.Perm ids)
    (hOk : p.removeDocuments kind ids = .ok q) :
    p.removeDocuments kind others = .ok q := by
  rcases removeDocuments_eq_ok_iff.1 hOk with ⟨hPresent, rfl⟩
  refine removeDocuments_eq_ok_iff.2
    ⟨fun id hId => hPresent id (hPerm.mem_iff.1 hId), ?_⟩
  have hSame :
      DocumentMap.excluding (p.documents.get kind) ids =
        DocumentMap.excluding (p.documents.get kind) others := by
    apply Std.ExtTreeMap.ext_getElem?
    intro id
    simp only [DocumentMap.getElem?_excluding, hPerm.mem_iff]
  unfold excluding
  rw [hSame]

end Project

------------------------------------------------------------
-- At once and one by one
------------------------------------------------------------

namespace Solution

section

variable
  {α : Type}
  (f : List α → Project → Except EditError Project)

/-
  Change a project by some items at once.  Without any there
  is nothing to change, be the project present or not.
-/
def changeAtOnce
    (s : Solution)
    (project : ProjectId)
    (xs : List α) : Except EditError Solution :=
  if xs.isEmpty then .ok s
  else s.changeProject project (f xs)

/- Change a project by one item after the other. -/
def changeOneByOne
    (s : Solution)
    (project : ProjectId)
    (xs : List α) : Except EditError Solution :=
  xs.foldlM (fun s x => s.changeAtOnce f project [x]) s

variable
  {f}
  {s t : Solution}
  {project : ProjectId}

/- A project that was put somewhere is changed there. -/
theorem changeAtOnce_put_eq_ok_iff
    (hNone : ∀ p, f [] p = .ok p)
    {xs : List α}
    {p : Project} :
    (s.put project p).changeAtOnce f project xs = .ok t ↔
      ∃ q, f xs p = .ok q ∧ t = s.put project q := by
  unfold changeAtOnce
  by_cases hEmpty : xs = []
  · subst hEmpty
    rw [hNone]
    constructor
    · intro hOk
      exact ⟨p, rfl, (Except.ok.inj hOk).symm⟩
    · rintro ⟨q, hQ, rfl⟩
      rw [Except.ok.inj hQ]
      rfl
  · rw [if_neg (by simpa using hEmpty), changeProject_eq_ok_iff]
    constructor
    · rintro ⟨p', q, hStands, hQ, rfl⟩
      rw [getElem?_put_self] at hStands
      rw [← Option.some.inj hStands] at hQ
      exact ⟨q, hQ, put_put s project p q⟩
    · rintro ⟨q, hQ, rfl⟩
      exact ⟨p, q, getElem?_put_self, hQ,
        (put_put s project p q).symm⟩

/- What a project makes of a first item and of the others. -/
theorem changeAtOnce_cons_eq_ok_iff
    (hNone : ∀ p, f [] p = .ok p)
    {x : α}
    {xs : List α}
    (hSplit :
      ∀ p q, f (x :: xs) p = .ok q ↔
        ∃ r, f [x] p = .ok r ∧ f xs r = .ok q) :
    s.changeAtOnce f project (x :: xs) = .ok t ↔
      ∃ u, s.changeAtOnce f project [x] = .ok u ∧
        u.changeAtOnce f project xs = .ok t := by
  have hFirst :
      ∀ ys : List α,
        s.changeAtOnce f project (x :: ys) =
          s.changeProject project (f (x :: ys)) :=
    fun _ => rfl
  rw [hFirst, hFirst, changeProject_eq_ok_iff]
  constructor
  · rintro ⟨p, q, hStands, hQ, rfl⟩
    rcases (hSplit p q).1 hQ with ⟨r, hR, hRest⟩
    exact ⟨s.put project r,
      changeProject_eq_ok_iff.2 ⟨p, r, hStands, hR, rfl⟩,
      (changeAtOnce_put_eq_ok_iff hNone).2 ⟨q, hRest, rfl⟩⟩
  · rintro ⟨u, hU, hRest⟩
    rcases changeProject_eq_ok_iff.1 hU with
      ⟨p, r, hStands, hR, rfl⟩
    rcases (changeAtOnce_put_eq_ok_iff hNone).1 hRest with
      ⟨q, hQ, rfl⟩
    exact ⟨p, q, hStands, (hSplit p q).2 ⟨r, hR, hQ⟩, rfl⟩

/-
  If a project can always be changed by a first item and then
  by the others, it can be changed by one after the other.  It
  is enough that this is so of lists in some class, as those
  without repeats.
-/
theorem changeOneByOne_eq_ok_iff
    {P : List α → Prop}
    (hTail : ∀ x xs, P (x :: xs) → P xs)
    (hNone : ∀ p, f [] p = .ok p)
    (hSplit :
      ∀ x xs, P (x :: xs) →
        ∀ p q, f (x :: xs) p = .ok q ↔
          ∃ r, f [x] p = .ok r ∧ f xs r = .ok q)
    {xs : List α}
    (hFit : P xs) :
    s.changeOneByOne f project xs = .ok t ↔
      s.changeAtOnce f project xs = .ok t := by
  induction xs generalizing s with
  | nil => exact Iff.rfl
  | cons x xs ih =>
      rw [changeAtOnce_cons_eq_ok_iff hNone (hSplit x xs hFit)]
      unfold changeOneByOne
      rw [List.foldlM_cons, bind_eq_ok_iff]
      exact exists_congr
        (fun u => and_congr_right
          (fun _ => ih (hTail x xs hFit)))

/-
  If a project makes the same of some items in every order, so
  does a solution.
-/
theorem changeAtOnce_eq_ok_iff_of_perm
    (hOrder :
      ∀ xs ys : List α, ys.Perm xs →
        ∀ p q, f xs p = .ok q → f ys p = .ok q)
    {xs ys : List α}
    (hPerm : ys.Perm xs) :
    s.changeAtOnce f project ys = .ok t ↔
      s.changeAtOnce f project xs = .ok t := by
  have hChange :
      ∀ p q, f ys p = .ok q ↔ f xs p = .ok q :=
    fun p q =>
      ⟨hOrder ys xs hPerm.symm p q, hOrder xs ys hPerm p q⟩
  unfold changeAtOnce
  rw [hPerm.isEmpty_eq]
  split
  · exact Iff.rfl
  · simp only [changeProject_eq_ok_iff, hChange]

end

------------------------------------------------------------
-- Documents at once and one by one
------------------------------------------------------------

/- Add documents of one kind to a project, one by one. -/
def addOneByOne
    (s : Solution)
    (project : ProjectId)
    (kind : DocumentKind)
    (ds : List DocumentDescription) : Except EditError Solution :=
  ds.foldlM (fun s d => s.addDocuments project kind [d]) s

/- Remove documents of one kind from a project, one by one. -/
def removeOneByOne
    (s : Solution)
    (project : ProjectId)
    (kind : DocumentKind)
    (ids : List DocumentId) : Except EditError Solution :=
  ids.foldlM (fun s id => s.removeDocuments project kind [id]) s

/-
  Two ways to change a snapshot: if one of them is accepted,
  so is the other, and the results have the same content and
  the same checksum.
-/
structure SameOutcome
    (x y : Except EditError Solution) : Prop where
  accepted : (∃ t, x = .ok t) ↔ ∃ u, y = .ok u
  content :
    ∀ t u : Solution, x = .ok t → y = .ok u →
      t.SameContent u ∧ t.checksum = u.checksum

variable
  {s t : Solution}
  {project : ProjectId}
  {kind : DocumentKind}

/- Two ways that give the same solution, if they give one. -/
theorem SameOutcome.of_eq_ok_iff
    {x y : Except EditError Solution}
    (hSame : ∀ t, x = .ok t ↔ y = .ok t) :
    SameOutcome x y where
  accepted := exists_congr hSame
  content t u hT hU := by
    rw [hSame, hU] at hT
    rcases Except.ok.inj hT with rfl
    exact ⟨SameContent.refl u, rfl⟩

theorem addOneByOne_eq_ok_iff
    {ds : List DocumentDescription} :
    s.addOneByOne project kind ds = .ok t ↔
      s.addDocuments project kind ds = .ok t :=
  changeOneByOne_eq_ok_iff
    (f := fun ds p => p.addDocuments kind ds)
    (P := fun _ => True)
    (fun _ _ _ => trivial)
    (fun p => Project.addDocuments_nil p)
    (fun _ _ _ _ _ => Project.addDocuments_cons_eq_ok_iff)
    trivial

theorem removeOneByOne_eq_ok_iff
    {ids : List DocumentId}
    (hNodup : ids.Nodup) :
    s.removeOneByOne project kind ids = .ok t ↔
      s.removeDocuments project kind ids = .ok t :=
  changeOneByOne_eq_ok_iff
    (f := fun ids p => p.removeDocuments kind ids)
    (P := List.Nodup)
    (fun _ _ hNodup => (List.nodup_cons.1 hNodup).2)
    (fun p => Project.removeDocuments_nil p)
    (fun _ _ hNodup _ _ =>
      Project.removeDocuments_cons_eq_ok_iff
        (List.nodup_cons.1 hNodup).1)
    hNodup

theorem addDocuments_eq_ok_iff_of_perm
    {ds es : List DocumentDescription}
    (hPerm : es.Perm ds) :
    s.addDocuments project kind es = .ok t ↔
      s.addDocuments project kind ds = .ok t :=
  changeAtOnce_eq_ok_iff_of_perm
    (f := fun ds p => p.addDocuments kind ds)
    (fun _ _ hOther _ _ => Project.addDocuments_of_perm hOther)
    hPerm

theorem removeDocuments_eq_ok_iff_of_perm
    {ids others : List DocumentId}
    (hPerm : others.Perm ids) :
    s.removeDocuments project kind others = .ok t ↔
      s.removeDocuments project kind ids = .ok t :=
  changeAtOnce_eq_ok_iff_of_perm
    (f := fun ids p => p.removeDocuments kind ids)
    (fun _ _ hOther _ _ =>
      Project.removeDocuments_of_perm hOther)
    hPerm

/-
  Documents added together might as well be added one by one,
  and in every order: it is accepted or not, and the same comes
  of it.  So it is with documents removed together, as long as
  none is named twice.
-/
theorem batches_as_one_by_one
    (s : Solution)
    (project : ProjectId)
    (kind : DocumentKind) :
    (∀ ds : List DocumentDescription,
      SameOutcome
        (s.addDocuments project kind ds)
        (s.addOneByOne project kind ds) ∧
      ∀ es : List DocumentDescription, es.Perm ds →
        SameOutcome
          (s.addDocuments project kind es)
          (s.addDocuments project kind ds) ∧
        SameOutcome
          (s.addOneByOne project kind es)
          (s.addOneByOne project kind ds)) ∧
    ∀ ids : List DocumentId, ids.Nodup →
      SameOutcome
        (s.removeDocuments project kind ids)
        (s.removeOneByOne project kind ids) ∧
      ∀ others : List DocumentId, others.Perm ids →
        SameOutcome
          (s.removeDocuments project kind others)
          (s.removeDocuments project kind ids) ∧
        SameOutcome
          (s.removeOneByOne project kind others)
          (s.removeOneByOne project kind ids) := by
  constructor
  · intro ds
    refine ⟨.of_eq_ok_iff fun t => addOneByOne_eq_ok_iff.symm,
      ?_⟩
    intro es hPerm
    constructor
    · exact .of_eq_ok_iff
        (fun t => addDocuments_eq_ok_iff_of_perm hPerm)
    · apply SameOutcome.of_eq_ok_iff
      intro t
      rw [addOneByOne_eq_ok_iff, addOneByOne_eq_ok_iff,
        addDocuments_eq_ok_iff_of_perm hPerm]
  · intro ids hNodup
    refine ⟨.of_eq_ok_iff
      fun t => (removeOneByOne_eq_ok_iff hNodup).symm, ?_⟩
    intro others hPerm
    constructor
    · exact .of_eq_ok_iff
        (fun t => removeDocuments_eq_ok_iff_of_perm hPerm)
    · apply SameOutcome.of_eq_ok_iff
      intro t
      rw [removeOneByOne_eq_ok_iff hNodup,
        removeOneByOne_eq_ok_iff (hPerm.nodup_iff.2 hNodup),
        removeDocuments_eq_ok_iff_of_perm hPerm]

/- Two notes, neither of which is in the small solution. -/
def firstNote : DocumentDescription where
  attributes :=
    { id := ⟨⟨Vector.replicate 16 1⟩⟩, name := "first.txt" }
  text := "one"

def secondNote : DocumentDescription where
  attributes :=
    { id := ⟨⟨Vector.replicate 16 2⟩⟩, name := "second.txt" }
  text := "two"

/- The small solution with both notes. -/
def noted : Solution :=
  match small.addDocuments default .additional
      [firstNote, secondNote] with
  | .ok s => s
  | .error _ => small

theorem notes_as_one_by_one :
    (∃ t u v : Solution,
      small.addDocuments default .additional
          [firstNote, secondNote] = .ok t ∧
        small.addOneByOne default .additional
            [firstNote, secondNote] = .ok u ∧
          small.addDocuments default .additional
              [secondNote, firstNote] = .ok v ∧
            t.SameContent u ∧ v.checksum = t.checksum) ∧
    ∃ t u : Solution,
      noted.removeDocuments default .additional
          [secondNote.id, firstNote.id] = .ok t ∧
        noted.removeOneByOne default .additional
            [secondNote.id, firstNote.id] = .ok u ∧
          t.SameContent u ∧ t.checksum = u.checksum := by
  constructor
  · have hAdded :
        (small.addDocuments default .additional
          [firstNote, secondNote]).isOk := by
      decide +kernel
    cases hT : small.addDocuments default .additional
        [firstNote, secondNote] with
    | error e =>
        rw [hT] at hAdded
        cases hAdded
    | ok t =>
        rcases (batches_as_one_by_one small default
            .additional).1 [firstNote, secondNote] with
          ⟨hOneByOne, hOrder⟩
        have hSwapped :=
          (hOrder [secondNote, firstNote] (.swap _ _ _)).1
        rcases hOneByOne.accepted.1 ⟨t, hT⟩ with ⟨u, hU⟩
        rcases hSwapped.accepted.2 ⟨t, hT⟩ with ⟨v, hV⟩
        exact ⟨t, u, v, rfl, hU, hV,
          (hOneByOne.content t u hT hU).1,
          (hSwapped.content v t hV hT).2⟩
  · have hRemoved :
        (noted.removeDocuments default .additional
          [secondNote.id, firstNote.id]).isOk := by
      decide +kernel
    cases hT : noted.removeDocuments default .additional
        [secondNote.id, firstNote.id] with
    | error e =>
        rw [hT] at hRemoved
        cases hRemoved
    | ok t =>
        have hOneByOne :=
          ((batches_as_one_by_one noted default
            .additional).2 [secondNote.id, firstNote.id]
              (by decide)).1
        rcases hOneByOne.accepted.1 ⟨t, hT⟩ with ⟨u, hU⟩
        exact ⟨t, u, rfl, hU, hOneByOne.content t u hT hU⟩

end Solution

end SnapTree
