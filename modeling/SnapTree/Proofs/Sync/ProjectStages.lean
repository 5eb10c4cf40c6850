import SnapTree.Proofs.Sync.Project

/-
  This file follows the projects of a solution through the
  stages of a synchronization.  Those that change give up
  their references to projects, then some projects go, others
  come, and those that changed are replaced one by one.  At
  every stage a project either has no references to projects
  or those of the target, so that no cycle can come about.

  Key definitions include:
    * `Solution.Comparable`
    * `ProjectMap.Settles`
    * `ProjectMap.freed`
    * `ProjectMap.cleared`
    * `ProjectMap.joined`
    * `ProjectMap.renewed`

  Key theorems include:
    * `ProjectMap.Settles.acyclic`
    * `ProjectMap.settles_renewed`
    * `ProjectMap.renewed_changers`
-/

namespace SnapTree

open ReferenceGraph

deriving instance DecidableEq for Project

------------------------------------------------------------
-- Solutions side by side
------------------------------------------------------------

namespace Solution

/- Two solutions in order, whose assets are told apart. -/
structure Comparable
    (s t : Solution)
    (assets : Set Asset) : Prop where
  faithful : Faithful assets
  left : s.WellFormed
  right : t.WellFormed
  left_mem : ∀ a ∈ s.assets, a ∈ assets
  right_mem : ∀ a ∈ t.assets, a ∈ assets

namespace Comparable

variable
  {s t : Solution}
  {assets : Set Asset}
  (hBoth : s.Comparable t assets)

include hBoth

theorem swap :
    t.Comparable s assets where
  faithful := hBoth.faithful
  left := hBoth.right
  right := hBoth.left
  left_mem := hBoth.right_mem
  right_mem := hBoth.left_mem

/- Any two of their projects can be compared. -/
theorem project
    {a b : ProjectId}
    {p q : Project}
    (hP : s.projects[a]? = some p)
    (hQ : t.projects[b]? = some q) :
    p.Comparable q assets where
  faithful := hBoth.faithful
  left := hBoth.left.project a p hP
  right := hBoth.right.project b q hQ
  left_mem c hC :=
    hBoth.left_mem c (project_assets_subset (mem_values hP) hC)
  right_mem c hC :=
    hBoth.right_mem c (project_assets_subset (mem_values hQ) hC)

/- The members of their collections are told apart. -/
theorem members_eq
    {kind : CollectionKind}
    {cs ds : List Checksum}
    (hC :
      Collection.of kind cs ∈
        (Asset.solutionNode s.node).collections)
    (hD :
      Collection.of kind ds ∈
        (Asset.solutionNode t.node).collections)
    (hSame :
      (Collection.of kind cs).checksum =
        (Collection.of kind ds).checksum) :
    cs = ds := by
  rcases forall_mem_assets.1 hBoth.left_mem with ⟨hNodeS, -⟩
  rcases forall_mem_assets.1 hBoth.right_mem with ⟨hNodeT, -⟩
  exact hBoth.faithful.members_eq hNodeS hNodeT hC hD hSame

/- Their projects are told apart by their checksums. -/
theorem toldApart :
    ToldApart Project.checksum s.projects t.projects := by
  have hEach :
      ∀ p ∈ s.projectList ++ t.projectList,
        p.WellFormed ∧ ∀ a ∈ p.assets, a ∈ assets := by
    intro p hP
    rcases List.mem_append.1 hP with hP | hP
    · rcases exists_key_of_mem_values hP with ⟨id, hStands⟩
      exact ⟨hBoth.left.project id p hStands,
        fun a hA => hBoth.left_mem a (project_assets_subset hP hA)⟩
    · rcases exists_key_of_mem_values hP with ⟨id, hStands⟩
      exact ⟨hBoth.right.project id p hStands,
        fun a hA =>
          hBoth.right_mem a (project_assets_subset hP hA)⟩
  intro p q hP hQ hSame
  rcases hEach p hP with ⟨hWellP, hAssetsP⟩
  rcases hEach q hQ with ⟨hWellQ, hAssetsQ⟩
  exact Project.eq_of_checksum hBoth.faithful hWellP hWellQ
    hAssetsP hAssetsQ hSame

/- So are all of them together. -/
theorem projects_eq
    (hSame :
      s.node.projects.checksum = t.node.projects.checksum) :
    s.projects = t.projects := by
  rw [s.projects_node, t.projects_node] at hSame
  have hChecksums :=
    hBoth.members_eq (by simp [Asset.collections])
      (by simp [Asset.collections]) hSame
  apply hBoth.left.isKeyed.ext_values hBoth.right.isKeyed
  apply eq_of_map_eq ?_ hChecksums
  intro p hP q hQ hChecksum
  exact hBoth.toldApart p q (List.mem_append_left _ hP)
    (List.mem_append_right _ hQ) hChecksum

/- So are their analyzer references. -/
theorem analyzerReferences_eq
    (hSame :
      s.node.analyzerReferences.checksum =
        t.node.analyzerReferences.checksum) :
    s.analyzerReferences = t.analyzerReferences := by
  rw [s.analyzerReferences_node, t.analyzerReferences_node]
    at hSame
  rcases forall_mem_assets.1 hBoth.left_mem with
    ⟨-, -, hReferencesS, -⟩
  rcases forall_mem_assets.1 hBoth.right_mem with
    ⟨-, -, hReferencesT, -⟩
  exact hBoth.faithful.values_eq hReferencesS hReferencesT
    (fun _ => rfl)
    (hBoth.members_eq (by simp [Asset.collections])
      (by simp [Asset.collections]) hSame)

/- So are the solutions themselves. -/
theorem eq_of_checksum
    (hSame : s.checksum = t.checksum) :
    s = t :=
  Solution.eq_of_checksum hBoth.faithful hBoth.left
    hBoth.right hBoth.left_mem hBoth.right_mem hSame

/- Projects that differ have different checksums. -/
theorem checksum_ne
    {a b : ProjectId}
    {p q : Project}
    (hP : s.projects[a]? = some p)
    (hQ : t.projects[b]? = some q)
    (hNe : p ≠ q) :
    p.checksum ≠ q.checksum :=
  fun hSame =>
    hNe (hBoth.toldApart p q
      (List.mem_append_left _ (mem_values hP))
      (List.mem_append_right _ (mem_values hQ)) hSame)

/-
  Of a project that is not there as it is to be, node and
  attributes are needed.
-/
theorem needs_of_departing
    {id : ProjectId}
    {q : Project}
    (hNew : (departing t.projects s.projects)[id]? = some q)
    {a : Asset}
    (hAdded : a ∈ q.assets)
    (hChanged : ∀ p : Project, p.Needs q a) :
    s.Needs t a := by
  rcases getElem?_departing.1 hNew with ⟨hThere, hNot⟩
  cases hHere : s.projects[id]? with
  | none =>
      refine .added hThere ?_ hAdded
      rw [Std.ExtTreeMap.mem_iff_isSome_getElem?, hHere]
      exact Bool.false_ne_true
  | some p =>
      refine .changed hHere hThere ?_ (hChanged p)
      apply hBoth.checksum_ne hHere hThere
      rintro rfl
      exact hNot hHere

theorem needs_node
    {id : ProjectId}
    {q : Project}
    (hNew : (departing t.projects s.projects)[id]? = some q) :
    s.Needs t (.projectNode q.node) :=
  hBoth.needs_of_departing hNew (by simp [Project.assets])
    (fun _ => .node)

theorem needs_attributes
    {id : ProjectId}
    {q : Project}
    (hNew : (departing t.projects s.projects)[id]? = some q) :
    s.Needs t (.projectAttributes q.attributes) :=
  hBoth.needs_of_departing hNew (by simp [Project.assets])
    (fun _ => .attributes)

end Comparable

/- A solution with other projects. -/
def holding
    (s : Solution)
    (projects : ProjectMap) : Solution :=
  { s with projects }

section

variable
  (s : Solution)
  (m n : ProjectMap)
  (id : ProjectId)
  (p : Project)

@[simp]
theorem projects_holding :
    (s.holding m).projects = m :=
  rfl

@[simp]
theorem frozen_holding :
    (s.holding m).frozen = s.frozen :=
  rfl

@[simp]
theorem holding_self :
    s.holding s.projects = s :=
  rfl

@[simp]
theorem holding_holding :
    (s.holding m).holding n = s.holding n :=
  rfl

@[simp]
theorem put_holding :
    (s.holding m).put id p = s.holding (m.insert id p) :=
  rfl

end

/- Nothing else goes with a project if nothing is frozen. -/
theorem drop_holding
    {s : Solution}
    (hFrozen : s.frozen = none)
    (m : ProjectMap)
    (id : ProjectId) :
    (s.holding m).drop id = s.holding (m.erase id) := by
  unfold drop holding
  rw [hFrozen]
  rfl

end Solution

namespace ProjectMap

------------------------------------------------------------
-- References that come from a target
------------------------------------------------------------

/-
  Every project either has no references to projects or those
  that it has in the target.
-/
def Settles
    (m target : ProjectMap) : Prop :=
  ∀ (id : ProjectId) (p : Project),
    m[id]? = some p →
      p.projectReferences = [] ∨
        ∃ q, target[id]? = some q ∧
          p.projectReferences = q.projectReferences

namespace Settles

variable {m target : ProjectMap}

/- Then no cycle is there if the target has none. -/
theorem acyclic
    (hSettles : Settles m target)
    (hAcyclic : Acyclic target) :
    Acyclic m := by
  apply hAcyclic.of_refers
  rintro a b ⟨p, hP, hTarget⟩
  rw [mem_presentTargets_iff] at hTarget
  rcases hTarget with ⟨hListed, hPresent⟩
  rcases mem_iff_exists_getElem?.1 hPresent with ⟨r, hR⟩
  rcases hSettles b r hR with hNone | ⟨r', hR', -⟩
  · -- Nothing is referred to from here, so that no cycle
    -- leads through this reference.
    right
    rintro c ⟨x, hX, hFurther⟩
    rw [hR] at hX
    rw [mem_presentTargets_iff, ← Option.some.inj hX, hNone]
      at hFurther
    exact absurd hFurther.1 List.not_mem_nil
  · left
    rcases hSettles a p hP with hNone | ⟨q, hQ, hSame⟩
    · rw [hNone] at hListed
      exact absurd hListed List.not_mem_nil
    · rw [hSame] at hListed
      exact ⟨q, hQ, mem_presentTargets_iff.2
        ⟨hListed, mem_of_getElem? hR'⟩⟩

/- A project of the target may come in. -/
theorem insert
    (hSettles : Settles m target)
    {id : ProjectId}
    {q : Project}
    (hQ : target[id]? = some q) :
    Settles (m.insert id q) target := by
  intro other p hP
  rw [Std.ExtTreeMap.getElem?_insert] at hP
  split at hP
  · next hSame =>
      rw [← Std.LawfulEqOrd.eq_of_compare hSame,
        ← Option.some.inj hP]
      exact Or.inr ⟨q, hQ, rfl⟩
  · exact hSettles other p hP

/- Any number of them may. -/
theorem entering
    {α : Type}
    {key : α → ProjectId}
    {value : α → Project}
    {xs : List α}
    (hSettles : Settles m target)
    (hXs : ∀ x ∈ xs, target[key x]? = some (value x)) :
    Settles (SnapTree.entering key value m xs) target := by
  induction xs generalizing m with
  | nil => exact hSettles
  | cons x xs ih =>
      rw [entering_cons]
      apply ih (hSettles.insert (hXs x List.mem_cons_self))
      intro y hY
      exact hXs y (List.mem_cons_of_mem _ hY)

end Settles

------------------------------------------------------------
-- The stages
------------------------------------------------------------

variable (supports : Project → Bool) (m target : ProjectMap)

/- Projects once some that change gave up their references. -/
def freed
    (done : List (Project × Project)) : ProjectMap :=
  entering (fun pair => pair.2.id) (fun pair => pair.1.stripped)
    m done

/- Projects once some that go are gone. -/
def cleared
    (done : List ProjectId) : ProjectMap :=
  erasing (freed m (changers m target)) done

/- Projects once some that come were taken in, if supported. -/
def joined
    (done : List Project) : ProjectMap :=
  entering Project.id id (cleared m target (leavers m target))
    (done.filter supports)

/- One project more is taken in, or left out. -/
theorem joined_concat
    (done : List Project)
    (q : Project) :
    joined supports m target (done ++ [q]) =
      if supports q then
        (joined supports m target done).insert q.id q
      else joined supports m target done := by
  unfold joined
  rw [List.filter_append]
  split
  · next hSupported =>
      rw [List.filter_cons_of_pos hSupported, List.filter_nil,
        entering_concat]
      rfl
  · next hNot =>
      rw [List.filter_cons_of_neg hNot, List.filter_nil,
        List.append_nil]

/- Projects once some that change were replaced. -/
def renewed
    (done : List (Project × Project)) : ProjectMap :=
  entering (fun pair => pair.2.id) Prod.snd
    (joined supports m target (comers m target)) done

/-
  The projects that a target leaves: those that were there
  before and those that are supported.
-/
def attained : ProjectMap :=
  target.filter (fun id q => m.contains id || supports q)

------------------------------------------------------------
-- What is there at each stage
------------------------------------------------------------

variable {supports m target} {k : ProjectId} {p : Project}
variable (hM : IsKeyed Project.id m)
variable (hTarget : IsKeyed Project.id target)

/- No changed project has a name that another one has. -/
theorem nodup_done
    (hTarget : IsKeyed Project.id target)
    {done : List (Project × Project)}
    (hDone : done.Sublist (changers m target)) :
    (done.map (fun pair => pair.2.id)).Nodup :=
  (nodup_changers hTarget).sublist (hDone.map _)

/- What stays is what no project that goes was. -/
theorem getElem?_cleared
    {done : List ProjectId} :
    (m.cleared target done)[k]? = some p ↔
      k ∉ done ∧ (m.freed (changers m target))[k]? = some p := by
  unfold cleared
  rw [getElem?_erasing]
  by_cases hGone : k ∈ done
  · simp [hGone]
  · simp [hGone]

include hTarget

theorem getElem?_freed
    {done : List (Project × Project)}
    (hDone : done.Sublist (changers m target)) :
    (m.freed done)[k]? = some p ↔
      (∃ pair ∈ done, pair.2.id = k ∧ pair.1.stripped = p) ∨
        (k ∉ done.map (fun pair => pair.2.id) ∧
          m[k]? = some p) :=
  getElem?_entering (nodup_done hTarget hDone)

theorem getElem?_renewed
    {done : List (Project × Project)}
    (hDone : done.Sublist (changers m target)) :
    (renewed supports m target done)[k]? = some p ↔
      (∃ pair ∈ done, pair.2.id = k ∧ pair.2 = p) ∨
        (k ∉ done.map (fun pair => pair.2.id) ∧
          (joined supports m target (comers m target))[k]? =
            some p) :=
  getElem?_entering (nodup_done hTarget hDone)

include hM

/-
  Once all that go are gone, there are those that change,
  without references to projects, and those that stay.
-/
theorem getElem?_cleared_leavers :
    (m.cleared target (leavers m target))[k]? = some p ↔
      (∃ v w, m[k]? = some v ∧ target[k]? = some w ∧ v ≠ w ∧
        v.stripped = p) ∨
        (m[k]? = some p ∧ target[k]? = some p) := by
  rw [getElem?_cleared, mem_leavers,
    getElem?_freed hTarget (List.Sublist.refl _),
    mem_map_key_changers hM hTarget]
  constructor
  · rintro ⟨hStays, ⟨⟨v, w⟩, hPair, rfl, rfl⟩ | ⟨hSame, hP⟩⟩
    · left
      rw [key_eq_of_mem_changers hM hTarget hPair]
      rcases (mem_changers hM).1 hPair with ⟨hV, hW, hNe⟩
      exact ⟨v, w, hV, hW, hNe, rfl⟩
    · right
      have hThere : k ∈ target := by
        by_contra hNot
        exact hStays
          ⟨mem_of_getElem? hP, hNot⟩
      rcases mem_iff_exists_getElem?.1 hThere with ⟨w, hW⟩
      refine ⟨hP, ?_⟩
      by_contra hNe
      apply hSame
      refine ⟨p, w, hP, hW, ?_⟩
      rintro rfl
      exact hNe hW
  · rintro (⟨v, w, hV, hW, hNe, rfl⟩ | ⟨hP, hThere⟩)
    · have hKey := hM k v hV
      subst hKey
      refine ⟨?_, Or.inl ⟨(v, w), ?_, hTarget _ w hW, rfl⟩⟩
      · rintro ⟨-, hNot⟩
        exact hNot (mem_of_getElem? hW)
      · exact (mem_changers hM).2 ⟨hV, hW, hNe⟩
    · refine ⟨?_, Or.inr ⟨?_, hP⟩⟩
      · rintro ⟨-, hNot⟩
        exact hNot (mem_of_getElem? hThere)
      · rintro ⟨v, w, hV, hW, hNe⟩
        rw [hP] at hV
        rw [hThere] at hW
        exact hNe ((Option.some.inj hV).symm.trans
          (Option.some.inj hW))

/- What is there then was there before. -/
theorem mem_of_getElem?_cleared
    (hP :
      (m.cleared target (leavers m target))[k]? = some p) :
    k ∈ m := by
  rcases (getElem?_cleared_leavers hM hTarget).1 hP with
    ⟨v, -, hV, -⟩ | ⟨hV, -⟩
  · exact mem_of_getElem? hV
  · exact mem_of_getElem? hV

/- Those that came stand beside those that stayed. -/
theorem getElem?_joined_comers :
    (joined supports m target (comers m target))[k]? = some p ↔
      (target[k]? = some p ∧ k ∉ m ∧ supports p = true) ∨
        (m.cleared target (leavers m target))[k]? = some p := by
  have hNodup :
      (((comers m target).filter supports).map
        Project.id).Nodup :=
    (nodup_comers hTarget).sublist (List.filter_sublist.map _)
  unfold joined
  rw [getElem?_entering hNodup]
  constructor
  · rintro (⟨q, hQ, rfl, rfl⟩ | ⟨-, hP⟩)
    · left
      rcases List.mem_filter.1 hQ with ⟨hComes, hSupported⟩
      rcases (mem_comers hTarget).1 hComes with ⟨hThere, hNew⟩
      exact ⟨hThere, hNew, hSupported⟩
    · exact Or.inr hP
  · rintro (⟨hThere, hNew, hSupported⟩ | hP)
    · left
      have hKey := hTarget k p hThere
      subst hKey
      exact ⟨p, List.mem_filter.2
        ⟨(mem_comers hTarget).2 ⟨hThere, hNew⟩, hSupported⟩,
        rfl, rfl⟩
    · refine Or.inr ⟨?_, hP⟩
      intro hComes
      rcases List.mem_map.1 hComes with ⟨q, hQ, rfl⟩
      have hNew :=
        ((mem_comers hTarget).1 (List.mem_of_mem_filter hQ)).2
      exact hNew (mem_of_getElem?_cleared hM hTarget hP)

/-
  Once those that changed are replaced, the projects are those
  that the target leaves.
-/
theorem renewed_changers :
    renewed supports m target (changers m target) =
      attained supports m target := by
  apply Std.ExtTreeMap.ext_getElem?
  intro k
  apply Option.ext
  intro p
  unfold attained
  rw [getElem?_renewed hTarget (List.Sublist.refl _),
    getElem?_joined_comers hM hTarget,
    getElem?_cleared_leavers hM hTarget,
    mem_map_key_changers hM hTarget,
    Std.ExtTreeMap.getElem?_filter',
    Option.filter_eq_some_iff, Bool.or_eq_true,
    Std.ExtTreeMap.contains_iff_mem]
  constructor
  · rintro (⟨⟨v, w⟩, hPair, rfl, rfl⟩ | ⟨hSame, hJoined⟩)
    · rcases (mem_changers hM).1 hPair with ⟨hV, hW, -⟩
      dsimp only
      rw [key_eq_of_mem_changers hM hTarget hPair]
      exact ⟨hW, Or.inl (mem_of_getElem? hV)⟩
    · rcases hJoined with
        ⟨hThere, -, hSupported⟩ | ⟨v, w, hV, hW, hNe, -⟩ |
          ⟨hP, hThere⟩
      · exact ⟨hThere, Or.inr hSupported⟩
      · exact absurd ⟨v, w, hV, hW, hNe⟩ hSame
      · exact ⟨hThere, Or.inl (mem_of_getElem? hP)⟩
  · rintro ⟨hThere, hReason⟩
    by_cases hHere : k ∈ m
    · rcases mem_iff_exists_getElem?.1 hHere with ⟨v, hV⟩
      by_cases hSame : v = p
      · subst hSame
        refine Or.inr ⟨?_, Or.inr (Or.inr ⟨hV, hThere⟩)⟩
        rintro ⟨x, y, hX, hY, hNe⟩
        rw [hV] at hX
        rw [hThere] at hY
        exact hNe ((Option.some.inj hX).symm.trans
          (Option.some.inj hY))
      · left
        have hKey := hM k v hV
        subst hKey
        exact ⟨(v, p), (mem_changers hM).2
          ⟨hV, hThere, hSame⟩, hTarget _ p hThere, rfl⟩
    · right
      refine ⟨?_, Or.inl ⟨hThere, hHere, ?_⟩⟩
      · rintro ⟨v, -, hV, -⟩
        exact hHere (mem_of_getElem? hV)
      · exact hReason.resolve_left hHere

------------------------------------------------------------
-- What is yet to be done
------------------------------------------------------------

section Later

variable {v w : Project}

omit hM in
/- A pair that comes after others is a change, and new. -/
theorem changers_of_later
    {done rest : List (Project × Project)}
    (hSplit : changers m target = done ++ (v, w) :: rest) :
    done.Sublist (changers m target) ∧
      (v, w) ∈ changers m target ∧
        w.id ∉ done.map (fun pair => pair.2.id) :=
  ⟨sublist_of_later hSplit, mem_of_later hSplit,
    notMem_map_of_later (nodup_changers hTarget) hSplit⟩

/- A project that is yet to give up its references has them. -/
theorem getElem?_freed_of_later
    {done rest : List (Project × Project)}
    (hSplit : changers m target = done ++ (v, w) :: rest) :
    (m.freed done)[w.id]? = some v := by
  rcases changers_of_later hTarget hSplit with
    ⟨hDone, hPair, hLater⟩
  rw [getElem?_freed hTarget hDone]
  refine Or.inr ⟨hLater, ?_⟩
  rw [key_eq_of_mem_changers hM hTarget hPair]
  exact ((mem_changers hM).1 hPair).1

/- A project that is yet to be replaced stands as it was left. -/
theorem getElem?_renewed_of_later
    {done rest : List (Project × Project)}
    (hSplit : changers m target = done ++ (v, w) :: rest) :
    (renewed supports m target done)[v.id]? =
      some v.stripped := by
  rcases changers_of_later hTarget hSplit with
    ⟨hDone, hPair, hLater⟩
  rw [key_eq_of_mem_changers hM hTarget hPair] at hLater
  rw [getElem?_renewed hTarget hDone,
    getElem?_joined_comers hM hTarget,
    getElem?_cleared_leavers hM hTarget]
  rcases (mem_changers hM).1 hPair with ⟨hV, hW, hNe⟩
  exact Or.inr
    ⟨hLater, Or.inr (Or.inl ⟨v, w, hV, hW, hNe, rfl⟩)⟩

/- A project that is yet to go is there. -/
theorem mem_cleared_of_later
    {done rest : List ProjectId}
    {id : ProjectId}
    (hSplit : leavers m target = done ++ id :: rest) :
    id ∈ m.cleared target done := by
  have hGoes : id ∈ leavers m target := mem_of_later hSplit
  rcases mem_leavers.1 hGoes with ⟨hHere, hNot⟩
  rcases mem_iff_exists_getElem?.1 hHere with ⟨p, hP⟩
  have hLater : id ∉ done :=
    notMem_of_later nodup_leavers hSplit
  have hStands :
      (m.cleared target done)[id]? = some p := by
    rw [getElem?_cleared,
      getElem?_freed hTarget (List.Sublist.refl _),
      mem_map_key_changers hM hTarget]
    refine ⟨hLater, Or.inr ⟨?_, hP⟩⟩
    rintro ⟨-, w, -, hW, -⟩
    exact hNot (mem_of_getElem? hW)
  exact mem_of_getElem? hStands

/- A project that is yet to come is not there. -/
theorem notMem_joined_of_later
    {done rest : List Project}
    {q : Project}
    (hSplit : comers m target = done ++ q :: rest) :
    q.id ∉ joined supports m target done := by
  have hComes : q ∈ comers m target := mem_of_later hSplit
  have hLater :=
    notMem_map_of_later (nodup_comers hTarget) hSplit
  unfold joined
  rw [mem_entering]
  rintro (hDone | hOld)
  · rcases List.mem_map.1 hDone with ⟨p, hP, hSame⟩
    exact hLater (List.mem_map.2
      ⟨p, List.mem_of_mem_filter hP, hSame⟩)
  · rcases mem_iff_exists_getElem?.1 hOld with ⟨p, hP⟩
    exact ((mem_comers hTarget).1 hComes).2
      (mem_of_getElem?_cleared hM hTarget hP)

end Later

------------------------------------------------------------
-- No cycle comes about
------------------------------------------------------------

theorem settles_cleared :
    Settles (m.cleared target (leavers m target)) target := by
  intro k p hP
  rcases (getElem?_cleared_leavers hM hTarget).1 hP with
    ⟨v, -, -, -, -, rfl⟩ | ⟨-, hThere⟩
  · exact Or.inl rfl
  · exact Or.inr ⟨p, hThere, rfl⟩

theorem settles_joined
    {done : List Project}
    (hDone : ∀ q ∈ done, q ∈ comers m target) :
    Settles (joined supports m target done) target := by
  apply (settles_cleared hM hTarget).entering
  intro q hQ
  exact ((mem_comers hTarget).1
    (hDone q (List.mem_of_mem_filter hQ))).1

theorem settles_renewed
    {done : List (Project × Project)}
    (hDone : ∀ pair ∈ done, pair ∈ changers m target) :
    Settles (renewed supports m target done) target := by
  apply (settles_joined hM hTarget (fun _ h => h)).entering
  rintro ⟨v, w⟩ hPair
  have hChanges := hDone _ hPair
  dsimp only
  rw [key_eq_of_mem_changers hM hTarget hChanges]
  exact ((mem_changers hM).1 hChanges).2.1

end ProjectMap

end SnapTree
