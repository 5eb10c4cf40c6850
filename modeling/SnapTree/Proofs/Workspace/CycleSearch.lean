import SnapTree.Workspace.ReferenceGraph
import SnapTree.Proofs.Data.Keyed
import Mathlib.Logic.Relation
import Mathlib.Algebra.Order.BigOperators.Group.List
import Mathlib.Algebra.Order.Group.Nat
import Mathlib.Tactic.Ring

/-
  This file proves that the search for a cycle of references
  finds one exactly if there is one, and that the project it
  names lies on a cycle.

  The forward search keeps, for every project that it has met
  and is not done with, the part of the stack above it: all of
  that part can be reached from the project.  A project that
  is done before one of its targets is therefore reached from
  that target.

  Key definitions include:
    * `ReferenceGraph.Refers`
    * `ReferenceGraph.Acyclic`
    * `ReferenceGraph.Reaches`
    * `ReferenceGraph.Searched`

  Key theorems include:
    * `ReferenceGraph.visit_spec`
    * `ReferenceGraph.findCycle_error`
    * `ReferenceGraph.findCycle_ok`
    * `ReferenceGraph.checkAcyclic_eq_ok_iff`
-/

namespace SnapTree

namespace ReferenceGraph

------------------------------------------------------------
-- References and cycles
------------------------------------------------------------

/- One project refers to another, and both are present. -/
def Refers
    (projects : ProjectMap)
    (a b : ProjectId) : Prop :=
  ∃ p, projects[a]? = some p ∧ b ∈ presentTargets projects p

/- No project reaches itself by references. -/
def Acyclic
    (projects : ProjectMap) : Prop :=
  ∀ a, ¬Relation.TransGen (Refers projects) a a

/- One project reaches another along the edges of a graph. -/
def Reaches
    (g : ReferenceGraph) : ProjectId → ProjectId → Prop :=
  Relation.TransGen (fun a b => (a, b) ∈ g.edges)

@[simp]
theorem mem_targets
    (g : ReferenceGraph)
    (a b : ProjectId) :
    b ∈ g.targets a ↔ (a, b) ∈ g.edges := by
  simp only [targets, List.mem_map, List.mem_filter,
    decide_eq_true_eq]
  constructor
  · rintro ⟨edge, ⟨hEdge, rfl⟩, rfl⟩
    exact hEdge
  · exact fun hEdge => ⟨(a, b), ⟨hEdge, rfl⟩, rfl⟩

@[simp]
theorem mem_origins
    (g : ReferenceGraph)
    (a b : ProjectId) :
    a ∈ g.origins b ↔ (a, b) ∈ g.edges := by
  simp only [origins, List.mem_map, List.mem_filter,
    decide_eq_true_eq]
  constructor
  · rintro ⟨edge, ⟨hEdge, rfl⟩, rfl⟩
    exact hEdge
  · exact fun hEdge => ⟨(a, b), ⟨hEdge, rfl⟩, rfl⟩

theorem Reaches.edge
    {g : ReferenceGraph}
    {a b : ProjectId}
    (hEdge : (a, b) ∈ g.edges) :
    g.Reaches a b :=
  Relation.TransGen.single hEdge

/- The references of a graph are those between its projects. -/
structure IsClosed
    (g : ReferenceGraph) : Prop where
  nodup : g.nodes.Nodup
  origin_mem : ∀ a b, (a, b) ∈ g.edges → a ∈ g.nodes
  target_mem : ∀ a b, (a, b) ∈ g.edges → b ∈ g.nodes

------------------------------------------------------------
-- What the forward search keeps
------------------------------------------------------------

/-
  The state of a forward search.  A project met but not done
  with is `inner`: it stands on the stack, what stands above
  it is reached from it, and its targets are met or stand
  there.  A project done with is `settled`: each of its
  targets was done with before, or reaches it.
-/
structure Searched
    (g : ReferenceGraph)
    (stack : List ProjectId)
    (m : Marks) : Prop where
  seen_of_finished : ∀ n ∈ m.finished, n ∈ m.seen
  nodup : m.finished.Nodup
  loopless : ∀ n ∈ m.seen, (n, n) ∉ g.edges
  inner :
    ∀ n ∈ m.seen, n ∉ m.finished →
      ∃ above below, stack = above ++ n :: below ∧
        n ∉ above ∧ (∀ x ∈ above, g.Reaches n x) ∧
          ∀ t, (n, t) ∈ g.edges → t ∈ m.seen ∨ t ∈ above
  settled :
    ∀ newer n older, m.finished = newer ++ n :: older →
      ∀ t, (n, t) ∈ g.edges → t ∈ older ∨ g.Reaches t n

namespace Searched

variable {g : ReferenceGraph}

theorem nil : Searched g [] ⟨[], []⟩ where
  seen_of_finished := by simp
  nodup := List.nodup_nil
  loopless := by simp
  inner := by simp
  settled := by simp

/- When the stack is empty, everything met is done with. -/
theorem finished_of_seen
    {m : Marks}
    (hSearched : Searched g [] m)
    {n : ProjectId}
    (hSeen : n ∈ m.seen) :
    n ∈ m.finished := by
  by_contra hInner
  rcases hSearched.inner n hSeen hInner with
    ⟨above, below, hStack, -⟩
  simp at hStack

/- A finished search can go on from a project not yet met. -/
theorem push
    {m : Marks}
    (hSearched : Searched g [] m)
    (n : ProjectId) :
    Searched g [n] m where
  seen_of_finished := hSearched.seen_of_finished
  nodup := hSearched.nodup
  loopless := hSearched.loopless
  inner _ hSeen hInner :=
    absurd (hSearched.finished_of_seen hSeen) hInner
  settled := hSearched.settled

/- What stands above another project loses the top. -/
theorem inner_of_cons
    {m : Marks}
    {n : ProjectId}
    {stack : List ProjectId}
    (hSearched : Searched g (n :: stack) m)
    {x : ProjectId}
    (hSeen : x ∈ m.seen)
    (hInner : x ∉ m.finished)
    (hNe : x ≠ n) :
    ∃ above below, stack = above ++ x :: below ∧
      x ∉ above ∧ g.Reaches x n ∧
        (∀ y ∈ above, g.Reaches x y) ∧
          ∀ t, (x, t) ∈ g.edges →
            t ∈ m.seen ∨ t = n ∨ t ∈ above := by
  rcases hSearched.inner x hSeen hInner with
    ⟨above, below, hStack, hAbove, hReached, hTargets⟩
  cases above with
  | nil => exact absurd (List.cons.inj hStack).1.symm hNe
  | cons y above =>
      rcases List.cons.inj hStack with ⟨rfl, hRest⟩
      refine ⟨above, below, hRest, ?_, ?_, ?_, ?_⟩
      · exact fun hMem => hAbove (List.mem_cons_of_mem _ hMem)
      · exact hReached n List.mem_cons_self
      · exact fun y hMem =>
          hReached y (List.mem_cons_of_mem _ hMem)
      · intro t hEdge
        simpa only [List.mem_cons] using hTargets t hEdge

/- A project that is on top again is done with. -/
theorem finish
    {m : Marks}
    {n : ProjectId}
    {stack : List ProjectId}
    (hSearched : Searched g (n :: stack) m)
    (hSeen : n ∈ m.seen) :
    Searched g stack
      { m with
        finished :=
          if n ∈ m.finished then m.finished
          else n :: m.finished } := by
  have hInner :
      ∀ x ∈ m.seen, x ∉ m.finished → x ≠ n →
        ∃ above below, stack = above ++ x :: below ∧
          x ∉ above ∧ (∀ y ∈ above, g.Reaches x y) ∧
            ∀ t, (x, t) ∈ g.edges →
              t ∈ m.seen ∨ t ∈ above := by
    intro x hX hOpen hNe
    rcases hSearched.inner_of_cons hX hOpen hNe with
      ⟨above, below, hStack, hAbove, -, hReached, hTargets⟩
    refine ⟨above, below, hStack, hAbove, hReached, ?_⟩
    intro t hEdge
    rcases hTargets t hEdge with hT | rfl | hT
    · exact Or.inl hT
    · exact Or.inl hSeen
    · exact Or.inr hT
  by_cases hDone : n ∈ m.finished
  · simp only [if_pos hDone]
    exact
      { seen_of_finished := hSearched.seen_of_finished
        nodup := hSearched.nodup
        loopless := hSearched.loopless
        inner := fun x hX hOpen =>
          hInner x hX hOpen (fun hEq => hOpen (hEq ▸ hDone))
        settled := hSearched.settled }
  · simp only [if_neg hDone]
    refine
      { seen_of_finished := ?_
        nodup := List.nodup_cons.2 ⟨hDone, hSearched.nodup⟩
        loopless := hSearched.loopless
        inner := ?_
        settled := ?_ }
    · intro x hX
      rcases List.mem_cons.1 hX with rfl | hX
      · exact hSeen
      · exact hSearched.seen_of_finished x hX
    · intro x hX hOpen
      rw [List.mem_cons, not_or] at hOpen
      exact hInner x hX hOpen.2 hOpen.1
    · intro newer x older hSplit t hEdge
      cases newer with
      | cons y newer =>
          exact hSearched.settled newer x older
            (List.cons.inj hSplit).2 t hEdge
      | nil =>
          rcases List.cons.inj hSplit with ⟨rfl, rfl⟩
          have hNe : t ≠ n := by
            rintro rfl
            exact hSearched.loopless t hSeen hEdge
          -- The top has nothing above it, so its targets are met.
          have hMet : t ∈ m.seen := by
            rcases hSearched.inner n hSeen hDone with
              ⟨above, below, hStack, hAbove, -, hTargets⟩
            cases above with
            | nil => simpa using hTargets t hEdge
            | cons y above =>
                have hTop := (List.cons.inj hStack).1
                simp [hTop] at hAbove
          by_cases hFinished : t ∈ m.finished
          · exact Or.inl hFinished
          · rcases hSearched.inner_of_cons hMet hFinished hNe with
              ⟨_, _, _, _, hReached, _⟩
            exact Or.inr hReached

/- A project met for the first time is put below its targets. -/
theorem discover
    {m : Marks}
    {n : ProjectId}
    {stack : List ProjectId}
    (hSearched : Searched g (n :: stack) m)
    (hNew : n ∉ m.seen)
    (hLoopless : (n, n) ∉ g.edges) :
    Searched g
      (((g.targets n).filter
        (fun s => s ∉ n :: m.seen)).reverse ++ n :: stack)
      { m with seen := n :: m.seen } := by
  generalize hPushedEq :
    ((g.targets n).filter
      (fun s => s ∉ n :: m.seen)).reverse = pushed
  have hPushed :
      ∀ x, x ∈ pushed ↔
        (n, x) ∈ g.edges ∧ x ∉ n :: m.seen := by
    intro x
    rw [← hPushedEq, List.mem_reverse, List.mem_filter, mem_targets,
      decide_eq_true_eq]
  refine
    { seen_of_finished := fun x hX =>
        List.mem_cons_of_mem _
          (hSearched.seen_of_finished x hX)
      nodup := hSearched.nodup
      loopless := ?_
      inner := ?_
      settled := hSearched.settled }
  · intro x hX
    rcases List.mem_cons.1 hX with rfl | hX
    · exact hLoopless
    · exact hSearched.loopless x hX
  · intro x hX hOpen
    rcases List.mem_cons.1 hX with rfl | hX
    · refine ⟨pushed, stack, rfl, ?_, ?_, ?_⟩
      · exact fun hMem =>
          ((hPushed x).1 hMem).2 List.mem_cons_self
      · exact fun y hMem => .edge ((hPushed y).1 hMem).1
      · intro t hEdge
        by_cases hMet : t ∈ x :: m.seen
        · exact Or.inl hMet
        · exact Or.inr ((hPushed t).2 ⟨hEdge, hMet⟩)
    · have hNe : x ≠ n := fun hEq => hNew (hEq ▸ hX)
      rcases hSearched.inner_of_cons hX hOpen hNe with
        ⟨above, below, hStack, hAbove, hTop, hReached, hTargets⟩
      refine ⟨pushed ++ n :: above, below, ?_, ?_, ?_, ?_⟩
      · rw [hStack, List.append_assoc, List.cons_append]
      · rw [List.mem_append, List.mem_cons]
        rintro (hMem | hMem | hMem)
        · exact ((hPushed x).1 hMem).2
            (List.mem_cons_of_mem _ hX)
        · exact hNe hMem
        · exact hAbove hMem
      · intro y hMem
        rcases List.mem_append.1 hMem with hMem | hMem
        · exact hTop.tail ((hPushed y).1 hMem).1
        · rcases List.mem_cons.1 hMem with rfl | hMem
          · exact hTop
          · exact hReached y hMem
      · intro t hEdge
        rcases hTargets t hEdge with hT | rfl | hT
        · exact Or.inl (List.mem_cons_of_mem _ hT)
        · exact Or.inl List.mem_cons_self
        · exact Or.inr (List.mem_append_right _
            (List.mem_cons_of_mem _ hT))

end Searched

------------------------------------------------------------
-- Enough steps
------------------------------------------------------------

/-
  The steps that a search may still take: one for everything
  on the stack, and for every project not yet met one and one
  for each of its targets.
-/
def remaining
    (g : ReferenceGraph)
    (stack seen : List ProjectId) : Nat :=
  stack.length +
    ((g.nodes.removeAll seen).map
      (fun n => 1 + (g.targets n).length)).sum

theorem remaining_eq
    (g : ReferenceGraph)
    (stack seen : List ProjectId) :
    g.remaining stack seen =
      stack.length +
        ((g.nodes.filter (fun n => n ∉ seen)).map
          (fun n => 1 + (g.targets n).length)).sum := by
  simp [remaining, List.removeAll]

/- Meeting a project spares its share of the steps. -/
theorem sum_unseen_cons_le
    (cost : ProjectId → Nat)
    (nodes seen : List ProjectId)
    (n : ProjectId) :
    ((nodes.filter (fun x => x ∉ n :: seen)).map cost).sum ≤
      ((nodes.filter (fun x => x ∉ seen)).map cost).sum := by
  induction nodes with
  | nil => simp
  | cons x nodes ih =>
      by_cases hSeen : x ∈ seen
      · simpa [List.filter_cons, hSeen] using ih
      · by_cases hEq : x = n
        · simp only [List.filter_cons, hEq, hEq ▸ hSeen,
            List.mem_cons_self, not_true_eq_false,
            decide_false, not_false_eq_true, decide_true,
            Bool.false_eq_true, if_false, if_true,
            List.map_cons, List.sum_cons]
          omega
        · simp only [List.filter_cons, List.mem_cons, hEq,
            hSeen, or_self, not_false_eq_true, decide_true,
            if_true, List.map_cons, List.sum_cons] at ih ⊢
          omega

theorem sum_unseen_cons_add_le
    (cost : ProjectId → Nat)
    {nodes seen : List ProjectId}
    {n : ProjectId}
    (hMem : n ∈ nodes)
    (hNew : n ∉ seen) :
    ((nodes.filter (fun x => x ∉ n :: seen)).map cost).sum +
        cost n ≤
      ((nodes.filter (fun x => x ∉ seen)).map cost).sum := by
  induction nodes with
  | nil => simp at hMem
  | cons x nodes ih =>
      by_cases hEq : x = n
      · subst hEq
        have hRest :=
          sum_unseen_cons_le cost nodes seen x
        simp only [List.filter_cons, hNew,
          List.mem_cons_self, not_true_eq_false,
          decide_false, not_false_eq_true, decide_true,
          Bool.false_eq_true, if_false, if_true,
          List.map_cons, List.sum_cons]
        omega
      · have hRest := ih (by
          rcases List.mem_cons.1 hMem with hHead | hTail
          · exact absurd hHead.symm hEq
          · exact hTail)
        by_cases hSeen : x ∈ seen
        · simpa [List.filter_cons, hSeen] using hRest
        · simp only [List.filter_cons, List.mem_cons, hEq,
            hSeen, or_self, not_false_eq_true, decide_true,
            if_true, List.map_cons, List.sum_cons]
            at hRest ⊢
          omega

theorem remaining_discover
    {g : ReferenceGraph}
    {n : ProjectId}
    (stack : List ProjectId)
    {seen : List ProjectId}
    (hMem : n ∈ g.nodes)
    (hNew : n ∉ seen) :
    g.remaining
        (((g.targets n).filter
          (fun s => s ∉ n :: seen)).reverse ++ n :: stack)
        (n :: seen) <
      g.remaining (n :: stack) seen := by
  have hShare := sum_unseen_cons_add_le
    (fun n => 1 + (g.targets n).length) hMem hNew
  have hPushed :
      ((g.targets n).filter
        (fun s => s ∉ n :: seen)).length ≤
          (g.targets n).length :=
    List.length_filter_le _ _
  simp only [remaining_eq, List.length_append,
    List.length_reverse, List.length_cons] at hShare ⊢
  omega

/- A project is counted by looking for it everywhere. -/
theorem sum_indicator
    (a : ProjectId)
    (nodes : List ProjectId) :
    (nodes.map (fun n => if a = n then 1 else 0)).sum =
      nodes.count a := by
  induction nodes with
  | nil => rfl
  | cons x nodes ih =>
      rw [List.map_cons, List.sum_cons, ih, List.count_cons]
      by_cases hEq : a = x
      · simp [hEq, Nat.add_comm]
      · simp [hEq, Ne.symm hEq]

/- Every reference starts at no more than one listed project. -/
theorem sum_targets_le
    (edges : List (ProjectId × ProjectId))
    {nodes : List ProjectId}
    (hNodup : nodes.Nodup) :
    (nodes.map (fun n =>
      (edges.filter (fun e => e.1 = n)).length)).sum ≤
        edges.length := by
  induction edges with
  | nil => simp
  | cons e edges ih =>
      have hOne := List.nodup_iff_count_le_one.1 hNodup e.1
      rw [← sum_indicator] at hOne
      have hSplit :
          (nodes.map (fun n =>
            ((e :: edges).filter (fun e => e.1 = n)).length)) =
          nodes.map (fun n =>
            (if e.1 = n then 1 else 0) +
              (edges.filter (fun e => e.1 = n)).length) := by
        apply List.map_congr_left
        intro n _
        by_cases hEq : e.1 = n
        · simp [hEq, Nat.add_comm]
        · simp [hEq]
      rw [hSplit, List.sum_map_add, List.length_cons]
      omega

/- The budget of a search is enough from any single project. -/
theorem remaining_le_budget
    {g : ReferenceGraph}
    (hNodup : g.nodes.Nodup)
    (n : ProjectId)
    (seen : List ProjectId) :
    g.remaining [n] seen ≤ g.budget := by
  have hTargets := sum_targets_le g.edges hNodup
  have hSub :
      ((g.nodes.filter (fun n => n ∉ seen)).map
        (fun n => 1 + (g.targets n).length)).sum ≤
          (g.nodes.map
            (fun n => 1 + (g.targets n).length)).sum :=
    (List.filter_sublist.map _).sum_le_sum
      (fun _ _ => Nat.zero_le _)
  have hSplit :
      (g.nodes.map
        (fun n => 1 + (g.targets n).length)).sum =
        g.nodes.length +
          (g.nodes.map (fun n =>
            (g.edges.filter
              (fun e => e.1 = n)).length)).sum := by
    rw [List.sum_map_add]
    simp [targets]
  simp only [remaining_eq, budget, List.length_cons,
    List.length_nil]
  omega

------------------------------------------------------------
-- The forward search
------------------------------------------------------------

/-
  What a search from some projects ends with: it is done with
  all of them, or names a project that refers to itself.
-/
def Completes
    (g : ReferenceGraph)
    (m : Marks)
    (nodes : List ProjectId) : Except ProjectId Marks → Prop
  | .ok m' =>
      Searched g [] m' ∧ (∀ n ∈ m.seen, n ∈ m'.seen) ∧
        ∀ n ∈ nodes, n ∈ m'.seen
  | .error n => (n, n) ∈ g.edges

/- A project already met can be put in front. -/
theorem Completes.cons_seen
    {g : ReferenceGraph}
    {m m' : Marks}
    {n : ProjectId}
    {nodes : List ProjectId}
    {result : Except ProjectId Marks}
    (hGrown : ∀ x ∈ m.seen, x ∈ m'.seen)
    (hSeen : n ∈ m'.seen)
    (hRest : g.Completes m' nodes result) :
    g.Completes m (n :: nodes) result := by
  cases result with
  | error o => exact hRest
  | ok m'' =>
      rcases hRest with ⟨hDone, hMore, hNodes⟩
      refine ⟨hDone, fun x hX => hMore x (hGrown x hX),
        fun x hX => ?_⟩
      rcases List.mem_cons.1 hX with rfl | hX
      · exact hMore x hSeen
      · exact hNodes x hX

/- A search with enough steps completes its stack. -/
theorem visit_spec
    {g : ReferenceGraph}
    (hClosed : g.IsClosed)
    (fuel : Nat)
    (stack : List ProjectId)
    (m : Marks)
    (hSearched : Searched g stack m)
    (hListed : ∀ n ∈ stack, n ∈ g.nodes)
    (hFuel : g.remaining stack m.seen ≤ fuel) :
    g.Completes m stack (g.visit fuel stack m) := by
  fun_induction g.visit fuel stack m with
  | case1 stack m =>
      have hEmpty : stack = [] := by
        simp only [remaining_eq] at hFuel
        exact List.length_eq_zero_iff.1 (by omega)
      subst hEmpty
      exact ⟨hSearched, fun _ h => h, by simp⟩
  | case2 fuel m => exact ⟨hSearched, fun _ h => h, by simp⟩
  | case3 fuel n stack m hSeen ih =>
      have hLess : g.remaining stack m.seen ≤ fuel := by
        simp only [remaining_eq, List.length_cons] at hFuel ⊢
        omega
      exact (ih (hSearched.finish hSeen)
        (fun x hX => hListed x (List.mem_cons_of_mem _ hX))
        hLess).cons_seen (fun _ h => h) hSeen
  | case4 fuel n stack m hNew hLoop =>
      exact (mem_targets g n n).1 hLoop
  | case5 fuel n stack m hNew hLoop ih =>
      rw [mem_targets] at hLoop
      have hMem := hListed n List.mem_cons_self
      have hLess := remaining_discover stack hMem hNew
      have hRest := ih (hSearched.discover hNew hLoop)
        (by
          intro x hX
          rcases List.mem_append.1 hX with hX | hX
          · rw [List.mem_reverse, List.mem_filter,
              mem_targets] at hX
            exact hClosed.target_mem n x hX.1
          · exact hListed x hX)
        (show g.remaining _ (n :: m.seen) ≤ fuel by omega)
      revert hRest
      generalize g.visit fuel _ _ = result
      intro hRest
      cases result with
      | error o => exact hRest
      | ok m' =>
          rcases hRest with ⟨hDone, hGrown, hStack⟩
          exact ⟨hDone, fun x hX =>
            hGrown x (List.mem_cons_of_mem _ hX), fun x hX =>
              hStack x (List.mem_append_right _ hX)⟩

/- Searching from a list of projects completes the list. -/
theorem foldlM_visit_spec
    {g : ReferenceGraph}
    (hClosed : g.IsClosed)
    (nodes : List ProjectId)
    (m : Marks)
    (hListed : ∀ n ∈ nodes, n ∈ g.nodes)
    (hSearched : Searched g [] m) :
    g.Completes m nodes
      (nodes.foldlM
        (fun (m : Marks) n =>
          if n ∈ m.seen then .ok m
          else g.visit g.budget [n] m) m) := by
  induction nodes generalizing m with
  | nil => exact ⟨hSearched, fun _ h => h, by simp⟩
  | cons n nodes ih =>
      have hTail : ∀ x ∈ nodes, x ∈ g.nodes :=
        fun x hX => hListed x (List.mem_cons_of_mem _ hX)
      rw [List.foldlM_cons]
      by_cases hSeen : n ∈ m.seen
      · rw [if_pos hSeen]
        exact (ih m hTail hSearched).cons_seen
          (fun _ h => h) hSeen
      · rw [if_neg hSeen]
        have hVisit := visit_spec hClosed g.budget [n] m
          (hSearched.push n)
          (fun x hX => List.mem_singleton.1 hX ▸
            hListed n List.mem_cons_self)
          (remaining_le_budget hClosed.nodup n m.seen)
        revert hVisit
        generalize g.visit g.budget [n] m = result
        intro hVisit
        cases result with
        | error o => exact hVisit
        | ok m' =>
            rcases hVisit with ⟨hDone, hGrown, hStack⟩
            exact (ih m' hTail hDone).cons_seen hGrown
              (hStack n List.mem_cons_self)

/- The forward search is done with every project of a graph. -/
theorem forward_spec
    {g : ReferenceGraph}
    (hClosed : g.IsClosed) :
    match g.forward with
    | .ok m =>
        Searched g [] m ∧ ∀ n ∈ g.nodes, n ∈ m.finished
    | .error n => g.Reaches n n := by
  have hFold : g.Completes ⟨[], []⟩ g.nodes g.forward :=
    foldlM_visit_spec hClosed g.nodes ⟨[], []⟩
      (fun _ h => h) .nil
  cases hRun : g.forward with
  | ok m =>
      rw [hRun] at hFold
      exact ⟨hFold.1, fun n hN =>
        hFold.1.finished_of_seen (hFold.2.2 n hN)⟩
  | error n =>
      rw [hRun] at hFold
      exact .edge hFold

------------------------------------------------------------
-- The backward search
------------------------------------------------------------

/- A project that refers to one done with later is on a cycle. -/
theorem Searched.reaches_of_later
    {g : ReferenceGraph}
    {m : Marks}
    (hSearched : Searched g [] m)
    {done todo : List ProjectId}
    {n o : ProjectId}
    (hSplit : m.finished = done ++ n :: todo)
    (hLater : o ∈ todo)
    (hEdge : (o, n) ∈ g.edges) :
    g.Reaches o o := by
  rcases List.append_of_mem hLater with ⟨between, older, rfl⟩
  have hWhere :
      m.finished = (done ++ n :: between) ++ o :: older := by
    simp [hSplit]
  rcases hSearched.settled _ o older hWhere n hEdge with
    hOlder | hReached
  · have hNodup := hSearched.nodup
    rw [hWhere] at hNodup
    have hApart := (List.nodup_append.1 hNodup).2.2
    exact absurd rfl
      (hApart n (by simp) n (List.mem_cons_of_mem _ hOlder))
  · exact Relation.TransGen.head hEdge hReached

/- A project met out of turn lies on a cycle. -/
theorem backward_error
    {g : ReferenceGraph}
    (hClosed : g.IsClosed)
    {m : Marks}
    (hSearched : Searched g [] m)
    (hAll : ∀ n ∈ g.nodes, n ∈ m.finished)
    (todo seen done : List ProjectId)
    (hSplit : m.finished = done ++ todo)
    (hSeen : ∀ n ∈ done, n ∈ seen)
    {o : ProjectId}
    (hError : g.backward todo seen = .error o) :
    g.Reaches o o := by
  induction todo generalizing seen done with
  | nil => simp [backward] at hError
  | cons n todo ih =>
      have hSplit' : m.finished = (done ++ [n]) ++ todo := by
        simp [hSplit]
      rw [backward] at hError
      split at hError
      · next hMet =>
          refine ih seen (done ++ [n]) hSplit' ?_ hError
          intro x hX
          rcases List.mem_append.1 hX with hX | hX
          · exact hSeen x hX
          · exact List.mem_singleton.1 hX ▸ hMet
      · split at hError
        · next o' hLast =>
            rcases Except.error.inj hError with rfl
            have hOrigin := List.mem_of_getLast? hLast
            rw [List.mem_filter, mem_origins,
              decide_eq_true_eq, List.mem_cons, not_or]
              at hOrigin
            rcases hOrigin with ⟨hEdge, hNe, hUnmet⟩
            have hMem :=
              hAll o' (hClosed.origin_mem o' n hEdge)
            rw [hSplit, List.mem_append, List.mem_cons]
              at hMem
            rcases hMem with hMem | hMem | hMem
            · exact absurd (hSeen o' hMem) hUnmet
            · exact absurd hMem hNe
            · exact hSearched.reaches_of_later hSplit hMem hEdge
        · refine ih (n :: seen) (done ++ [n]) hSplit' ?_ hError
          intro x hX
          rcases List.mem_append.1 hX with hX | hX
          · exact List.mem_cons_of_mem _ (hSeen x hX)
          · exact List.mem_singleton.1 hX ▸ List.mem_cons_self

/- Whoever reaches a project of a list closed under origins is in it. -/
theorem mem_of_reaches
    {g : ReferenceGraph}
    {seen : List ProjectId}
    (hBefore : ∀ n ∈ seen, ∀ o, (o, n) ∈ g.edges → o ∈ seen)
    {a b : ProjectId}
    (hReached : g.Reaches a b)
    (hB : b ∈ seen) :
    a ∈ seen := by
  induction hReached using
    Relation.TransGen.head_induction_on with
  | single hEdge => exact hBefore _ hB _ hEdge
  | head hEdge _ ih => exact hBefore _ ih _ hEdge

/- A project is on no cycle if all origins came before it. -/
theorem not_reaches_of_origins
    {g : ReferenceGraph}
    (hLoopless : ∀ n, (n, n) ∉ g.edges)
    {seen : List ProjectId}
    (hBefore : ∀ n ∈ seen, ∀ o, (o, n) ∈ g.edges → o ∈ seen)
    {n : ProjectId}
    (hOrigins : ∀ o, (o, n) ∈ g.edges → o ∈ seen)
    (hNew : n ∉ seen) :
    ¬g.Reaches n n := by
  intro hCycle
  rcases Relation.TransGen.tail'_iff.1 hCycle with
    ⟨o, hPath, hEdge⟩
  rcases Relation.reflTransGen_iff_eq_or_transGen.1 hPath with
    rfl | hPath
  · exact hLoopless _ hEdge
  · exact hNew (mem_of_reaches hBefore hPath (hOrigins o hEdge))

/-
  A list in which every project comes after those that refer
  to it has no cycle through its members.
-/
theorem backward_ok
    {g : ReferenceGraph}
    (hLoopless : ∀ n, (n, n) ∉ g.edges)
    (todo seen : List ProjectId)
    (hBefore : ∀ n ∈ seen, ∀ o, (o, n) ∈ g.edges → o ∈ seen)
    (hAcyclic : ∀ n ∈ seen, ¬g.Reaches n n)
    (hOk : g.backward todo seen = .ok ()) :
    ∀ n ∈ todo, ¬g.Reaches n n := by
  induction todo generalizing seen with
  | nil => simp
  | cons n todo ih =>
      rw [backward] at hOk
      split at hOk
      · next hMet =>
          intro x hX
          rcases List.mem_cons.1 hX with rfl | hX
          · exact hAcyclic x hMet
          · exact ih seen hBefore hAcyclic hOk x hX
      · next hNew =>
          split at hOk
          · simp at hOk
          · next hNone =>
              rw [List.getLast?_eq_none_iff,
                List.filter_eq_nil_iff] at hNone
              -- Whoever refers to the project had its turn.
              have hOrigins :
                  ∀ o, (o, n) ∈ g.edges → o ∈ seen := by
                intro o hEdge
                have hMet :=
                  hNone o ((mem_origins g o n).2 hEdge)
                simp only [decide_eq_true_eq, not_not,
                  List.mem_cons] at hMet
                rcases hMet with rfl | hMet
                · exact absurd hEdge (hLoopless o)
                · exact hMet
              have hNot : ¬g.Reaches n n :=
                not_reaches_of_origins hLoopless hBefore hOrigins
                  hNew
              have hRest := ih (n :: seen)
                (by
                  intro x hX o hEdge
                  rcases List.mem_cons.1 hX with rfl | hX
                  · exact List.mem_cons_of_mem _
                      (hOrigins o hEdge)
                  · exact List.mem_cons_of_mem _
                      (hBefore x hX o hEdge))
                (by
                  intro x hX
                  rcases List.mem_cons.1 hX with rfl | hX
                  · exact hNot
                  · exact hAcyclic x hX)
                hOk
              intro x hX
              rcases List.mem_cons.1 hX with rfl | hX
              · exact hNot
              · exact hRest x hX

------------------------------------------------------------
-- The whole search
------------------------------------------------------------

/- A project that the search names lies on a cycle. -/
theorem findCycle_error
    {g : ReferenceGraph}
    (hClosed : g.IsClosed)
    {n : ProjectId}
    (hError : g.findCycle = .error n) :
    g.Reaches n n := by
  have hForward := forward_spec hClosed
  rw [findCycle] at hError
  cases hRun : g.forward with
  | error o =>
      rw [hRun] at hForward hError
      exact Except.error.inj hError ▸ hForward
  | ok m =>
      rw [hRun] at hForward hError
      exact backward_error hClosed hForward.1 hForward.2
        m.finished [] [] rfl (by simp) hError

/- A search that ends well has seen that there is no cycle. -/
theorem findCycle_ok
    {g : ReferenceGraph}
    (hClosed : g.IsClosed)
    (hOk : g.findCycle = .ok ())
    (n : ProjectId) :
    ¬g.Reaches n n := by
  have hForward := forward_spec hClosed
  rw [findCycle] at hOk
  cases hRun : g.forward with
  | error o =>
      rw [hRun] at hOk
      exact nomatch hOk
  | ok m =>
      rw [hRun] at hForward hOk
      rcases hForward with ⟨hSearched, hAll⟩
      have hLoopless : ∀ x, (x, x) ∉ g.edges := by
        intro x hEdge
        have hDone := hAll x (hClosed.origin_mem x x hEdge)
        exact hSearched.loopless x
          (hSearched.seen_of_finished x hDone) hEdge
      intro hCycle
      have hMem : n ∈ g.nodes := by
        rcases Relation.TransGen.tail'_iff.1 hCycle with
          ⟨o, -, hEdge⟩
        exact hClosed.target_mem o n hEdge
      exact backward_ok hLoopless m.finished [] (by simp)
        (by simp) hOk n (hAll n hMem) hCycle

------------------------------------------------------------
-- The graph of a map of projects
------------------------------------------------------------

variable {projects : ProjectMap}

theorem mem_presentTargets
    {p : Project}
    {b : ProjectId}
    (hMem : b ∈ presentTargets projects p) :
    b ∈ projects := by
  rw [presentTargets, List.mem_filter] at hMem
  exact Std.ExtTreeMap.contains_iff_mem.1 hMem.2

/- The edges of the graph are the references. -/
theorem mem_edges_ofProjects
    (a b : ProjectId) :
    (a, b) ∈ (ofProjects projects).edges ↔
      Refers projects a b := by
  simp only [ofProjects, List.mem_eraseDups, List.mem_flatMap,
    List.mem_map, Prod.mk.injEq, Refers]
  constructor
  · rintro ⟨⟨c, p⟩, hEntry, t, hT, rfl, rfl⟩
    exact ⟨p,
      Std.ExtTreeMap.mem_toList_iff_getElem?_eq_some.1 hEntry,
      hT⟩
  · rintro ⟨p, hP, hB⟩
    exact ⟨(a, p),
      Std.ExtTreeMap.mem_toList_iff_getElem?_eq_some.2 hP,
      b, hB, rfl, rfl⟩

theorem mem_nodes_ofProjects
    {a : ProjectId}
    (hMem : a ∈ projects) :
    a ∈ (ofProjects projects).nodes := by
  rcases mem_iff_exists_getElem?.1 hMem with ⟨p, hP⟩
  simp only [ofProjects, List.mem_eraseDups, List.mem_flatMap]
  exact ⟨(a, p),
    Std.ExtTreeMap.mem_toList_iff_getElem?_eq_some.2 hP,
    List.mem_cons_self⟩

theorem isClosed_ofProjects :
    (ofProjects projects).IsClosed where
  nodup := nodup_eraseDups _
  origin_mem a b hEdge := by
    rcases (mem_edges_ofProjects a b).1 hEdge with ⟨p, hP, -⟩
    exact mem_nodes_ofProjects
      (mem_of_getElem? hP)
  target_mem a b hEdge := by
    rcases (mem_edges_ofProjects a b).1 hEdge with ⟨p, -, hB⟩
    exact mem_nodes_ofProjects (mem_presentTargets hB)

theorem reaches_ofProjects :
    (ofProjects projects).Reaches =
      Relation.TransGen (Refers projects) := by
  unfold Reaches
  congr 1
  funext a b
  exact propext (mem_edges_ofProjects a b)

/- The check passes exactly if there is no cycle. -/
theorem checkAcyclic_eq_ok_iff :
    checkAcyclic projects = .ok () ↔ Acyclic projects := by
  rw [checkAcyclic, Acyclic, ← reaches_ofProjects]
  cases hFind : (ofProjects projects).findCycle with
  | ok _ =>
      have hNone := findCycle_ok isClosed_ofProjects hFind
      exact ⟨fun _ => hNone, fun _ => rfl⟩
  | error n =>
      have hCycle := findCycle_error isClosed_ofProjects hFind
      constructor
      · intro hOk
        exact nomatch hOk
      · intro hNone
        exact absurd hCycle (hNone n)

end ReferenceGraph

end SnapTree
