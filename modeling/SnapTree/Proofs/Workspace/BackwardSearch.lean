import SnapTree.Proofs.Workspace.Reachable

/-
  This file proves that the backward pass along a list of
  projects is a depth-first search from each of them, which
  stops at the second project that one search meets, and that
  the check of references finds a cycle exactly if there is
  one and names a project on it.

  Key definitions include:
    * `ReferenceGraph.nextBackward`
    * `ReferenceGraph.backwardSearch`

  Key theorems include:
    * `ReferenceGraph.backwardSearch_eq`
    * `ReferenceGraph.checkAcyclic_exact`
-/

namespace SnapTree

namespace ReferenceGraph

------------------------------------------------------------
-- A depth-first search against the references
------------------------------------------------------------

/-
  Take projects off a stack up to the first that was not met
  before.  It is met now, and those that refer to it go on the
  stack unless they were met as well.
-/
def nextBackward
    (g : ReferenceGraph) :
    List ProjectId → List ProjectId →
      Option (ProjectId × List ProjectId × List ProjectId)
  | [], _ => none
  | n :: stack, seen =>
      if seen.contains n then nextBackward g stack seen
      else
        some (n,
          ((g.origins n).filter
            (fun o => !(n :: seen).contains o)).reverse ++ stack,
          n :: seen)

/-
  Search from each project of a list in turn.  A search may
  meet the project that it starts from and no other.
-/
def backwardSearch
    (g : ReferenceGraph) :
    List ProjectId → List ProjectId → Except ProjectId Unit
  | [], _ => .ok ()
  | n :: rest, seen =>
      match nextBackward g [n] seen with
      | none => backwardSearch g rest seen
      | some (_, stack, met) =>
          match nextBackward g stack met with
          | some (second, _, _) => .error second
          | none => backwardSearch g rest met

/- A project that was met before is passed over. -/
theorem nextBackward_of_mem
    {g : ReferenceGraph}
    {n : ProjectId}
    {stack seen : List ProjectId}
    (hMet : n ∈ seen) :
    g.nextBackward (n :: stack) seen =
      g.nextBackward stack seen := by
  rw [nextBackward, if_pos (List.contains_iff_mem.2 hMet)]

/- Any other project is met, and its origins are stacked. -/
theorem nextBackward_of_notMem
    {g : ReferenceGraph}
    {n : ProjectId}
    {stack seen : List ProjectId}
    (hNew : n ∉ seen) :
    g.nextBackward (n :: stack) seen =
      some (n,
        ((g.origins n).filter
          (fun o => o ∉ n :: seen)).reverse ++ stack,
        n :: seen) := by
  rw [nextBackward, if_neg (fun h =>
    hNew (List.contains_iff_mem.1 h))]
  simp only [List.contains_eq_mem, decide_not]

/-
  A search goes on from the last of the projects that were put
  on an empty stack, since none of them was met.
-/
theorem nextBackward_reverse
    {g : ReferenceGraph}
    {pushed seen : List ProjectId}
    (hNew : ∀ o ∈ pushed, o ∉ seen) :
    (g.nextBackward pushed.reverse seen).map Prod.fst =
      pushed.getLast? := by
  rw [← List.head?_reverse]
  cases hStack : pushed.reverse with
  | nil => rfl
  | cons o stack =>
      have hMem : o ∈ pushed :=
        List.mem_reverse.1 (hStack ▸ List.mem_cons_self)
      rw [nextBackward_of_notMem (hNew o hMem)]
      rfl

/-
  The backward pass is the search: whatever a first project
  puts on the stack comes next, so that a search is over after
  one project or fails at the second.
-/
theorem backwardSearch_eq
    (g : ReferenceGraph)
    (todo seen : List ProjectId) :
    g.backwardSearch todo seen = g.backward todo seen := by
  induction todo generalizing seen with
  | nil => rfl
  | cons n todo ih =>
      rw [backwardSearch, backward]
      by_cases hMet : n ∈ seen
      · rw [nextBackward_of_mem hMet, if_pos hMet]
        exact ih seen
      · rw [nextBackward_of_notMem hMet, if_neg hMet]
        dsimp only
        rw [List.append_nil]
        have hNew :
            ∀ o ∈ (g.origins n).filter (fun o => o ∉ n :: seen),
              o ∉ n :: seen :=
          fun o hO => of_decide_eq_true (List.mem_filter.1 hO).2
        have hSecond := nextBackward_reverse (g := g) hNew
        cases hNext :
            g.nextBackward
              ((g.origins n).filter
                (fun o => o ∉ n :: seen)).reverse
              (n :: seen) with
        | none =>
            rw [hNext] at hSecond
            rw [← hSecond]
            exact ih (n :: seen)
        | some found =>
            rw [hNext] at hSecond
            rw [← hSecond]
            rfl

/- The check is a search forwards and one backwards. -/
theorem findCycle_eq_search
    (g : ReferenceGraph) :
    g.findCycle =
      g.forward.bind
        (fun m => g.backwardSearch m.finished []) := by
  unfold findCycle
  simp only [backwardSearch_eq]
  rfl

------------------------------------------------------------
-- The check of references
------------------------------------------------------------

variable {projects : ProjectMap}

/- A reference leads from one project to another one present. -/
theorem refers_iff
    {a b : ProjectId} :
    Refers projects a b ↔
      ∃ p, projects[a]? = some p ∧ b ∈ projects ∧
        ∃ r ∈ p.projectReferences, r.projectId = b := by
  unfold Refers
  simp only [mem_presentTargets_iff, List.mem_map]
  constructor
  · rintro ⟨p, hStands, hReference, hPresent⟩
    exact ⟨p, hStands, hPresent, hReference⟩
  · rintro ⟨p, hStands, hPresent, hReference⟩
    exact ⟨p, hStands, hReference, hPresent⟩

/- An error of the check names a project on a cycle. -/
theorem checkAcyclic_eq_error
    {e : EditError}
    (hError : checkAcyclic projects = .error e) :
    ∃ a, e = .cyclicReference a ∧
      Relation.TransGen (Refers projects) a a := by
  unfold checkAcyclic at hError
  split at hError
  · cases hError
  · next a hFind =>
      refine ⟨a, (Except.error.inj hError).symm, ?_⟩
      rw [← reaches_ofProjects]
      exact findCycle_error isClosed_ofProjects hFind

/-
  The check passes exactly if no project reaches itself by
  references between projects present, and else it names one
  that does.
-/
theorem checkAcyclic_exact
    (projects : ProjectMap) :
    let refers : ProjectId → ProjectId → Prop := fun a b =>
      ∃ p, projects[a]? = some p ∧ b ∈ projects ∧
        ∃ r ∈ p.projectReferences, r.projectId = b
    (checkAcyclic projects = .ok () ↔
      ∀ a, ¬Relation.TransGen refers a a) ∧
    ∀ e, checkAcyclic projects = .error e →
      ∃ a, e = .cyclicReference a ∧ a ∈ projects ∧
        Relation.TransGen refers a a := by
  intro refers
  have hRefers : refers = Refers projects := by
    funext a b
    exact propext refers_iff.symm
  rw [hRefers]
  refine ⟨checkAcyclic_eq_ok_iff, ?_⟩
  intro e hError
  rcases checkAcyclic_eq_error hError with ⟨a, hE, hCycle⟩
  refine ⟨a, hE, ?_, hCycle⟩
  rcases Relation.TransGen.head'_iff.1 hCycle with
    ⟨b, ⟨p, hStands, -⟩, -⟩
  exact Std.ExtTreeMap.mem_iff_isSome_getElem?.2
    (by simp [hStands])

/-
  Two projects that refer to one another, the first of them
  twice and also to a project that is not there.
-/
def entangled : ProjectMap :=
  let named (n : UInt8) : ProjectId :=
    ⟨⟨Vector.replicate 16 n⟩⟩
  let referring (n : UInt8) (targets : List UInt8) : Project :=
    { attributes :=
        { id := named n, language := "C#", name := "Core" }
      projectReferences :=
        targets.map (fun t => { projectId := named t }) :
      ProjectDescription }.project
  (∅ : ProjectMap)
    |>.insert (named 1) (referring 1 [2, 3, 2])
    |>.insert (named 2) (referring 2 [1])

theorem entangled_refused :
    ∃ a, checkAcyclic entangled = .error (.cyclicReference a) ∧
      a ∈ entangled ∧
        Relation.TransGen
          (fun a b =>
            ∃ p, entangled[a]? = some p ∧ b ∈ entangled ∧
              ∃ r ∈ p.projectReferences, r.projectId = b)
          a a := by
  have hRefused : checkAcyclic entangled ≠ .ok () := by
    decide +kernel
  cases hCheck : checkAcyclic entangled with
  | ok u => exact absurd hCheck hRefused
  | error e =>
      rcases (checkAcyclic_exact entangled).2 e hCheck with
        ⟨a, rfl, hPresent, hCycle⟩
      exact ⟨a, rfl, hPresent, hCycle⟩

end ReferenceGraph

end SnapTree
