import SnapTree.Workspace.Project

/-
  This file defines the graph of references between projects
  and the search for a cycle in it.  A forward search lists
  the projects in the order in which it is done with them, and
  a backward search along that list, newest first, meets a
  project out of turn exactly if there is a cycle.

  Key definitions include:
    * `ReferenceGraph`
    * `ReferenceGraph.ofProjects`
    * `ReferenceGraph.forward`
    * `ReferenceGraph.backward`
    * `ReferenceGraph.checkAcyclic`
-/

namespace SnapTree

/- Projects by identity, listed in ascending order. -/
abbrev ProjectMap : Type :=
  Std.ExtTreeMap ProjectId Project compare

/- Projects and the references between them, each once. -/
structure ReferenceGraph where
  nodes : List ProjectId
  edges : List (ProjectId × ProjectId)

namespace ReferenceGraph

------------------------------------------------------------
-- The graph of a solution
------------------------------------------------------------

/- The projects present that a project refers to. -/
def presentTargets
    (projects : ProjectMap)
    (p : Project) : List ProjectId :=
  (p.projectReferences.map ProjectReference.projectId).filter
    (fun id => projects.contains id)

/-
  The references between the projects present.  A project is
  listed when it is first met, be it as a target.
-/
def ofProjects
    (projects : ProjectMap) : ReferenceGraph where
  nodes :=
    (projects.toList.flatMap
      (fun entry =>
        entry.1 :: presentTargets projects entry.2)).eraseDups
  edges :=
    (projects.toList.flatMap
      (fun entry =>
        (presentTargets projects entry.2).map
          (fun target => (entry.1, target)))).eraseDups

/- The projects that a project refers to. -/
def targets
    (g : ReferenceGraph)
    (a : ProjectId) : List ProjectId :=
  (g.edges.filter (fun e => e.1 = a)).map Prod.snd

/- The projects that refer to a project. -/
def origins
    (g : ReferenceGraph)
    (b : ProjectId) : List ProjectId :=
  (g.edges.filter (fun e => e.2 = b)).map Prod.fst

------------------------------------------------------------
-- Forward search
------------------------------------------------------------

/- What a forward search has met and is done with. -/
structure Marks where
  seen : List ProjectId
  finished : List ProjectId

/-
  Search from the top of a stack, for at most `fuel` steps.  A
  project met for the first time stays on the stack below its
  targets; when it is on top again, the search is done with
  it.  A project that refers to itself is an error.
-/
def visit
    (g : ReferenceGraph) :
    Nat → List ProjectId → Marks → Except ProjectId Marks
  | 0, _, m => .ok m
  | _ + 1, [], m => .ok m
  | fuel + 1, n :: stack, m =>
      if n ∈ m.seen then
        visit g fuel stack
          { m with
            finished :=
              if n ∈ m.finished then m.finished
              else n :: m.finished }
      else if n ∈ g.targets n then .error n
      else
        visit g fuel
          (((g.targets n).filter
            (fun s => s ∉ n :: m.seen)).reverse ++ n :: stack)
          { m with seen := n :: m.seen }

/-
  The most steps that a search can take: it meets each project
  once, and takes one step for each reference and the start.
-/
def budget
    (g : ReferenceGraph) : Nat :=
  g.nodes.length + g.edges.length + 1

/- Search from every project that was not met before. -/
def forward
    (g : ReferenceGraph) : Except ProjectId Marks :=
  g.nodes.foldlM
    (fun m n =>
      if n ∈ m.seen then .ok m else g.visit g.budget [n] m)
    ⟨[], []⟩

------------------------------------------------------------
-- Backward search
------------------------------------------------------------

/-
  Go through a list of projects.  Whoever refers to a project
  must have had its turn before; the last one that has not is
  the error.
-/
def backward
    (g : ReferenceGraph) :
    List ProjectId → List ProjectId → Except ProjectId Unit
  | [], _ => .ok ()
  | n :: rest, seen =>
      if n ∈ seen then backward g rest seen
      else
        match ((g.origins n).filter
            (fun o => o ∉ n :: seen)).getLast? with
        | some o => .error o
        | none => backward g rest (n :: seen)

/- Look for a cycle; an error names a project on one. -/
def findCycle
    (g : ReferenceGraph) : Except ProjectId Unit := do
  let marks ← g.forward
  g.backward marks.finished []

/-
  Refuse a cycle of references among the projects present.
  References to projects that are not present do not count.
-/
def checkAcyclic
    (projects : ProjectMap) : Except EditError Unit :=
  match (ofProjects projects).findCycle with
  | .ok () => .ok ()
  | .error project => .error (.cyclicReference project)

end ReferenceGraph

end SnapTree
