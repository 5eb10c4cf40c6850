import SnapTree.Digest.Uuid

/-
  This file defines the identities of solutions, projects and
  documents.  They are all universally unique identifiers, but
  an identity of one level is never taken for one of another.

  Key definitions include:
    * `Level`
    * `NodeId`
    * `SolutionId`
    * `ProjectId`
    * `DocumentId`
-/

namespace SnapTree

/- The levels of a snapshot that carry an identity. -/
inductive Level where
  | solution
  | project
  | document
deriving DecidableEq

/- The identity of a node of one level. -/
structure NodeId (level : Level) where
  uuid : Uuid
deriving DecidableEq

/- The identity of a solution: one lineage of snapshots. -/
abbrev SolutionId : Type :=
  NodeId .solution

/- The identity of a project within a solution. -/
abbrev ProjectId : Type :=
  NodeId .project

/- The identity of a document within a project. -/
abbrev DocumentId : Type :=
  NodeId .document

namespace NodeId

variable {level : Level}

instance : Inhabited (NodeId level) :=
  ⟨⟨default⟩⟩

/- Identities are ordered as their identifiers are. -/
instance : Ord (NodeId level) :=
  ⟨fun a b => compare a.uuid b.uuid⟩

instance : Std.TransOrd (NodeId level) :=
  inferInstanceAs (Std.TransCmp (compareOn NodeId.uuid))

instance : Std.LawfulEqOrd (NodeId level) where
  eq_of_compare := fun {a b} h => by
    have same : a.uuid = b.uuid := Std.compare_eq_iff_eq.1 h
    cases a
    cases b
    exact congrArg NodeId.mk same

instance : ToString (NodeId level) :=
  ⟨fun id => id.uuid.toString⟩

/- The identity that a name has within a namespace. -/
def ofName
    (space : Uuid)
    (name : String) : NodeId level :=
  ⟨Uuid.ofName space name⟩

end NodeId

end SnapTree
