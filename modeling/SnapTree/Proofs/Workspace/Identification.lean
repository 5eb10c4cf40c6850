import SnapTree.Proofs.Workspace.Tree

/-
  This file proves that snapshots keep their form however they
  are edited, and that the root checksum of a snapshot tells
  what is in it: two snapshots have the same checksum exactly
  if they have the same content.

  Key definitions include:
    * `Project.SameContent`
    * `Solution.SameContent`

  Key theorems include:
    * `Solution.Reachable.keeps_form`
    * `Solution.checksum_eq_iff_sameContent`
-/

namespace SnapTree

------------------------------------------------------------
-- The form of a snapshot
------------------------------------------------------------

/-
  However a solution came about, its projects and documents
  stand under their identities, each document in the map of
  its kind and no identity in two of them, the references
  among its projects lead from no project back to it, and a
  frozen document belongs to one of its projects.
-/
theorem Solution.Reachable.keeps_form
    {s : Solution}
    (hReachable : s.Reachable) :
    (∀ (id : ProjectId) (p : Project),
      s.projects[id]? = some p → p.attributes.id = id) ∧
    (∀ (id : ProjectId) (p : Project) (kind : DocumentKind)
        (document : DocumentId) (d : Document),
      s.projects[id]? = some p →
        (p.documents.get kind)[document]? = some d →
          d.attributes.id = document ∧ d.kind = kind) ∧
    (∀ (id : ProjectId) (p : Project)
        (kind other : DocumentKind) (document : DocumentId),
      s.projects[id]? = some p →
        document ∈ p.documents.get kind →
          document ∈ p.documents.get other → kind = other) ∧
    (∀ id : ProjectId,
      ¬Relation.TransGen
        (fun a b : ProjectId =>
          ∃ p, s.projects[a]? = some p ∧ b ∈ s.projects ∧
            ∃ r ∈ p.projectReferences, r.projectId = b)
        id id) ∧
    (∀ f : FrozenDocument,
      s.frozen = some f → f.identity.projectId ∈ s.projects) := by
  have hWell : s.WellFormed := hReachable.wellFormed
  refine ⟨hWell.keyed, ?_, ?_, ?_, hWell.frozen⟩
  · intro id p kind document d hP hD
    exact (hWell.project id p hP).keyed kind document d hD
  · intro id p kind other document hP hKind hOther
    exact (hWell.project id p hP).apart kind other document
      hKind hOther
  · intro id hCycle
    apply hWell.acyclic id
    refine hCycle.lift (fun a => a) ?_
    rintro a b ⟨p, hP, hPresent, r, hR, rfl⟩
    exact ⟨p, hP, ReferenceGraph.mem_presentTargets_iff.2
      ⟨List.mem_map_of_mem hR, hPresent⟩⟩

------------------------------------------------------------
-- The content of a snapshot
------------------------------------------------------------

/-
  Two projects have the same attributes, options and
  references, and for each kind the same documents by identity
  with the same attributes and texts.
-/
structure Project.SameContent
    (p q : Project) : Prop where
  attributes : p.attributes = q.attributes
  compilationOptions :
    p.compilationOptions = q.compilationOptions
  parseOptions : p.parseOptions = q.parseOptions
  projectReferences : p.projectReferences = q.projectReferences
  metadataReferences :
    p.metadataReferences = q.metadataReferences
  analyzerReferences :
    p.analyzerReferences = q.analyzerReferences
  documents :
    ∀ (kind : DocumentKind) (id : DocumentId),
      ((p.documents.get kind)[id]?).map Document.describe =
        ((q.documents.get kind)[id]?).map Document.describe

/-
  Two solutions have the same attributes, analyzer references
  and frozen document, and the same projects by identity.
-/
structure Solution.SameContent
    (s t : Solution) : Prop where
  attributes : s.attributes = t.attributes
  projects :
    ∀ id : ProjectId,
      Option.Rel Project.SameContent
        s.projects[id]? t.projects[id]?
  analyzerReferences :
    s.analyzerReferences = t.analyzerReferences
  frozen : s.frozen = t.frozen

namespace Project

theorem SameContent.refl
    (p : Project) :
    p.SameContent p := by
  constructor <;> intros <;> rfl

/- Documents of one kind with the same description are the same. -/
theorem document_eq_of_describe
    {d e : Document}
    (hKind : d.kind = e.kind)
    (hSame : d.describe = e.describe) :
    d = e := by
  cases d
  cases e
  simp only [Document.describe, DocumentDescription.mk.injEq]
    at hSame
  rw [Document.mk.injEq]
  exact ⟨hKind, hSame⟩

/- Projects in order with the same content are the same. -/
theorem SameContent.eq
    {p q : Project}
    (hSame : p.SameContent q)
    (hP : p.WellFormed)
    (hQ : q.WellFormed) :
    p = q := by
  have hDocuments : p.documents = q.documents := by
    apply ByKind.ext_get
    intro kind
    apply Std.ExtTreeMap.ext_getElem?
    intro id
    have hDescribed := hSame.documents kind id
    cases hD : (p.documents.get kind)[id]? with
    | none =>
        rw [hD] at hDescribed
        rw [Option.map_eq_none_iff.1 hDescribed.symm]
    | some d =>
        rw [hD] at hDescribed
        rcases Option.map_eq_some_iff.1 hDescribed.symm with
          ⟨e, hE, hDescribe⟩
        have hKind : d.kind = e.kind :=
          (hP.keyed kind id d hD).2.trans
            (hQ.keyed kind id e hE).2.symm
        rw [hE, document_eq_of_describe hKind hDescribe.symm]
  cases p
  cases q
  rw [Project.mk.injEq]
  exact ⟨hSame.attributes, hSame.compilationOptions,
    hSame.parseOptions, hSame.projectReferences,
    hSame.metadataReferences, hSame.analyzerReferences,
    hDocuments⟩

end Project

namespace Solution

theorem SameContent.refl
    (s : Solution) :
    s.SameContent s where
  attributes := rfl
  projects id := by
    cases s.projects[id]? with
    | none => exact .none
    | some p => exact .some (Project.SameContent.refl p)
  analyzerReferences := rfl
  frozen := rfl

/- Solutions in order with the same content are the same. -/
theorem SameContent.eq
    {s t : Solution}
    (hSame : s.SameContent t)
    (hS : s.WellFormed)
    (hT : t.WellFormed) :
    s = t := by
  have hProjects : s.projects = t.projects := by
    apply Std.ExtTreeMap.ext_getElem?
    intro id
    have hRel := hSame.projects id
    cases hP : s.projects[id]? with
    | none =>
        cases hQ : t.projects[id]? with
        | none => rfl
        | some q =>
            rw [hP, hQ] at hRel
            cases hRel
    | some p =>
        cases hQ : t.projects[id]? with
        | none =>
            rw [hP, hQ] at hRel
            cases hRel
        | some q =>
            rw [hP, hQ] at hRel
            cases hRel with
            | some hProject =>
                rw [hProject.eq (hS.project id p hP)
                  (hT.project id q hQ)]
  cases s
  cases t
  rw [Solution.mk.injEq]
  exact ⟨hSame.attributes, hProjects, hSame.analyzerReferences,
    hSame.frozen⟩

/-
  The root checksum identifies a snapshot, however it came
  about, if the hash has no collision among the byte strings
  that are hashed for the two.
-/
theorem checksum_eq_iff_sameContent
    {s t : Solution}
    (hS : s.Reachable)
    (hT : t.Reachable)
    (hFaithful : Faithful {a | a ∈ s.assets ∨ a ∈ t.assets}) :
    s.checksum = t.checksum ↔ s.SameContent t := by
  constructor
  · intro hSame
    have hEq : s = t :=
      eq_of_checksum hFaithful hS.wellFormed hT.wellFormed
        (fun _ hA => Or.inl hA) (fun _ hA => Or.inr hA) hSame
    rw [hEq]
    exact SameContent.refl t
  · intro hSame
    rw [hSame.eq hS.wellFormed hT.wellFormed]

------------------------------------------------------------
-- Small versions of a solution
------------------------------------------------------------

/- A solution without projects. -/
def bare : Solution :=
  .empty { id := default, filePath := some "a.sln", version := 1 }

/- A project with one document. -/
def core : ProjectDescription where
  attributes := { id := default, language := "C#", name := "Core" }
  documents :=
    ⟨[{ attributes := { id := default, name := "a.cs" }
        text := "class A;" }], [], []⟩

/- The same solution with one project, if it can be added. -/
def single
    (d : ProjectDescription) : Solution :=
  match bare.addProject d with
  | .ok s => s
  | .error _ => bare

/- The same solution with the project. -/
def small : Solution :=
  single core

/- The same, but the project is in another language. -/
def ported : Solution :=
  single
    { core with
      attributes := { core.attributes with language := "F#" } }

/- A solution without projects at another place. -/
def moved : Solution :=
  .empty { id := default, filePath := some "b.sln", version := 1 }

theorem reachable_bare :
    bare.Reachable :=
  .empty _

theorem reachable_single
    (d : ProjectDescription) :
    (single d).Reachable := by
  unfold single
  cases hAdded : bare.addProject d with
  | ok s => exact .edited (e := .addProject d) reachable_bare hAdded
  | error e => exact reachable_bare

theorem reachable_small :
    small.Reachable :=
  reachable_single core

/- The small solution with another text of its document. -/
def edited : Solution :=
  match small.withDocumentText default default "class B;" with
  | .ok s => s
  | .error _ => small

theorem reachable_edited :
    edited.Reachable := by
  unfold edited
  cases hEdited :
      small.withDocumentText default default "class B;" with
  | ok s =>
      exact .edited (e := .documentText default default "class B;")
        reachable_small hEdited
  | error e => exact reachable_small

/- All of them, whose assets are hashed together. -/
def variants : List Solution :=
  [bare, small, edited, ported, moved]

set_option maxRecDepth 4096 in
theorem faithful_variants :
    Faithful {a | a ∈ variants.flatMap assets} :=
  .of_nodup (by decide +kernel) (by decide +kernel)

/- Any two of them are told apart. -/
theorem faithful_of_mem_variants
    {s t : Solution}
    (hS : s ∈ variants)
    (hT : t ∈ variants) :
    Faithful {a | a ∈ s.assets ∨ a ∈ t.assets} := by
  apply faithful_variants.mono
  rintro a (hA | hA)
  · exact List.mem_flatMap.2 ⟨s, hS, hA⟩
  · exact List.mem_flatMap.2 ⟨t, hT, hA⟩

theorem faithful_small :
    Faithful {a | a ∈ bare.assets ∨ a ∈ small.assets} :=
  faithful_of_mem_variants (by simp [variants])
    (by simp [variants])

theorem faithful_edited :
    Faithful {a | a ∈ small.assets ∨ a ∈ edited.assets} :=
  faithful_of_mem_variants (by simp [variants])
    (by simp [variants])

/- Two of them as a list of snapshots to publish. -/
theorem reachable_of_mem_versions :
    ∀ s ∈ [bare, small], s.Reachable := by
  intro s hS
  rcases List.mem_pair.1 hS with rfl | rfl
  · exact reachable_bare
  · exact reachable_small

theorem faithful_versions :
    Faithful {a | ∃ s ∈ [bare, small], a ∈ s.assets} := by
  apply faithful_small.mono
  rintro a ⟨s, hS, hA⟩
  rcases List.mem_pair.1 hS with rfl | rfl
  · exact Or.inl hA
  · exact Or.inr hA

theorem small_keeps_form :
    (∀ (id : ProjectId) (p : Project),
      small.projects[id]? = some p → p.attributes.id = id) ∧
    ∀ id : ProjectId,
      ¬Relation.TransGen
        (fun a b : ProjectId =>
          ∃ p, small.projects[a]? = some p ∧ b ∈ small.projects ∧
            ∃ r ∈ p.projectReferences, r.projectId = b)
        id id := by
  rcases reachable_small.keeps_form with
    ⟨hKeyed, -, -, hAcyclic, -⟩
  exact ⟨hKeyed, hAcyclic⟩

theorem checksum_bare_eq_iff_small :
    bare.checksum = small.checksum ↔ bare.SameContent small :=
  checksum_eq_iff_sameContent reachable_bare reachable_small
    faithful_small

end Solution

end SnapTree
