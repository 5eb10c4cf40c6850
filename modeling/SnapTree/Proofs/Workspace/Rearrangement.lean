import SnapTree.Proofs.Workspace.Identification
import Mathlib.Data.List.Perm.Basic

/-
  This file proves that a snapshot and its description say the
  same, its frozen document apart, and that the order in which
  a description lists projects and documents does not matter:
  neither for what is made of it nor for whether it is
  accepted.

  Key definitions include:
    * `ProjectDescription.Rearranges`
    * `SolutionDescription.Rearranges`

  Key theorems include:
    * `Solution.WellFormed.ofDescription_describe`
    * `Solution.ofDescription_of_rearranges`
    * `Solution.description_faithful`
-/

namespace SnapTree

open ReferenceGraph

------------------------------------------------------------
-- Filling a map in another order
------------------------------------------------------------

section

variable {κ α β : Type} {cmp : κ → κ → Ordering}
variable [Std.TransCmp cmp] [Std.LawfulEqCmp cmp]
variable {key : α → κ} {value : α → β} {xs ys : List α}

/- Items in another order have their keys in that order. -/
theorem perm_keys
    (hPerm :
      (xs.map (fun x => (key x, value x))).Perm
        (ys.map (fun y => (key y, value y)))) :
    (xs.map key).Perm (ys.map key) := by
  have hFirst := hPerm.map Prod.fst
  rwa [List.map_map, List.map_map] at hFirst

/-
  Items with distinct keys make the same map in every order.
-/
theorem entering_eq_of_perm
    {m : Std.ExtTreeMap κ β cmp}
    (hNodup : (xs.map key).Nodup)
    (hPerm :
      (xs.map (fun x => (key x, value x))).Perm
        (ys.map (fun y => (key y, value y)))) :
    entering key value m xs = entering key value m ys := by
  have hKeys := perm_keys hPerm
  have hMem :
      ∀ (zs : List α) (k : κ) (v : β),
        (k, v) ∈ zs.map (fun z => (key z, value z)) ↔
          ∃ z ∈ zs, key z = k ∧ value z = v := by
    intro zs k v
    simp only [List.mem_map, Prod.mk.injEq]
  apply Std.ExtTreeMap.ext_getElem?
  intro k
  apply Option.ext
  intro v
  rw [getElem?_entering hNodup,
    getElem?_entering (hKeys.nodup_iff.1 hNodup), ← hMem,
    ← hMem, hPerm.mem_iff, hKeys.mem_iff]

end

------------------------------------------------------------
-- Descriptions of projects
------------------------------------------------------------

namespace ProjectDescription

/-
  Two descriptions of a project that may list the documents of
  each kind in different orders, and else are the same.
-/
structure Rearranges
    (d e : ProjectDescription) : Prop where
  attributes : d.attributes = e.attributes
  compilationOptions :
    d.compilationOptions = e.compilationOptions
  parseOptions : d.parseOptions = e.parseOptions
  projectReferences : d.projectReferences = e.projectReferences
  metadataReferences :
    d.metadataReferences = e.metadataReferences
  analyzerReferences :
    d.analyzerReferences = e.analyzerReferences
  documents :
    ∀ kind, (d.documents.get kind).Perm (e.documents.get kind)

namespace Rearranges

variable {d e : ProjectDescription}

theorem symm
    (hSame : d.Rearranges e) :
    e.Rearranges d where
  attributes := hSame.attributes.symm
  compilationOptions := hSame.compilationOptions.symm
  parseOptions := hSame.parseOptions.symm
  projectReferences := hSame.projectReferences.symm
  metadataReferences := hSame.metadataReferences.symm
  analyzerReferences := hSame.analyzerReferences.symm
  documents kind := (hSame.documents kind).symm

theorem id_eq
    (hSame : d.Rearranges e) :
    d.id = e.id :=
  congrArg ProjectAttributes.id hSame.attributes

/- The same documents are named, so often in both. -/
theorem nodup_documentIds_iff
    (hSame : d.Rearranges e) :
    d.documentIds.Nodup ↔ e.documentIds.Nodup := by
  unfold documentIds
  apply List.Perm.nodup_iff
  apply List.Perm.flatMap_left
  intro kind _
  exact (hSame.documents kind).map DocumentDescription.id

/- What is made of them is the same if it is accepted. -/
theorem project_eq
    (hSame : d.Rearranges e)
    (hNodup : d.documentIds.Nodup) :
    d.project = e.project := by
  have hDocuments :
      d.project.documents = e.project.documents := by
    apply ByKind.ext_get
    intro kind
    unfold project
    dsimp only
    rw [ByKind.get_ofFn, ByKind.get_ofFn]
    refine entering_eq_of_perm ?_ ((hSame.documents kind).map _)
    exact (List.nodup_flatMap.1 hNodup).1 kind kind.mem_all
  unfold project at hDocuments ⊢
  dsimp only at hDocuments
  rw [hDocuments, hSame.attributes, hSame.compilationOptions,
    hSame.parseOptions, hSame.projectReferences,
    hSame.metadataReferences, hSame.analyzerReferences]

/- Projects made of one listing and of another one. -/
theorem made_eq
    {ds es : List ProjectDescription}
    (hEach : List.Forall₂ Rearranges ds es)
    (hNodups : ∀ d ∈ ds, d.documentIds.Nodup) :
    (∀ e ∈ es, e.documentIds.Nodup) ∧
      ds.map (fun d => (d.id, d.project)) =
        es.map (fun e => (e.id, e.project)) := by
  induction hEach with
  | nil => exact ⟨hNodups, rfl⟩
  | cons hHead _ ih =>
      rw [List.forall_mem_cons] at hNodups
      rcases ih hNodups.2 with ⟨hOthers, hMade⟩
      rw [List.forall_mem_cons, List.map_cons, List.map_cons,
        hHead.id_eq, hHead.project_eq hNodups.1, hMade]
      exact ⟨⟨hHead.nodup_documentIds_iff.1 hNodups.1, hOthers⟩,
        rfl⟩

end Rearranges

end ProjectDescription

------------------------------------------------------------
-- Descriptions of solutions
------------------------------------------------------------

namespace SolutionDescription

/-
  Two descriptions of a solution that may list the projects in
  different orders, and the documents in each of them, and
  else are the same.
-/
structure Rearranges
    (d e : SolutionDescription) : Prop where
  attributes : d.attributes = e.attributes
  analyzerReferences :
    d.analyzerReferences = e.analyzerReferences
  projects :
    ∃ listed : List ProjectDescription,
      d.projects.Perm listed ∧
        List.Forall₂ ProjectDescription.Rearranges listed
          e.projects

namespace Rearranges

variable {d e : SolutionDescription}

theorem symm
    (hSame : d.Rearranges e) :
    e.Rearranges d where
  attributes := hSame.attributes.symm
  analyzerReferences := hSame.analyzerReferences.symm
  projects := by
    rcases hSame.projects with ⟨listed, hPerm, hEach⟩
    rcases List.perm_comp_forall₂ hPerm hEach with
      ⟨listed', hEach', hPerm'⟩
    refine ⟨listed', hPerm'.symm, List.Forall₂.flip ?_⟩
    exact hEach'.imp (fun _ _ h => h.symm)

/-
  If the projects are acceptable in one order, they are so in
  the other, and the same are made of them.
-/
theorem perm_projects
    (hSame : d.Rearranges e)
    (hNodups : ∀ p ∈ d.projects, p.documentIds.Nodup) :
    (∀ q ∈ e.projects, q.documentIds.Nodup) ∧
      (d.projects.map (fun p => (p.id, p.project))).Perm
        (e.projects.map (fun q => (q.id, q.project))) := by
  rcases hSame.projects with ⟨listed, hPerm, hEach⟩
  have hListed : ∀ p ∈ listed, p.documentIds.Nodup :=
    fun p hP => hNodups p (hPerm.mem_iff.2 hP)
  rcases ProjectDescription.Rearranges.made_eq hEach hListed with
    ⟨hOthers, hMade⟩
  exact ⟨hOthers, (hPerm.map _).trans (List.Perm.of_eq hMade)⟩

end Rearranges

end SolutionDescription

namespace Solution

/-
  What is made of a description is made of every other one
  that lists the same in another order.
-/
theorem ofDescription_of_rearranges
    {d e : SolutionDescription}
    (hSame : d.Rearranges e)
    {s : Solution}
    (hOk : ofDescription d = .ok s) :
    ofDescription e = .ok s := by
  rcases ofDescription_eq_ok_iff.1 hOk with
    ⟨hNodups, hNodup, hAcyclic, rfl⟩
  rcases hSame.perm_projects hNodups with ⟨hOthers, hPerm⟩
  have hMap : d.projectMap = e.projectMap :=
    entering_eq_of_perm hNodup hPerm
  refine ofDescription_eq_ok_iff.2
    ⟨hOthers,
      (perm_keys hPerm).nodup_iff.1 hNodup, ?_, ?_⟩
  · rw [← hMap]
    exact hAcyclic
  · rw [← hMap, hSame.attributes, hSame.analyzerReferences]

/-
  A solution in order is made again of its description, its
  frozen document apart.
-/
theorem WellFormed.ofDescription_describe
    {s : Solution}
    (hWell : s.WellFormed) :
    ofDescription s.describe = .ok s.withoutFrozen := by
  have hStands :
      ∀ p ∈ s.projectList, s.projects[p.id]? = some p :=
    fun p hP => (mem_projectList hWell).1 hP
  have hNodup :
      (s.describe.projects.map ProjectDescription.id).Nodup := by
    unfold describe
    rw [List.map_map]
    exact hWell.isKeyed.nodup_values
  have hMap : s.describe.projectMap = s.projects := by
    apply entering_eq hNodup
    intro id p
    constructor
    · intro hP
      refine ⟨p.describe, List.mem_map_of_mem (mem_values hP),
        hWell.keyed id p hP, ?_⟩
      exact (hWell.project id p hP).project_describe
    · rintro ⟨d, hD, rfl, rfl⟩
      rcases List.mem_map.1 hD with ⟨q, hQ, rfl⟩
      rw [(hWell.project q.id q (hStands q hQ)).project_describe]
      exact hStands q hQ
  refine ofDescription_eq_ok_iff.2 ⟨?_, hNodup, ?_, ?_⟩
  · intro d hD
    rcases List.mem_map.1 hD with ⟨q, hQ, rfl⟩
    exact (hWell.project q.id q (hStands q hQ)).nodup_documentIds
  · rw [hMap]
    exact hWell.acyclic
  · rw [hMap]
    rfl

/-
  The description of a snapshot is accepted and gives the
  snapshot without its frozen document; what was computed of
  the snapshot before plays no part, since checksums are
  functions of it.  A description that lists projects and
  documents in another order is accepted exactly if the first
  one is, and gives the same.
-/
theorem description_faithful :
    (∀ s : Solution, s.Reachable →
      ofDescription s.describe = .ok s.withoutFrozen) ∧
    ∀ d e : SolutionDescription, d.Rearranges e →
      ∀ s : Solution,
        ofDescription d = .ok s ↔ ofDescription e = .ok s := by
  constructor
  · intro s hReachable
    exact hReachable.wellFormed.ofDescription_describe
  · intro d e hSame s
    exact ⟨ofDescription_of_rearranges hSame,
      ofDescription_of_rearranges hSame.symm⟩

/- A project with a second document, listed last or first. -/
def coreListing
    (swapped : Bool) : ProjectDescription :=
  let second : DocumentDescription :=
    { attributes :=
        { id := ⟨⟨Vector.replicate 16 1⟩⟩, name := "b.cs" }
      text := "class B;" }
  let first := core.documents.ordinary
  { core with
    documents :=
      ⟨if swapped then second :: first else first ++ [second],
        [], []⟩ }

/- Two projects, in one order or in the other. -/
def listing
    (swapped : Bool) : SolutionDescription :=
  let other : ProjectDescription :=
    { attributes :=
        { id := ⟨⟨Vector.replicate 16 1⟩⟩, language := "C#"
          name := "Other" } }
  { attributes := bare.attributes
    projects :=
      if swapped then [other, coreListing true]
      else [coreListing false, other] }

theorem listing_rearranged :
    ofDescription small.describe = .ok small.withoutFrozen ∧
      ∃ s, ofDescription (listing false) = .ok s ∧
        ofDescription (listing true) = .ok s := by
  have hCore :
      (coreListing false).Rearranges (coreListing true) := by
    refine ⟨rfl, rfl, rfl, rfl, rfl, rfl, ?_⟩
    intro kind
    cases kind with
    | ordinary => exact .swap _ _ []
    | additional | analyzerConfig => exact .rfl
  have hListing : (listing false).Rearranges (listing true) :=
    ⟨rfl, rfl, _, .swap _ _ [],
      .cons ⟨rfl, rfl, rfl, rfl, rfl, rfl, fun _ => .rfl⟩
        (.cons hCore .nil)⟩
  have hAccepted : (ofDescription (listing false)).isOk := by
    decide +kernel
  refine ⟨description_faithful.1 small reachable_small, ?_⟩
  cases hOk : ofDescription (listing false) with
  | error e =>
      rw [hOk] at hAccepted
      cases hAccepted
  | ok s =>
      exact ⟨s, rfl,
        (description_faithful.2 _ _ hListing s).1 hOk⟩

end Solution

end SnapTree
