import SnapTree.Proofs.Data.Ascending
import SnapTree.Proofs.Workspace.Tree

/-
  This file lists where the documents of a solution are: the
  project, the kind and the identity of each.  A place is
  listed exactly if a document is found there, and only once,
  so that the documents of solutions can be counted and
  compared place by place.

  Key definitions include:
    * `DocumentPlace`
    * `Solution.documentAt?`
    * `Solution.documentPlaces`

  Key theorems include:
    * `Solution.length_documentPlaces`
    * `Solution.WellFormed.mem_documentPlaces`
    * `Solution.WellFormed.nodup_documentPlaces`
    * `Solution.countP_documentPlaces`
-/

namespace SnapTree

/- What is left out of a sum may as well count as nothing. -/
theorem sum_map_filter
    {α : Type}
    (c : α → Bool)
    (f : α → Nat)
    (xs : List α) :
    ((xs.filter c).map f).sum =
      (xs.map (fun x => if c x then f x else 0)).sum := by
  induction xs with
  | nil => rfl
  | cons x xs ih =>
      rw [List.filter_cons, List.map_cons, List.sum_cons, ← ih]
      cases c x with
      | false => simp
      | true => simp

------------------------------------------------------------
-- Places
------------------------------------------------------------

/- Where a document of a solution is. -/
structure DocumentPlace where
  project : ProjectId
  kind : DocumentKind
  document : DocumentId
deriving DecidableEq

/- Where a document is that belongs to a project. -/
def Document.placeIn
    (d : Document)
    (project : ProjectId) : DocumentPlace :=
  ⟨project, d.kind, d.id⟩

/- Where the documents of a project are, kind by kind. -/
def Project.documentPlaces
    (p : Project) : List DocumentPlace :=
  p.allDocuments.map (fun d => d.placeIn p.id)

namespace Solution

/- Where the documents of a solution are. -/
def documentPlaces
    (s : Solution) : List DocumentPlace :=
  s.projectList.flatMap Project.documentPlaces

/- The document at a place. -/
def documentAt?
    (s : Solution)
    (place : DocumentPlace) : Option Document :=
  (s.project? place.project).bind
    (fun p => (p.documents.get place.kind)[place.document]?)

/- There are as many places as documents. -/
theorem length_documentPlaces
    (s : Solution) :
    s.documentPlaces.length = s.documentCount := by
  unfold documentPlaces documentCount
  rw [List.length_flatMap, List.length_flatMap]
  congr 1
  apply List.map_congr_left
  intro p _
  exact List.length_map _

end Solution

------------------------------------------------------------
-- The places of a project
------------------------------------------------------------

namespace Project.WellFormed

variable {p : Project} (hWell : p.WellFormed)

include hWell

/- A document of a kind stands where it says. -/
theorem placeIn_eq
    {kind : DocumentKind}
    {d : Document}
    (hMem : d ∈ p.documentsOf kind)
    (project : ProjectId) :
    d.placeIn project = ⟨project, kind, d.id⟩ := by
  have hStands := hWell.mem_documentsOf.1 hMem
  rw [Document.placeIn, (hWell.keyed kind d.id d hStands).2]

theorem mem_documentPlaces
    {place : DocumentPlace} :
    place ∈ p.documentPlaces ↔
      place.project = p.id ∧
        ∃ d, (p.documents.get place.kind)[place.document]? =
          some d := by
  unfold documentPlaces allDocuments
  rw [List.mem_map]
  constructor
  · rintro ⟨d, hMem, rfl⟩
    rcases List.mem_flatMap.1 hMem with ⟨kind, -, hListed⟩
    rw [hWell.placeIn_eq hListed]
    exact ⟨rfl, d, hWell.mem_documentsOf.1 hListed⟩
  · rcases place with ⟨project, kind, document⟩
    rintro ⟨rfl, d, hStands⟩
    dsimp only at hStands
    have hKey := hWell.isKeyed kind document d hStands
    subst hKey
    have hListed := hWell.mem_documentsOf.2 hStands
    refine ⟨d, ?_, hWell.placeIn_eq hListed p.id⟩
    exact List.mem_flatMap.2 ⟨kind, kind.mem_all, hListed⟩

/- No two documents of a project are at one place. -/
theorem nodup_documentPlaces :
    p.documentPlaces.Nodup := by
  have hPlaces :
      p.documentPlaces =
        DocumentKind.all.flatMap (fun kind =>
          (p.documentsOf kind).map
            (fun d => (⟨p.id, kind, d.id⟩ : DocumentPlace))) := by
    unfold documentPlaces allDocuments
    rw [List.map_flatMap]
    apply List.flatMap_congr
    intro kind _
    apply List.map_congr_left
    intro d hMem
    exact hWell.placeIn_eq hMem p.id
  rw [hPlaces, List.nodup_flatMap]
  constructor
  · intro kind _
    have hIds : ((p.documentsOf kind).map Document.id).Nodup :=
      (hWell.isKeyed kind).nodup_values
    apply List.Nodup.of_map DocumentPlace.document
    rw [List.map_map]
    exact hIds
  · have hKinds : DocumentKind.all.Nodup := by decide
    apply hKinds.imp
    intro kind other hNe place hHere hThere
    rcases List.mem_map.1 hHere with ⟨d, -, rfl⟩
    rcases List.mem_map.1 hThere with ⟨e, -, hSame⟩
    exact hNe (congrArg DocumentPlace.kind hSame).symm

/- The places of a project with a property, kind by kind. -/
theorem countP_documentPlaces
    (c : DocumentPlace → Bool) :
    p.documentPlaces.countP c =
      (DocumentKind.all.map (fun kind =>
        (p.documentsOf kind).countP
          (fun d => c ⟨p.id, kind, d.id⟩))).sum := by
  unfold documentPlaces allDocuments
  rw [List.countP_map, List.countP_flatMap]
  congr 1
  apply List.map_congr_left
  intro kind _
  apply List.countP_congr
  intro d hMem
  rw [Function.comp, hWell.placeIn_eq hMem]

end Project.WellFormed

------------------------------------------------------------
-- The places of a solution
------------------------------------------------------------

namespace Solution

theorem documentAt?_eq_some_iff
    {s : Solution}
    {place : DocumentPlace}
    {d : Document} :
    s.documentAt? place = some d ↔
      ∃ p, s.projects[place.project]? = some p ∧
        (p.documents.get place.kind)[place.document]? =
          some d := by
  unfold documentAt? project?
  rw [Option.bind_eq_some_iff]

/- The places with a property, project by project. -/
theorem countP_documentPlaces
    (s : Solution)
    (c : DocumentPlace → Bool) :
    s.documentPlaces.countP c =
      (s.projectList.map
        (fun p => p.documentPlaces.countP c)).sum := by
  unfold documentPlaces
  rw [List.countP_flatMap]
  rfl

namespace WellFormed

variable {s : Solution} (hWell : s.WellFormed)

include hWell

/- A place is listed exactly if there is a document. -/
theorem mem_documentPlaces
    {place : DocumentPlace} :
    place ∈ s.documentPlaces ↔
      ∃ d, s.documentAt? place = some d := by
  unfold documentPlaces
  rw [List.mem_flatMap]
  constructor
  · rintro ⟨p, hP, hPlace⟩
    have hHere := (mem_projectList hWell).1 hP
    rcases (hWell.project p.id p hHere).mem_documentPlaces.1
      hPlace with ⟨hProject, d, hStands⟩
    refine ⟨d, documentAt?_eq_some_iff.2 ⟨p, ?_, hStands⟩⟩
    rw [hProject]
    exact hHere
  · rintro ⟨d, hFound⟩
    rcases documentAt?_eq_some_iff.1 hFound with
      ⟨p, hHere, hStands⟩
    have hKey := hWell.keyed place.project p hHere
    refine ⟨p, ?_, ?_⟩
    · rw [(mem_projectList hWell), hKey]
      exact hHere
    · exact
        (hWell.project place.project p hHere).mem_documentPlaces.2
          ⟨hKey.symm, d, hStands⟩

/- The places with a property that are in some projects. -/
theorem countP_documentPlaces_of
    (b : ProjectId → Bool)
    (c : DocumentPlace → Bool) :
    s.documentPlaces.countP
        (fun place => b place.project && c place) =
      ((s.projectList.filter (fun p => b p.id)).map
        (fun p => p.documentPlaces.countP c)).sum := by
  rw [countP_documentPlaces, sum_map_filter]
  congr 1
  apply List.map_congr_left
  intro p hP
  have hProject :=
    hWell.project p.id p ((mem_projectList hWell).1 hP)
  have hSame :
      p.documentPlaces.countP
          (fun place => b place.project && c place) =
        p.documentPlaces.countP
          (fun place => b p.id && c place) := by
    apply List.countP_congr
    intro place hPlace
    rw [(hProject.mem_documentPlaces.1 hPlace).1]
  rw [hSame]
  cases b p.id with
  | false => simp
  | true => simp

/- No place is listed twice. -/
theorem nodup_documentPlaces :
    s.documentPlaces.Nodup := by
  have hIds : (s.projectList.map Project.id).Nodup :=
    hWell.isKeyed.nodup_values
  have hProject :
      ∀ p ∈ s.projectList, p.WellFormed :=
    fun p hP => hWell.project p.id p ((mem_projectList hWell).1 hP)
  unfold documentPlaces
  rw [List.nodup_flatMap]
  constructor
  · exact fun p hP => (hProject p hP).nodup_documentPlaces
  · unfold List.Nodup at hIds
    rw [List.pairwise_map] at hIds
    apply hIds.imp_of_mem
    intro p q hP hQ hNe place hHere hThere
    have hLeft :=
      ((hProject p hP).mem_documentPlaces.1 hHere).1
    have hRight :=
      ((hProject q hQ).mem_documentPlaces.1 hThere).1
    exact hNe (hLeft.symm.trans hRight)

end WellFormed

end Solution

end SnapTree
