import SnapTree.Proofs.Data.Results
import SnapTree.Proofs.Workspace.Documents
import Mathlib.Data.List.Pairwise

/-
  This file proves which descriptions of projects are accepted
  and what is made of them.  A project is made again of its
  own description.

  Key definitions include:
    * `ProjectDescription.documentIds`
    * `ProjectDescription.project`

  Key theorems include:
    * `Project.ofDescription_eq_ok_iff`
    * `Project.wellFormed_project`
    * `Project.WellFormed.ofDescription_describe`
-/

namespace SnapTree

namespace ProjectDescription

/- The identities of all documents described, kind by kind. -/
def documentIds
    (d : ProjectDescription) : List DocumentId :=
  DocumentKind.all.flatMap
    (fun kind =>
      (d.documents.get kind).map DocumentDescription.id)

/- The project described, if no two documents share a name. -/
def project
    (d : ProjectDescription) : Project where
  attributes := d.attributes
  compilationOptions := d.compilationOptions
  parseOptions := d.parseOptions
  projectReferences := d.projectReferences
  metadataReferences := d.metadataReferences
  analyzerReferences := d.analyzerReferences
  documents :=
    .ofFn (fun kind =>
      DocumentMap.including kind ∅ (d.documents.get kind))

end ProjectDescription

namespace Project

/- A project whose documents of one kind are replaced. -/
def withMap
    (p : Project)
    (kind : DocumentKind)
    (m : DocumentMap) : Project :=
  { p with documents := p.documents.set kind m }

/- Documents are found where they were or in the new map. -/
theorem containsDocument_withMap
    {p : Project}
    {kind : DocumentKind}
    (hEmpty : p.documents.get kind = ∅)
    (m : DocumentMap)
    (id : DocumentId) :
    (p.withMap kind m).containsDocument id = true ↔
      id ∈ m ∨ p.containsDocument id = true := by
  rw [containsDocument_iff, containsDocument_iff]
  unfold withMap
  dsimp only
  constructor
  · rintro ⟨other, hOther⟩
    by_cases hKind : other = kind
    · subst hKind
      rw [ByKind.get_set_self] at hOther
      exact Or.inl hOther
    · rw [ByKind.get_set_of_ne _ hKind] at hOther
      exact Or.inr ⟨other, hOther⟩
  · rintro (hNew | ⟨other, hOther⟩)
    · exact ⟨kind, by rwa [ByKind.get_set_self]⟩
    · refine ⟨other, ?_⟩
      have hKind : other ≠ kind := by
        rintro rfl
        simp [hEmpty] at hOther
      rwa [ByKind.get_set_of_ne _ hKind]

/-
  A project takes the documents of a kind exactly if their
  identities are distinct and no other kind has them.
-/
theorem fill_eq_ok_iff
    {p q : Project}
    {kind : DocumentKind}
    {ds : List DocumentDescription} :
    p.fill kind ds = .ok q ↔
      (ds.map DocumentDescription.id).Nodup ∧
        (∀ d ∈ ds, p.containsDocument d.id = false) ∧
          q = p.withMap kind
            (DocumentMap.including kind ∅ ds) := by
  unfold fill
  rw [bind_eq_ok_iff]
  constructor
  · rintro ⟨m, hExtend, hOk⟩
    rcases DocumentMap.extend_eq_ok_iff.1 hExtend with
      ⟨hNodup, -, rfl⟩
    split at hOk
    · cases hOk
    · next hNone =>
        refine ⟨hNodup, ?_, (Except.ok.inj hOk).symm⟩
        intro d hD
        have hKey :
            d.id ∈ (DocumentMap.including kind ∅ ds).keys := by
          rw [Std.ExtTreeMap.mem_keys, DocumentMap.mem_including]
          exact Or.inl (List.mem_map_of_mem hD)
        simpa using List.find?_eq_none.1 hNone d.id hKey
  · rintro ⟨hNodup, hFree, rfl⟩
    refine ⟨_, DocumentMap.extend_eq_ok_iff.2
      ⟨hNodup, by simp, rfl⟩, ?_⟩
    split
    · next id hSome =>
        have hMem := List.mem_of_find?_eq_some hSome
        have hTaken := List.find?_some hSome
        rw [Std.ExtTreeMap.mem_keys, DocumentMap.mem_including]
          at hMem
        rcases hMem with hNew | hNone
        · rcases List.mem_map.1 hNew with ⟨d, hD, rfl⟩
          rw [hFree d hD] at hTaken
          cases hTaken
        · simp at hNone
    · rfl

/-
  A project takes the documents of several kinds, none of
  which it has yet, exactly if their identities are distinct
  and not taken.
-/
theorem foldlM_fill_eq_ok_iff
    {kinds : List DocumentKind}
    (documents : DocumentKind → List DocumentDescription)
    (hKinds : kinds.Nodup)
    {p q : Project}
    (hEmpty : ∀ kind ∈ kinds, p.documents.get kind = ∅) :
    kinds.foldlM (fun p kind => p.fill kind (documents kind)) p =
        .ok q ↔
      (kinds.flatMap (fun kind =>
          (documents kind).map DocumentDescription.id)).Nodup ∧
        (∀ kind ∈ kinds, ∀ d ∈ documents kind,
          p.containsDocument d.id = false) ∧
          q = kinds.foldl (fun p kind =>
            p.withMap kind
              (DocumentMap.including kind ∅ (documents kind))) p := by
  induction kinds generalizing p with
  | nil =>
      rw [List.foldlM_nil]
      simp only [List.flatMap_nil, List.nodup_nil,
        List.not_mem_nil, false_implies, implies_true,
        List.foldl_nil, true_and]
      exact ⟨fun h => (Except.ok.inj h).symm,
        fun h => congrArg Except.ok h.symm⟩
  | cons kind kinds ih =>
      rw [List.nodup_cons] at hKinds
      have hHere := hEmpty kind List.mem_cons_self
      have hRest :
          ∀ m, ∀ other ∈ kinds,
            (p.withMap kind m).documents.get other = ∅ := by
        intro m other hOther
        have hNe : other ≠ kind := by
          rintro rfl
          exact hKinds.1 hOther
        unfold withMap
        dsimp only
        rw [ByKind.get_set_of_ne _ hNe]
        exact hEmpty other (List.mem_cons_of_mem _ hOther)
      have hFree :
          ∀ d : DocumentDescription,
            (p.withMap kind (DocumentMap.including kind ∅
              (documents kind))).containsDocument d.id = false ↔
            d.id ∉ (documents kind).map DocumentDescription.id ∧
              p.containsDocument d.id = false := by
        intro d
        rw [← Bool.not_eq_true, containsDocument_withMap hHere,
          DocumentMap.mem_including, ← Bool.not_eq_true]
        simp
      rw [List.foldlM_cons, bind_eq_ok_iff, List.flatMap_cons,
        List.nodup_append, List.foldl_cons]
      constructor
      · rintro ⟨q', hFill, hOk⟩
        rcases fill_eq_ok_iff.1 hFill with ⟨hNodup, hNew, rfl⟩
        rcases (ih hKinds.2 (hRest _)).1 hOk with
          ⟨hNodups, hFrees, rfl⟩
        refine ⟨⟨hNodup, hNodups, ?_⟩, ?_, rfl⟩
        · intro a hA b hB hSame
          subst hSame
          rcases List.mem_flatMap.1 hB with ⟨other, hOther, hMem⟩
          rcases List.mem_map.1 hMem with ⟨d, hD, rfl⟩
          exact ((hFree d).1 (hFrees other hOther d hD)).1 hA
        · intro other hOther d hD
          rcases List.mem_cons.1 hOther with rfl | hTail
          · exact hNew d hD
          · exact ((hFree d).1 (hFrees other hTail d hD)).2
      · rintro ⟨⟨hNodup, hNodups, hDisjoint⟩, hFrees, rfl⟩
        refine ⟨_, fill_eq_ok_iff.2
          ⟨hNodup, hFrees kind List.mem_cons_self, rfl⟩, ?_⟩
        refine (ih hKinds.2 (hRest _)).2 ⟨hNodups, ?_, rfl⟩
        intro other hOther d hD
        refine (hFree d).2 ⟨?_, hFrees other
          (List.mem_cons_of_mem _ hOther) d hD⟩
        intro hMem
        refine hDisjoint _ hMem d.id ?_ rfl
        exact List.mem_flatMap.2
          ⟨other, hOther, List.mem_map_of_mem hD⟩

/-
  A description is accepted exactly if no two documents share
  a name, be it in different kinds.
-/
theorem ofDescription_eq_ok_iff
    {d : ProjectDescription}
    {p : Project} :
    ofDescription d = .ok p ↔
      d.documentIds.Nodup ∧ p = d.project := by
  unfold ofDescription
  rw [foldlM_fill_eq_ok_iff d.documents.get (by decide)
    (by intro kind _; cases kind <;> rfl)]
  constructor
  · rintro ⟨hNodup, -, rfl⟩
    exact ⟨hNodup, rfl⟩
  · rintro ⟨hNodup, rfl⟩
    refine ⟨hNodup, ?_, rfl⟩
    intro kind _ d _
    rw [← Bool.not_eq_true, containsDocument_iff]
    rintro ⟨other, hOther⟩
    cases other <;> simp [ByKind.get] at hOther

/- The projects of acceptable descriptions are in order. -/
theorem wellFormed_project
    {d : ProjectDescription}
    (hNodup : d.documentIds.Nodup) :
    d.project.WellFormed where
  keyed := by
    intro kind id x hX
    unfold ProjectDescription.project at hX
    dsimp only at hX
    rw [ByKind.get_ofFn] at hX
    have hKind :=
      (List.nodup_flatMap.1 hNodup).1 kind kind.mem_all
    rcases (getElem?_entering hKind).1 hX with
      ⟨y, -, rfl, rfl⟩ | ⟨-, hNone⟩
    · exact ⟨rfl, rfl⟩
    · simp at hNone
  apart := by
    intro kind other id hKind hOther
    unfold ProjectDescription.project at hKind hOther
    dsimp only at hKind hOther
    rw [ByKind.get_ofFn, DocumentMap.mem_including]
      at hKind hOther
    have hHere : id ∈ (d.documents.get kind).map
        DocumentDescription.id := by simpa using hKind
    have hThere : id ∈ (d.documents.get other).map
        DocumentDescription.id := by simpa using hOther
    by_contra hNe
    have hSymm : Std.Symm
        (Function.onFun List.Disjoint (fun kind =>
          (d.documents.get kind).map DocumentDescription.id)) :=
      ⟨fun _ _ hDisjoint _ hLeft hRight =>
        hDisjoint hRight hLeft⟩
    have hPairs := (List.nodup_flatMap.1 hNodup).2
    exact hPairs.forall kind.mem_all other.mem_all hNe hHere
      hThere

------------------------------------------------------------
-- Descriptions of projects
------------------------------------------------------------

namespace WellFormed

variable {p : Project}

/- The listed documents of a kind have the keys as names. -/
theorem map_id_documentsOf
    (hWell : p.WellFormed)
    (kind : DocumentKind) :
    (p.documentsOf kind).map Document.id =
      (p.documents.get kind).keys := by
  rw [← Std.ExtTreeMap.map_fst_toList_eq_keys, documentsOf,
    DocumentMap.documents, List.map_map]
  apply List.map_congr_left
  rintro ⟨id, d⟩ hEntry
  exact hWell.isKeyed kind id d
    (Std.ExtTreeMap.mem_toList_iff_getElem?_eq_some.1 hEntry)

theorem mem_documentsOf
    (hWell : p.WellFormed)
    {kind : DocumentKind}
    {d : Document} :
    d ∈ p.documentsOf kind ↔
      (p.documents.get kind)[d.id]? = some d := by
  constructor
  · intro hMem
    rcases exists_key_of_mem_values hMem with ⟨id, hId⟩
    rw [(hWell.keyed kind id d hId).1]
    exact hId
  · exact mem_values

/- No two documents of a project share a name. -/
theorem nodup_documentIds
    (hWell : p.WellFormed) :
    p.describe.documentIds.Nodup := by
  have hIds :
      ∀ kind, (p.describe.documents.get kind).map
          DocumentDescription.id =
        (p.documents.get kind).keys := by
    intro kind
    rw [describe, ByKind.get_ofFn, List.map_map,
      ← hWell.map_id_documentsOf kind]
    rfl
  unfold ProjectDescription.documentIds
  rw [List.nodup_flatMap]
  constructor
  · intro kind _
    rw [hIds]
    exact Std.ExtTreeMap.nodup_keys
  · refine List.Pairwise.imp ?_
      (show DocumentKind.all.Pairwise (· ≠ ·) by decide)
    intro kind other hNe id hKind hOther
    dsimp only at hKind hOther
    rw [hIds, Std.ExtTreeMap.mem_keys] at hKind hOther
    exact hNe (hWell.apart kind other id hKind hOther)

/- A map is made again of what it lists. -/
theorem including_documentsOf
    (hWell : p.WellFormed)
    (kind : DocumentKind) :
    DocumentMap.including kind ∅
        ((p.documentsOf kind).map Document.describe) =
      p.documents.get kind := by
  apply entering_eq
  · rw [List.map_map]
    exact (hWell.map_id_documentsOf kind).symm ▸
      Std.ExtTreeMap.nodup_keys
  · intro id d
    constructor
    · intro hStands
      rcases hWell.keyed kind id d hStands with ⟨hId, rfl⟩
      exact ⟨d.describe, List.mem_map_of_mem (mem_values hStands),
        hId, rfl⟩
    · rintro ⟨x, hX, rfl, rfl⟩
      rcases List.mem_map.1 hX with ⟨e, hE, rfl⟩
      have hStands := hWell.mem_documentsOf.1 hE
      rcases hWell.keyed kind e.id e hStands with ⟨-, rfl⟩
      exact hStands

/- A project is made again of its description. -/
theorem project_describe
    (hWell : p.WellFormed) :
    p.describe.project = p := by
  have hDocuments :
      p.describe.project.documents = p.documents := by
    apply ByKind.ext_get
    intro kind
    unfold ProjectDescription.project describe
    dsimp only
    rw [ByKind.get_ofFn, ByKind.get_ofFn]
    exact hWell.including_documentsOf kind
  cases p
  unfold ProjectDescription.project describe at hDocuments ⊢
  dsimp only at hDocuments ⊢
  rw [hDocuments]

theorem ofDescription_describe
    (hWell : p.WellFormed) :
    ofDescription p.describe = .ok p :=
  ofDescription_eq_ok_iff.2
    ⟨hWell.nodup_documentIds, hWell.project_describe.symm⟩

end WellFormed

end Project

end SnapTree
