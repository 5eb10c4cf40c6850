import SnapTree.Proofs.Exchange.Supply

/-
  This file proves what is known once whole trees of documents
  and projects were fetched: all their assets.

  Key definitions include:
    * `assetsOfDocuments`
    * `assetsOfProjects`

  Key theorems include:
    * `Supply.gives_fetchDocuments`
    * `Supply.gives_fetchProjects`
-/

namespace SnapTree

/- The assets of some documents. -/
def assetsOfDocuments
    (ds : List Document) : Set Asset :=
  {a | ∃ d ∈ ds, a ∈ d.assets}

/- The assets of some projects. -/
def assetsOfProjects
    (ps : List Project) : Set Asset :=
  {a | ∃ p ∈ ps, a ∈ p.assets}

theorem map_checksum_documents
    (ds : List Document) :
    ds.map Document.checksum =
      (ds.map Document.node).map AssetValue.checksum := by
  rw [List.map_map]
  apply List.map_congr_left
  intro d _
  exact d.checksum_toAsset_node.symm

theorem map_checksum_projects
    (ps : List Project) :
    ps.map Project.checksum =
      (ps.map Project.node).map AssetValue.checksum := by
  rw [List.map_map]
  apply List.map_congr_left
  intro p _
  exact p.checksum_toAsset_node.symm

/- What is named by the node of each project is named by all. -/
theorem flatMap_node
    {β : Type}
    {children : ProjectNode → List Checksum}
    {parts : Project → List β}
    {check : β → Checksum}
    (hNode : ∀ p : Project, children p.node = (parts p).map check)
    (ps : List Project) :
    (ps.map Project.node).flatMap children =
      (ps.flatMap parts).map check := by
  rw [List.flatMap_map, List.map_flatMap]
  apply List.flatMap_congr
  intro p _
  exact hNode p

namespace Supply

variable {link : Link} (S : Supply link)
variable {K : Set Asset}

section Values

variable
  {α : Type}
  [AssetValue α]
  [LawfulValue α]
  {vs : List α}

/- Known values are read in the order in which they are named. -/
theorem gives_mapM_cached
    (hKnown : ∀ v ∈ vs, AssetValue.toAsset v ∈ K) :
    S.Gives K
      ((vs.map AssetValue.checksum).mapM
        (Run.cached : Checksum → Run AssetError α))
      True vs K S.lack := by
  rw [List.mapM_map]
  have hEach :
      S.Gives K (vs.mapM (Run.cached ∘ AssetValue.checksum))
        True (vs.map id) K S.lack := by
    apply Gives.mapM
    intro v hV
    exact S.gives_cached (hKnown v hV)
  rw [List.map_id] at hEach
  exact hEach

omit [LawfulValue α] in
/- Wanted values are asked for together. -/
theorem spec_prefetch_values
    (hWanted : ∀ v ∈ vs, AssetValue.toAsset v ∈ S.wanted) :
    Run.Spec (S.knows K)
      (link.prefetch (vs.map AssetValue.checksum))
      (fun _ =>
        S.knows (K ∪ {a | ∃ v ∈ vs, AssetValue.toAsset v = a}))
      S.lack := by
  have hAssets :
      ∀ a ∈ vs.map AssetValue.toAsset, a ∈ S.wanted := by
    intro a hA
    rcases List.mem_map.1 hA with ⟨v, hV, rfl⟩
    exact hWanted v hV
  have hAsk := S.spec_prefetch (K := K) hAssets
  rw [List.map_map] at hAsk
  apply Run.Spec.conseq hAsk (fun _ h => h) ?_ (fun _ h => h)
  intro _ s hKnows
  apply S.mono ?_ hKnows
  rintro a (hA | hA)
  · exact Or.inl hA
  · exact Or.inr (List.mem_map.2 hA)

end Values

------------------------------------------------------------
-- Documents
------------------------------------------------------------

section Documents

variable
  {ds : List Document}
  (hWanted : ∀ d ∈ ds, ∀ a ∈ d.assets, a ∈ S.wanted)

include hWanted

/- Attributes and texts of documents whose nodes are known. -/
theorem gives_fetchLeaves
    (hKnown : ∀ d ∈ ds, Asset.documentNode d.node ∈ K) :
    S.Gives K (link.fetchLeaves (ds.map Document.checksum)) True
      () (K ∪ assetsOfDocuments ds) S.lack := by
  let leaves :=
    ds.flatMap (fun d =>
      [Asset.documentAttributes d.attributes, Asset.text d.text])
  have hRead :
      S.Gives K
        ((ds.map Document.checksum).mapM
          (Run.cached : Checksum → Run AssetError DocumentNode))
        True (ds.map Document.node) K S.lack := by
    rw [map_checksum_documents]
    apply S.gives_mapM_cached
    intro n hN
    rcases List.mem_map.1 hN with ⟨d, hD, rfl⟩
    exact hKnown d hD
  have hAsk :
      Run.Spec (S.knows K)
        (link.prefetch ((ds.map Document.node).flatMap
          (fun n => [n.attributes, n.text])))
        (fun _ => S.knows (K ∪ {a | a ∈ leaves})) S.lack := by
    have hLeaves :
        (ds.map Document.node).flatMap
            (fun n => [n.attributes, n.text]) =
          leaves.map Asset.checksum := by
      rw [List.flatMap_map, List.map_flatMap]
      rfl
    rw [hLeaves]
    apply S.spec_prefetch
    intro a hA
    rcases List.mem_flatMap.1 hA with ⟨d, hD, hA⟩
    exact hWanted d hD a (List.mem_cons_of_mem _ hA)
  unfold Link.fetchLeaves
  apply hRead.bind
  apply Run.Spec.bind hAsk
  intro _
  apply (Gives.of_pure ()).keep
  rintro a (hA | ⟨d, hD, hA⟩)
  · exact Or.inl hA
  · rcases List.mem_cons.1 hA with rfl | hA
    · exact Or.inl (hKnown d hD)
    · exact Or.inr (List.mem_flatMap.2 ⟨d, hD, hA⟩)

/- Whole trees of documents. -/
theorem gives_fetchDocuments :
    S.Gives K (link.fetchDocuments (ds.map Document.checksum))
      True () (K ∪ assetsOfDocuments ds) S.lack := by
  unfold Link.fetchDocuments
  by_cases hNone : ds = []
  · subst hNone
    apply (Gives.of_pure ()).keep
    rintro a (hA | ⟨d, hD, -⟩)
    · exact hA
    · cases hD
  · have hSome : (ds.map Document.checksum).isEmpty = false := by
      simpa using hNone
    rw [hSome]
    have hNodes :
        ∀ n ∈ ds.map Document.node,
          AssetValue.toAsset n ∈ S.wanted := by
      intro n hN
      rcases List.mem_map.1 hN with ⟨d, hD, rfl⟩
      exact hWanted d hD _ List.mem_cons_self
    have hAsk := S.spec_prefetch_values (K := K) hNodes
    rw [← map_checksum_documents] at hAsk
    apply Run.Spec.bind hAsk
    intro _
    refine Gives.keep (S.gives_fetchLeaves hWanted ?_) ?_
    · intro d hD
      exact Or.inr ⟨d.node, List.mem_map_of_mem hD, rfl⟩
    · rintro a (hA | hA)
      · exact Or.inl (Or.inl hA)
      · exact Or.inr hA

end Documents

------------------------------------------------------------
-- Projects
------------------------------------------------------------

section Projects

variable
  {ps : List Project}
  (hWanted : ∀ p ∈ ps, ∀ a ∈ p.assets, a ∈ S.wanted)

include hWanted

/- Values and documents of projects whose nodes are known. -/
theorem gives_fetchParts
    (hKnown : ∀ p ∈ ps, Asset.projectNode p.node ∈ K) :
    S.Gives K
      (do
        let nodes : List ProjectNode ←
          (ps.map Project.checksum).mapM Run.cached
        let documents := nodes.flatMap ProjectNode.allDocuments
        let _ ← link.prefetch
          (nodes.flatMap ProjectNode.valueChildren ++ documents)
        link.fetchLeaves documents)
      True () (K ∪ assetsOfProjects ps) S.lack := by
  let ds := ps.flatMap Project.allDocuments
  let parts :=
    ps.flatMap Project.values ++
      ds.map (fun d => Asset.documentNode d.node)
  have hRead :
      S.Gives K
        ((ps.map Project.checksum).mapM
          (Run.cached : Checksum → Run AssetError ProjectNode))
        True (ps.map Project.node) K S.lack := by
    rw [map_checksum_projects]
    apply S.gives_mapM_cached
    intro n hN
    rcases List.mem_map.1 hN with ⟨p, hP, rfl⟩
    exact hKnown p hP
  have hDocuments :
      (ps.map Project.node).flatMap ProjectNode.allDocuments =
        ds.map Document.checksum :=
    flatMap_node Project.allDocuments_node ps
  have hParts :
      (ps.map Project.node).flatMap ProjectNode.valueChildren ++
          ds.map Document.checksum =
        parts.map Asset.checksum := by
    rw [flatMap_node Project.valueChildren_node,
      List.map_append, List.map_map]
    rfl
  have hDocumentsWanted :
      ∀ d ∈ ds, ∀ a ∈ d.assets, a ∈ S.wanted := by
    intro d hD a hA
    rcases List.mem_flatMap.1 hD with ⟨p, hP, hD⟩
    exact hWanted p hP a
      (Project.mem_assets_iff.2 (Or.inr (Or.inr ⟨d, hD, hA⟩)))
  have hAsk :
      Run.Spec (S.knows K)
        (link.prefetch
          ((ps.map Project.node).flatMap
              ProjectNode.valueChildren ++
            ds.map Document.checksum))
        (fun _ => S.knows (K ∪ {a | a ∈ parts})) S.lack := by
    rw [hParts]
    apply S.spec_prefetch
    intro a hA
    rcases List.mem_append.1 hA with hA | hA
    · rcases List.mem_flatMap.1 hA with ⟨p, hP, hA⟩
      exact hWanted p hP a
        (Project.mem_assets_iff.2 (Or.inr (Or.inl hA)))
    · rcases List.mem_map.1 hA with ⟨d, hD, rfl⟩
      exact hDocumentsWanted d hD _ List.mem_cons_self
  apply hRead.bind
  dsimp only
  rw [hDocuments]
  apply Run.Spec.bind hAsk
  intro _
  refine Gives.keep (S.gives_fetchLeaves hDocumentsWanted ?_) ?_
  · intro d hD
    exact Or.inr (List.mem_append_right _
      (List.mem_map.2 ⟨d, hD, rfl⟩))
  · rintro a (hA | ⟨p, hP, hA⟩)
    · exact Or.inl (Or.inl hA)
    · rcases Project.mem_assets_iff.1 hA with
        rfl | hA | ⟨d, hD, hA⟩
      · exact Or.inl (Or.inl (hKnown p hP))
      · exact Or.inl (Or.inr (List.mem_append_left _
          (List.mem_flatMap.2 ⟨p, hP, hA⟩)))
      · exact Or.inr
          ⟨d, List.mem_flatMap.2 ⟨p, hP, hD⟩, hA⟩

/- Whole trees of projects. -/
theorem gives_fetchProjects :
    S.Gives K (link.fetchProjects (ps.map Project.checksum))
      True () (K ∪ assetsOfProjects ps) S.lack := by
  unfold Link.fetchProjects
  by_cases hNone : ps = []
  · subst hNone
    apply (Gives.of_pure ()).keep
    rintro a (hA | ⟨p, hP, -⟩)
    · exact hA
    · cases hP
  · have hSome : (ps.map Project.checksum).isEmpty = false := by
      simpa using hNone
    rw [hSome]
    have hNodes :
        ∀ n ∈ ps.map Project.node,
          AssetValue.toAsset n ∈ S.wanted := by
      intro n hN
      rcases List.mem_map.1 hN with ⟨p, hP, rfl⟩
      exact hWanted p hP _ List.mem_cons_self
    have hAsk := S.spec_prefetch_values (K := K) hNodes
    rw [← map_checksum_projects] at hAsk
    apply Run.Spec.bind hAsk
    intro _
    refine Gives.keep (S.gives_fetchParts hWanted ?_) ?_
    · intro p hP
      exact Or.inr ⟨p.node, List.mem_map_of_mem hP, rfl⟩
    · rintro a (hA | hA)
      · exact Or.inl (Or.inl hA)
      · exact Or.inr hA

end Projects

end Supply

end SnapTree
