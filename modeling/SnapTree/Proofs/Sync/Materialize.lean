import SnapTree.Proofs.Exchange.Trees
import SnapTree.Sync.Materialize

/-
  This file proves that descriptions are made faithfully of
  the assets that a checksum tree names: a document, a project
  or a frozen document comes out as it was published.

  Key definitions include:
    * `Project.skipped`

  Key theorems include:
    * `Supply.gives_documentDescription`
    * `Supply.gives_fetchFrozen`
    * `Supply.gives_projectDescription`
-/

namespace SnapTree

/- What is said about a project that is left out. -/
def Project.skipped
    (p : Project) : SkippedProject :=
  ⟨p.id, p.attributes.name, p.attributes.language⟩

namespace Supply

variable {sync : Synchronizer} (S : Supply sync.link)
variable {K : Set Asset} {fail : SyncError → Prop}
variable (hLack : ∀ e, S.lack e → fail (.ofAsset e))

------------------------------------------------------------
-- Single steps
------------------------------------------------------------

include hLack

theorem gives_checkCancelled :
    S.Gives K sync.checkCancelled True () K fail := by
  have hCheck :
      S.Gives K sync.link.checkCancelled True () K S.lack :=
    (S.checkCancelled K).conseq (fun _ h => h)
      (fun _ _ h => ⟨⟨trivial, rfl⟩, h⟩) (fun _ h => h)
  exact hCheck.failingAs hLack

theorem gives_prefetch_step
    {as : List Asset}
    (hWanted : ∀ a ∈ as, a ∈ S.wanted) :
    S.Gives K (sync.prefetch (as.map Asset.checksum)) True ()
      (K ∪ {a | a ∈ as}) fail :=
  (S.gives_prefetch hWanted).failingAs hLack

section Values

variable
  {α : Type}
  [AssetValue α]
  [LawfulValue α]

theorem gives_fetch
    {v : α}
    (hWanted : AssetValue.toAsset v ∈ S.wanted) :
    S.Gives K (sync.fetch (AssetValue.checksum v)) True v
      (insert (AssetValue.toAsset v) K) fail :=
  (S.gives_get hWanted).failingAs hLack

theorem gives_cached_step
    {v : α}
    (hKnown : AssetValue.toAsset v ∈ K) :
    S.Gives K (SyncRun.cached (AssetValue.checksum v)) True v K
      fail :=
  (S.gives_cached hKnown).failingAs hLack

/- The values of a collection whose members are known. -/
theorem gives_cachedValues
    {vs : List α}
    {c : Collection}
    (hMembers : c.members = vs.map AssetValue.checksum)
    (hKnown : ∀ v ∈ vs, AssetValue.toAsset v ∈ K) :
    S.Gives K (Synchronizer.cachedValues c) True vs K fail := by
  unfold Synchronizer.cachedValues
  rw [hMembers, List.mapM_map]
  have hEach :
      S.Gives K (vs.mapM (SyncRun.cached ∘ AssetValue.checksum))
        True (vs.map id) K fail := by
    apply Gives.mapM
    intro v hV
    exact S.gives_cached_step hLack (hKnown v hV)
  rw [List.map_id] at hEach
  exact hEach

end Values

------------------------------------------------------------
-- References
------------------------------------------------------------

omit hLack in
/- Remembering references changes nothing else. -/
theorem gives_remember
    {α : Type}
    (v : α)
    (f : ReferenceCache → ReferenceCache) :
    S.Gives K
      (do
        modify (fun s =>
          { s with references := f s.references })
        pure v : SyncRun α)
      True v K fail := by
  constructor
  intro s hKnows
  exact ⟨⟨trivial, rfl⟩, S.references _ hKnows⟩

theorem gives_metadataReferences
    {c : Collection}
    {rs : List MetadataReference}
    (hMembers : c.members = rs.map AssetValue.checksum)
    (hKnown : ∀ r ∈ rs, Asset.metadataReference r ∈ K) :
    S.Gives K (Synchronizer.metadataReferences c) True rs K
      fail :=
  (S.gives_cachedValues hLack hMembers hKnown).bind
    (S.gives_remember rs (fun c => c.addMetadata rs))

theorem gives_analyzerReferences
    {c : Collection}
    {rs : List AnalyzerReference}
    (hMembers : c.members = rs.map AssetValue.checksum)
    (hKnown : ∀ r ∈ rs, Asset.analyzerReference r ∈ K) :
    S.Gives K (Synchronizer.analyzerReferences c) True rs K
      fail :=
  (S.gives_cachedValues hLack hMembers hKnown).bind
    (S.gives_remember rs (fun c => c.addAnalyzers rs))

theorem gives_fetchAnalyzerReferences
    {c : Collection}
    {rs : List AnalyzerReference}
    (hMembers : c.members = rs.map AssetValue.checksum)
    (hWanted :
      ∀ r ∈ rs, Asset.analyzerReference r ∈ S.wanted) :
    S.Gives K (sync.fetchAnalyzerReferences c) True rs
      (K ∪ {a | a ∈ rs.map Asset.analyzerReference}) fail := by
  have hChecksums :
      c.members =
        (rs.map Asset.analyzerReference).map
          Asset.checksum := by
    rw [hMembers, List.map_map]
    rfl
  have hAssets :
      ∀ a ∈ rs.map Asset.analyzerReference,
        a ∈ S.wanted := by
    intro a hA
    rcases List.mem_map.1 hA with ⟨r, hR, rfl⟩
    exact hWanted r hR
  have hAsk := S.gives_prefetch_step (K := K) hLack hAssets
  rw [← hChecksums] at hAsk
  unfold Synchronizer.fetchAnalyzerReferences
  apply hAsk.bind
  apply S.gives_analyzerReferences hLack hMembers
  intro r hR
  exact Or.inr (List.mem_map_of_mem hR)

------------------------------------------------------------
-- Documents
------------------------------------------------------------

/- A document whose assets are known is described. -/
theorem gives_cachedDocument
    {d : Document}
    (hKnown : ∀ a ∈ d.assets, a ∈ K) :
    S.Gives K (Synchronizer.cachedDocument d.checksum) True
      d.describe K fail := by
  rcases Document.forall_mem_assets.1 hKnown with
    ⟨hKnownNode, hKnownAttributes, hKnownText⟩
  have hNode :
      S.Gives K (SyncRun.cached d.checksum) True d.node K
        fail := by
    rw [← d.checksum_toAsset_node]
    exact S.gives_cached_step hLack hKnownNode
  have hAttributes :
      S.Gives K (SyncRun.cached d.node.attributes) True
        d.attributes K fail :=
    S.gives_cached_step hLack hKnownAttributes
  have hText :
      S.Gives K (SyncRun.cached d.node.text) True d.text K
        fail :=
    S.gives_cached_step hLack hKnownText
  unfold Synchronizer.cachedDocument
  apply hNode.bind
  apply hAttributes.bind
  apply hText.bind
  exact Gives.of_pure d.describe

/- A document whose assets are wanted is described. -/
theorem gives_documentDescription
    {d : Document}
    (hWanted : ∀ a ∈ d.assets, a ∈ S.wanted) :
    S.Gives K (sync.documentDescription d.checksum) True
      d.describe (K ∪ assetsOfDocuments [d]) fail := by
  have hTrees :
      S.Gives K (sync.link.fetchDocuments [d.checksum]) True ()
        (K ∪ assetsOfDocuments [d]) S.lack := by
    have hAll : ∀ e ∈ [d], ∀ a ∈ e.assets, a ∈ S.wanted := by
      intro e hE
      rw [List.mem_singleton.1 hE]
      exact hWanted
    exact S.gives_fetchDocuments hAll
  unfold Synchronizer.documentDescription
  apply (hTrees.failingAs hLack).bind
  apply S.gives_cachedDocument hLack
  intro a hA
  exact Or.inr ⟨d, List.mem_singleton_self d, hA⟩

/- The documents of a list whose assets are all known. -/
theorem gives_mapM_cachedDocument
    {cs : List Checksum}
    {ds : List Document}
    (hMembers : cs = ds.map Document.checksum)
    (hKnown : ∀ d ∈ ds, ∀ a ∈ d.assets, a ∈ K) :
    S.Gives K (cs.mapM Synchronizer.cachedDocument) True
      (ds.map Document.describe) K fail := by
  rw [hMembers, List.mapM_map]
  apply Gives.mapM
  intro d hD
  exact S.gives_cachedDocument hLack (hKnown d hD)

/- Both halves of a frozen document. -/
theorem gives_fetchFrozen
    {f : FrozenDocument}
    (hWanted : ∀ a ∈ f.assets, a ∈ S.wanted) :
    S.Gives K
      (sync.fetchFrozen (AssetValue.checksum f.identity)
        (AssetValue.checksum f.text))
      True f (K ∪ {a | a ∈ f.assets}) fail := by
  have hAsk :
      S.Gives K
        (sync.prefetch
          [AssetValue.checksum f.identity,
            AssetValue.checksum f.text])
        True () (K ∪ {a | a ∈ f.assets}) fail := by
    have hChecksums :
        [AssetValue.checksum f.identity,
            AssetValue.checksum f.text] =
          f.assets.map Asset.checksum := by
      unfold FrozenDocument.assets
      rfl
    rw [hChecksums]
    exact S.gives_prefetch_step hLack hWanted
  have hIdentity :
      S.Gives (K ∪ {a | a ∈ f.assets})
        (SyncRun.cached (AssetValue.checksum f.identity)) True
        f.identity (K ∪ {a | a ∈ f.assets}) fail := by
    apply S.gives_cached_step hLack
    exact Or.inr (by simp [FrozenDocument.assets,
      AssetValue.toAsset])
  have hText :
      S.Gives (K ∪ {a | a ∈ f.assets})
        (SyncRun.cached (AssetValue.checksum f.text)) True
        f.text (K ∪ {a | a ∈ f.assets}) fail := by
    apply S.gives_cached_step hLack
    exact Or.inr (by simp [FrozenDocument.assets,
      AssetValue.toAsset])
  unfold Synchronizer.fetchFrozen
  apply hAsk.bind
  apply hIdentity.bind
  apply hText.bind
  exact Gives.of_pure f

------------------------------------------------------------
-- Projects
------------------------------------------------------------

/- A project that is left out is named in the report. -/
theorem gives_skippedProject
    {p : Project}
    (hNode : Asset.projectNode p.node ∈ K)
    (hAttributes : Asset.projectAttributes p.attributes ∈ K) :
    S.Gives K (Synchronizer.skippedProject p.checksum) True
      p.skipped K fail := by
  have hReadNode :
      S.Gives K (SyncRun.cached p.checksum) True p.node K
        fail := by
    rw [← p.checksum_toAsset_node]
    exact S.gives_cached_step hLack hNode
  have hReadAttributes :
      S.Gives K (SyncRun.cached p.node.attributes) True
        p.attributes K fail := by
    rw [p.attributes_node]
    exact S.gives_cached_step hLack hAttributes
  unfold Synchronizer.skippedProject
  apply hReadNode.bind
  apply hReadAttributes.bind
  exact Gives.of_pure p.skipped

/- A project whose assets are known is described. -/
theorem gives_cachedProject
    {p : Project}
    (hKnown : ∀ a ∈ p.assets, a ∈ K) :
    S.Gives K (Synchronizer.cachedProject p.node p.attributes)
      True p.describe K fail := by
  rcases Project.forall_mem_assets.1 hKnown with
    ⟨-, -, hCompilation, hParse, hProjects, hMetadata,
      hAnalyzers, hDocuments⟩
  have hReadDocuments :
      ∀ kind,
        S.Gives K
          ((p.node.documents.get kind).members.mapM
            Synchronizer.cachedDocument)
          True ((p.documentsOf kind).map Document.describe) K
          fail := by
    intro kind
    apply S.gives_mapM_cachedDocument hLack
    · rw [p.documents_node, Collection.members_of]
    · exact hDocuments kind
  have hReadCompilation :
      S.Gives K (SyncRun.cached p.node.compilationOptions) True
        p.compilationOptions K fail := by
    rw [p.compilationOptions_node]
    exact S.gives_cached_step hLack hCompilation
  have hReadParse :
      S.Gives K (SyncRun.cached p.node.parseOptions) True
        p.parseOptions K fail := by
    rw [p.parseOptions_node]
    exact S.gives_cached_step hLack hParse
  apply hReadCompilation.bind
  apply hReadParse.bind
  apply (S.gives_cachedValues hLack (c := p.node.projectReferences)
    (by simp) hProjects).bind
  apply (S.gives_metadataReferences hLack
    (c := p.node.metadataReferences) (by simp) hMetadata).bind
  apply (S.gives_analyzerReferences hLack
    (c := p.node.analyzerReferences) (by simp) hAnalyzers).bind
  apply (hReadDocuments .ordinary).bind
  apply (hReadDocuments .additional).bind
  apply (hReadDocuments .analyzerConfig).bind
  exact Gives.of_pure p.describe

/-
  A project is described from its assets, if projects of its
  language can be held.
-/
theorem gives_projectDescription
    {p : Project}
    (hNode : Asset.projectNode p.node ∈ S.wanted)
    (hAttributes :
      Asset.projectAttributes p.attributes ∈ S.wanted)
    (hWanted :
      sync.settings.supports p.attributes.language = true →
        ∀ a ∈ p.assets, a ∈ S.wanted) :
    S.Gives K (sync.projectDescription p.checksum) True
      (if sync.settings.supports p.attributes.language then
        some p.describe
      else none)
      (K ∪ {.projectNode p.node,
        .projectAttributes p.attributes})
      fail := by
  have hFetchNode :
      S.Gives K (sync.fetch p.checksum) True p.node
        (insert (.projectNode p.node) K) fail := by
    rw [← p.checksum_toAsset_node]
    exact S.gives_fetch hLack hNode
  have hFetchAttributes :
      S.Gives (insert (.projectNode p.node) K)
        (sync.fetch p.node.attributes) True p.attributes
        (insert (.projectAttributes p.attributes)
          (insert (.projectNode p.node) K)) fail := by
    rw [p.attributes_node]
    exact S.gives_fetch hLack hAttributes
  have hBoth :
      K ∪ {.projectNode p.node,
          .projectAttributes p.attributes} ⊆
        insert (.projectAttributes p.attributes)
          (insert (.projectNode p.node) K) := by
    rintro a (hA | rfl | rfl)
    · exact Or.inr (Or.inr hA)
    · exact Or.inr (Or.inl rfl)
    · exact Or.inl rfl
  unfold Synchronizer.projectDescription
  apply hFetchNode.bind
  apply hFetchAttributes.bind
  by_cases hSupported :
      sync.settings.supports p.attributes.language = true
  · rw [hSupported]
    have hTrees :
        S.Gives (K ∪ {.projectNode p.node,
            .projectAttributes p.attributes})
          (sync.link.fetchProjects [p.checksum]) True ()
          (K ∪ {.projectNode p.node,
            .projectAttributes p.attributes} ∪
              assetsOfProjects [p]) S.lack := by
      have hAll :
          ∀ q ∈ [p], ∀ a ∈ q.assets, a ∈ S.wanted := by
        intro q hQ
        rw [List.mem_singleton.1 hQ]
        exact hWanted hSupported
      exact S.gives_fetchProjects hAll
    refine Gives.conseq
      ((hTrees.failingAs hLack).bind
        (((S.gives_cachedProject hLack ?_).keep ?_).bind
          (Gives.of_pure (some p.describe))))
      hBoth id subset_rfl (fun _ h => h)
    · intro a hA
      exact Or.inr ⟨p, List.mem_singleton_self p, hA⟩
    · exact fun a hA => Or.inl hA
  · rw [Bool.not_eq_true] at hSupported
    rw [hSupported]
    exact (Gives.of_pure none).keep hBoth

end Supply

end SnapTree
