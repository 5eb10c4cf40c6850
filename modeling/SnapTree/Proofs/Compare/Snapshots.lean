import SnapTree.Proofs.Compare.Contents
import SnapTree.Proofs.Sync.Rebuild

/-
  This file proves that two snapshots which were published into
  one store are compared exactly, although only their checksum
  trees are looked at.  What has a checksum on one side only is
  fetched and entered under its identity, which gives on each
  side what the other does not have as it is; and that tells
  all differences of the contents.

  Key theorems include:
    * `Supply.gives_arriving`
    * `Supply.gives_compareDocuments`
    * `Supply.gives_compareProjects`
    * `Supply.gives_compare`
-/

namespace SnapTree

/- Documents with different identities differ in attributes. -/
theorem Document.nodup_attributes
    {assets : Set Asset}
    (hFaithful : Faithful assets)
    {ds : List Document}
    (hAssets : ∀ d ∈ ds, ∀ a ∈ d.assets, a ∈ assets)
    (hIds : (ds.map Document.id).Nodup) :
    ((ds.map Document.attributes).map
      AssetValue.checksum).Nodup := by
  have hKnown :
      ∀ d ∈ ds, AssetValue.toAsset d.attributes ∈ assets :=
    fun d hD => (Document.forall_mem_assets.1 (hAssets d hD)).2.1
  rw [List.map_map]
  apply List.Nodup.map_on ?_ hIds.of_map
  intro d hD e hE hSame
  apply List.inj_on_of_nodup_map hIds hD hE
  have hAttributes : d.attributes = e.attributes :=
    hFaithful.value_eq (hKnown d hD) (hKnown e hE) rfl rfl hSame
  unfold Document.id
  rw [hAttributes]

namespace Solution

variable
  {s t : Solution}
  (hS : s.WellFormed)
  (hT : t.WellFormed)

include hS hT

/- The projects on both sides that differ, as they are found. -/
theorem filterMap_departing :
    ((departing s.projects t.projects).map
        (fun _ p => (p.node, p.attributes))).toList.filterMap
        (fun entry =>
          ((departing t.projects s.projects).map
            (fun _ q => (q.node, q.attributes)))[entry.1]?.map
              (fun q => (entry.2.1, q))) =
      (changers s.projects t.projects).map
        (fun pair =>
          (pair.1.node, (pair.2.node, pair.2.attributes))) := by
  rw [changers_swap hT.isKeyed hS.isKeyed]
  unfold changers
  rw [List.map_map, List.map_filterMap,
    Std.ExtTreeMap.toList_map, List.filterMap_map]
  apply List.filterMap_congr
  rintro ⟨id, p⟩ -
  dsimp only [Function.comp]
  rw [Std.ExtTreeMap.getElem?_map, Option.map_map,
    Option.map_map]
  rfl

omit hS in
/- The projects on one side only, as they are found. -/
theorem map_filter_departing :
    (((departing t.projects s.projects).map
        (fun _ p => (p.node, p.attributes))).toList.filter
        (fun entry =>
          !((departing s.projects t.projects).map
            (fun _ q => (q.node, q.attributes))).contains
              entry.1)).map
        (fun entry =>
          (⟨entry.1, entry.2.2.name⟩ : ProjectEntry)) =
      (comers s.projects t.projects).map Project.entry := by
  simp only [Std.ExtTreeMap.contains_map]
  rw [filter_toList_departing hT.isKeyed, List.map_map]
  rfl

end Solution

namespace Supply

variable {link : Link} (S : Supply link)
variable {K : Set Asset}

/- Wanted assets are asked for, and what follows it. -/
theorem gives_prefetch_bind
    {α : Type}
    {as : List Asset}
    {f : Nat → Run AssetError α}
    {c : Prop}
    {v : α}
    {K' : Set Asset}
    (hWanted : ∀ a ∈ as, a ∈ S.wanted)
    (hThen :
      ∀ n, S.Gives (K ∪ {a | a ∈ as}) (f n) c v K' S.lack) :
    S.Gives K (link.prefetch (as.map Asset.checksum) >>= f) c v
      K' S.lack :=
  Run.Spec.bind (S.spec_prefetch hWanted) hThen

/-
  Where values are fetched by their checksums and entered under
  their keys, the checksums that are new give what arrives.
-/
theorem gives_arriving
    {κ β γ : Type}
    {cmp : κ → κ → Ordering}
    [Std.TransCmp cmp]
    [Std.LawfulEqCmp cmp]
    [DecidableEq β]
    {p q : Std.ExtTreeMap κ β cmp}
    {key : β → κ}
    {check : β → Checksum}
    (hTold : ToldApart check p q)
    (hP : IsKeyed key p)
    (hQ : IsKeyed key q)
    (value : β → γ)
    {fetch :
      List Checksum → Run AssetError (Std.ExtTreeMap κ γ cmp)}
    (hFetch :
      ∀ es : List β, (∀ e ∈ es, e ∈ q.toList.map Prod.snd) →
        (es.map check).Nodup → (es.map key).Nodup →
          S.Gives K (fetch (es.map check)) True
            (entering key value ∅ es) K S.lack) :
    S.Gives K (fetch (differenceOf check p q).addedOnly.toList)
      True ((departing q p).map (fun _ e => value e)) K
      S.lack := by
  rcases exists_arriving hTold hP hQ value with
    ⟨es, hMap, hNew, hChecks, hKeys, hEntered⟩
  have hThere : ∀ e ∈ es, e ∈ q.toList.map Prod.snd :=
    fun e hE => mem_values (getElem?_departing.1 (hNew e hE)).1
  have hGives := hFetch es hThere hChecks hKeys
  rw [hMap, hEntered] at hGives
  exact hGives

------------------------------------------------------------
-- Documents
------------------------------------------------------------

/- The attributes of documents, each under its identity. -/
theorem gives_documentsById
    (hFaithful : Faithful S.wanted)
    {ds : List Document}
    (hWanted : ∀ d ∈ ds, ∀ a ∈ d.assets, a ∈ S.wanted)
    (hChecksums : (ds.map Document.checksum).Nodup)
    (hIds : (ds.map Document.id).Nodup) :
    S.Gives K (link.documentsById (ds.map Document.checksum))
      True (entering Document.id Document.attributes ∅ ds) K
      S.lack := by
  let K₁ :=
    K ∪ {a | a ∈ (ds.map Document.node).map AssetValue.toAsset}
  let K₂ :=
    K₁ ∪
      {a | a ∈
        (ds.map Document.attributes).map AssetValue.toAsset}
  rw [map_checksum_documents] at hChecksums ⊢
  have hNodes :=
    S.gives_getMany (K := K)
      (by
        intro n hN
        rcases List.mem_map.1 hN with ⟨d, hD, rfl⟩
        exact (Document.forall_mem_assets.1 (hWanted d hD)).1)
      hChecksums
  have hValues :=
    S.gives_getMany (K := K₁)
      (by
        intro a hA
        rcases List.mem_map.1 hA with ⟨d, hD, rfl⟩
        exact (Document.forall_mem_assets.1 (hWanted d hD)).2.1)
      (Document.nodup_attributes hFaithful hWanted hIds)
  have hListed :
      ((ds.map Document.node).map
          (fun n => (AssetValue.checksum n, n))).map
          (fun entry => entry.2.attributes) =
        (ds.map Document.attributes).map
          AssetValue.checksum := by
    rw [map_linked (fun _ => rfl), List.map_map]
    rfl
  have hEntered :
      ((ds.map Document.attributes).map
          (fun a => (AssetValue.checksum a, a))).foldl
          (fun map entry => map.insert entry.2.id entry.2)
          (∅ : DocumentsById) =
        entering Document.id Document.attributes ∅ ds := by
    rw [List.map_map, List.foldl_map]
    rfl
  suffices hAll :
      S.Gives K
        (link.documentsById
          ((ds.map Document.node).map AssetValue.checksum))
        True (entering Document.id Document.attributes ∅ ds) K₂
        S.lack from
    hAll.keep (fun a hA => Or.inl (Or.inl hA))
  unfold Link.documentsById
  apply hNodes.bind
  dsimp only
  rw [hListed]
  apply hValues.bind
  rw [hEntered]
  exact Gives.of_pure _

/- The attributes of the documents of a kind that arrive. -/
theorem gives_documentsArriving
    {p q : Project}
    (hBoth : p.Comparable q S.wanted)
    (kind : DocumentKind) :
    S.Gives K
      (link.documentsById
        (differenceOf Document.checksum (p.documents.get kind)
          (q.documents.get kind)).addedOnly.toList)
      True (q.departingAttributes p kind) K S.lack := by
  apply S.gives_arriving (hBoth.toldApart kind)
    (hBoth.left.isKeyed kind) (hBoth.right.isKeyed kind)
  intro ds hListed
  exact S.gives_documentsById hBoth.faithful
    (fun d hD => hBoth.swap.document_mem (hListed d hD))

/- The changes to the documents of a kind are worked out. -/
theorem gives_compareDocuments
    {p q : Project}
    (hBoth : p.Comparable q S.wanted)
    (kind : DocumentKind) :
    S.Gives K (link.compareDocuments p.node q.node kind) True
      (p.documentChanges q kind) K S.lack := by
  have hMembers :
      ∀ r : Project,
        (r.node.documents.get kind).members =
          ((r.documents.get kind).toList.map Prod.snd).map
            Document.checksum := by
    intro r
    rw [r.documents_node, Collection.members_of]
    rfl
  unfold Link.compareDocuments
  rw [hMembers p, hMembers q]
  apply (S.gives_difference _ _ S.lack).bind
  -- What is gone is what would be new the other way round.
  apply (S.gives_documentsArriving hBoth.swap kind).bind
  apply (S.gives_documentsArriving hBoth kind).bind
  exact Gives.of_pure _

------------------------------------------------------------
-- Projects
------------------------------------------------------------

/- The nodes and attributes of projects, by identity. -/
theorem gives_projectsById
    {ps : List Project}
    (hWanted : ∀ p ∈ ps, ∀ a ∈ p.assets, a ∈ S.wanted)
    (hChecksums : (ps.map Project.checksum).Nodup) :
    S.Gives K (link.projectsById (ps.map Project.checksum)) True
      (entering Project.id (fun p => (p.node, p.attributes)) ∅
        ps) K S.lack := by
  let known :=
    ps.map (fun p => AssetValue.toAsset p.attributes)
  let K₁ :=
    K ∪ {a | a ∈ (ps.map Project.node).map AssetValue.toAsset}
  let K₂ := K₁ ∪ {a | a ∈ known}
  rw [map_checksum_projects] at hChecksums ⊢
  have hNodes :=
    S.gives_getMany (K := K)
      (by
        intro n hN
        rcases List.mem_map.1 hN with ⟨p, hP, rfl⟩
        exact hWanted p hP _ (by simp [Project.assets,
          AssetValue.toAsset]))
      hChecksums
  have hAttributes : ∀ a ∈ known, a ∈ S.wanted := by
    intro a hA
    rcases List.mem_map.1 hA with ⟨p, hP, rfl⟩
    exact hWanted p hP _ (by simp [Project.assets,
      AssetValue.toAsset])
  have hRead :
      S.Gives K₂
        (ps.mapM (fun p => do
          let a : ProjectAttributes ←
            Run.cached p.node.attributes
          pure (p.node, a)))
        True (ps.map (fun p => (p.node, p.attributes))) K₂
        S.lack := by
    apply Gives.mapM
    intro p hP
    have hKnown : AssetValue.toAsset p.attributes ∈ K₂ := by
      right
      exact List.mem_map.2 ⟨p, hP, rfl⟩
    rw [p.attributes_node]
    exact (S.gives_cached hKnown).bind (Gives.of_pure _)
  have hListed :
      ((ps.map Project.node).map
          (fun n => (AssetValue.checksum n, n))).map
          (fun entry => entry.2.attributes) =
        known.map Asset.checksum := by
    rw [map_linked Project.attributes_node, List.map_map]
    rfl
  have hEntered :
      (ps.map (fun p => (p.node, p.attributes))).foldl
          (fun map entry => map.insert entry.2.id entry)
          (∅ : Link.ProjectsById) =
        entering Project.id (fun p => (p.node, p.attributes)) ∅
          ps := by
    rw [List.foldl_map]
    rfl
  suffices hAll :
      S.Gives K
        (link.projectsById
          ((ps.map Project.node).map AssetValue.checksum))
        True
        (entering Project.id (fun p => (p.node, p.attributes)) ∅
          ps)
        K₂ S.lack from
    hAll.keep (fun a hA => Or.inl (Or.inl hA))
  unfold Link.projectsById
  apply hNodes.bind
  dsimp only
  rw [hListed]
  apply S.gives_prefetch_bind hAttributes
  intro _
  rw [List.mapM_map, List.mapM_map]
  apply hRead.bind
  rw [hEntered]
  exact Gives.of_pure _

/- The changes to a project are worked out. -/
theorem gives_compareProjects
    {p q : Project}
    (hBoth : p.Comparable q S.wanted) :
    S.Gives K (link.compareProjects p.node (q.node, q.attributes))
      True (p.changeTo q) K S.lack := by
  have hDocuments :
      S.Gives K
        (DocumentKind.all.mapM
          (link.compareDocuments p.node q.node))
        True (DocumentKind.all.map (p.documentChanges q)) K
        S.lack :=
    Gives.mapM (fun kind _ => S.gives_compareDocuments hBoth kind)
  unfold Link.compareProjects
  apply hDocuments.bind
  dsimp only
  rw [hBoth.changed_node, ← List.flatMap_def]
  exact Gives.of_pure _

------------------------------------------------------------
-- Solutions
------------------------------------------------------------

/- The nodes and attributes of the projects that arrive. -/
theorem gives_projectsArriving
    {s t : Solution}
    (hBoth : s.Comparable t S.wanted) :
    S.Gives K
      (link.projectsById
        (differenceOf Project.checksum s.projects
          t.projects).addedOnly.toList)
      True
      ((departing t.projects s.projects).map
        (fun _ q => (q.node, q.attributes)))
      K S.lack := by
  rcases Solution.forall_mem_assets.1 hBoth.right_mem with
    ⟨-, -, -, hAssets, -⟩
  apply S.gives_arriving hBoth.toldApart hBoth.left.isKeyed
    hBoth.right.isKeyed (fun q => (q.node, q.attributes))
  intro qs hListed hChecksums _
  exact S.gives_projectsById
    (fun q hQ => hAssets q (hListed q hQ)) hChecksums

/- The node of a solution is known under its root. -/
theorem gives_cachedRoot
    {s : Solution}
    (hKnown : Asset.solutionNode s.node ∈ K) :
    S.Gives K (Run.cached s.checksum) True s.node K S.lack := by
  rw [← s.checksum_toAsset_node]
  exact S.gives_cached hKnown

/- The difference of two solutions is worked out. -/
theorem gives_compare
    {s t : Solution}
    (hBoth : s.Comparable t S.wanted) :
    S.Gives K (link.compare s.checksum t.checksum) True
      (s.differenceTo t) ∅ S.lack := by
  let roots := [Asset.solutionNode s.node, .solutionNode t.node]
  let K₁ := K ∪ {a | a ∈ roots}
  have hRoots :
      [s.checksum, t.checksum] = roots.map Asset.checksum := by
    rw [← s.checksum_toAsset_node, ← t.checksum_toAsset_node]
    rfl
  have hWanted : ∀ a ∈ roots, a ∈ S.wanted := by
    intro a hA
    rcases List.mem_pair.1 hA with rfl | rfl
    · exact (Solution.forall_mem_assets.1 hBoth.left_mem).1
    · exact (Solution.forall_mem_assets.1 hBoth.right_mem).1
  have hOld : Asset.solutionNode s.node ∈ K₁ :=
    Or.inr List.mem_cons_self
  have hNew : Asset.solutionNode t.node ∈ K₁ :=
    Or.inr (List.mem_cons_of_mem _ List.mem_cons_self)
  have hChanged :
      S.Gives K₁
        ((changers s.projects t.projects).mapM
          (fun pair =>
            link.compareProjects pair.1.node
              (pair.2.node, pair.2.attributes)))
        True
        ((changers s.projects t.projects).map
          (fun pair => pair.1.changeTo pair.2))
        K₁ S.lack := by
    apply Gives.mapM
    rintro ⟨p, q⟩ hPair
    rcases (mem_changers hBoth.left.isKeyed).1 hPair with
      ⟨hP, hQ, -⟩
    exact S.gives_compareProjects (hBoth.project hP hQ)
  suffices hAll :
      S.Gives K (link.compare s.checksum t.checksum) True
        (s.differenceTo t) K₁ S.lack from
    hAll.keep (Set.empty_subset _)
  unfold Link.compare
  rw [hRoots]
  apply S.gives_prefetch_bind hWanted
  intro _
  apply (S.gives_cachedRoot hOld).bind
  apply (S.gives_cachedRoot hNew).bind
  rw [s.projects_node, t.projects_node, Collection.members_of,
    Collection.members_of]
  apply (S.gives_difference _ _ S.lack).bind
  -- What is gone is what would be new the other way round.
  apply (S.gives_projectsArriving hBoth.swap).bind
  apply (S.gives_projectsArriving hBoth).bind
  have hRemoved :=
    Solution.map_filter_departing (s := t) hBoth.left
  have hAdded :=
    Solution.map_filter_departing (s := s) hBoth.right
  dsimp only
  rw [Solution.filterMap_departing hBoth.left hBoth.right,
    hRemoved, hAdded, List.mapM_map]
  apply hChanged.bind
  rw [hBoth.changed_node]
  exact Gives.of_pure _

end Supply

end SnapTree
