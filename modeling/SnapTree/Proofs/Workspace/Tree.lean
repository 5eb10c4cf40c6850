import SnapTree.Proofs.Merkle.Faithful
import SnapTree.Proofs.Merkle.Views
import SnapTree.Proofs.Workspace.Reachable
import SnapTree.Workspace.Publication

/-
  This file proves what the checksum tree of a snapshot says.
  The assets of a snapshot carry fitting checksums, and
  snapshots with the same root are the same.

  Key theorems include:
    * `Faithful.value_eq`
    * `Document.eq_of_checksum`
    * `Project.eq_of_checksum`
    * `Solution.eq_of_checksum`
-/

namespace SnapTree

------------------------------------------------------------
-- Values told apart
------------------------------------------------------------

/- Lists are equal if a function tells their members apart. -/
theorem eq_of_map_eq
    {α β : Type}
    {f : α → β}
    {xs ys : List α}
    (hInjective : ∀ x ∈ xs, ∀ y ∈ ys, f x = f y → x = y)
    (hSame : xs.map f = ys.map f) :
    xs = ys := by
  induction xs generalizing ys with
  | nil => simpa using hSame.symm
  | cons x xs ih =>
      cases ys with
      | nil => simp at hSame
      | cons y ys =>
          rcases List.cons.inj hSame with ⟨hHead, hTail⟩
          rw [hInjective x List.mem_cons_self y
            List.mem_cons_self hHead]
          congr 1
          apply ih ?_ hTail
          intro a hA b hB
          exact hInjective a (List.mem_cons_of_mem _ hA) b
            (List.mem_cons_of_mem _ hB)

namespace Faithful

variable {assets : Set Asset}

/- Values are told apart by their checksums. -/
theorem value_eq
    (hFaithful : Faithful assets)
    {α : Type}
    [AssetValue α]
    [LawfulValue α]
    {v w : α}
    (hV : AssetValue.toAsset v ∈ assets)
    (hW : AssetValue.toAsset w ∈ assets)
    (hSealedV : (AssetValue.toAsset v).IsSealed)
    (hSealedW : (AssetValue.toAsset w).IsSealed)
    (hSame : AssetValue.checksum v = AssetValue.checksum w) :
    v = w :=
  toAsset_injective
    (hFaithful.eq_of_checksum hV hW hSealedV hSealedW hSame)

/- Lists of values are told apart by their checksums. -/
theorem values_eq
    (hFaithful : Faithful assets)
    {α : Type}
    [AssetValue α]
    [LawfulValue α]
    {vs ws : List α}
    (hVs : ∀ v ∈ vs, AssetValue.toAsset v ∈ assets)
    (hWs : ∀ w ∈ ws, AssetValue.toAsset w ∈ assets)
    (hSealed : ∀ v : α, (AssetValue.toAsset v).IsSealed)
    (hSame :
      vs.map AssetValue.checksum = ws.map AssetValue.checksum) :
    vs = ws := by
  apply eq_of_map_eq ?_ hSame
  intro v hV w hW
  exact hFaithful.value_eq (hVs v hV) (hWs w hW) (hSealed v)
    (hSealed w)

end Faithful

------------------------------------------------------------
-- The assets of a snapshot
------------------------------------------------------------

namespace Document

@[simp]
theorem checksum_toAsset_node
    (d : Document) :
    AssetValue.checksum d.node = d.checksum :=
  rfl

theorem isSealed_of_mem_assets
    {d : Document}
    {a : Asset}
    (hMem : a ∈ d.assets) :
    a.IsSealed := by
  unfold assets at hMem
  simp only [List.mem_cons, List.not_mem_nil, or_false] at hMem
  rcases hMem with rfl | rfl | rfl <;> rfl

theorem forall_mem_assets
    {d : Document}
    {P : Asset → Prop} :
    (∀ a ∈ d.assets, P a) ↔
      P (.documentNode d.node) ∧
        P (.documentAttributes d.attributes) ∧
          P (.text d.text) := by
  unfold assets
  simp only [List.forall_mem_cons, List.not_mem_nil,
    false_implies, implies_true, and_true]

/- Documents of a kind are told apart by their checksums. -/
theorem eq_of_checksum
    {assets : Set Asset}
    (hFaithful : Faithful assets)
    {d e : Document}
    (hD : ∀ a ∈ d.assets, a ∈ assets)
    (hE : ∀ a ∈ e.assets, a ∈ assets)
    (hKind : d.kind = e.kind)
    (hSame : d.checksum = e.checksum) :
    d = e := by
  rcases forall_mem_assets.1 hD with
    ⟨hNodeD, hAttributesD, hTextD⟩
  rcases forall_mem_assets.1 hE with
    ⟨hNodeE, hAttributesE, hTextE⟩
  have hNode : d.node = e.node :=
    hFaithful.value_eq hNodeD hNodeE rfl rfl
      (by simpa using hSame)
  rcases DocumentNode.mk.inj hNode with ⟨-, hAttributes, hText⟩
  have hAttributes : d.attributes = e.attributes :=
    hFaithful.value_eq hAttributesD hAttributesE rfl rfl
      hAttributes
  have hText : d.text = e.text :=
    hFaithful.value_eq hTextD hTextE rfl rfl hText
  cases d
  cases e
  rw [Document.mk.injEq]
  exact ⟨hKind, hAttributes, hText⟩

end Document

namespace Project

theorem mem_allDocuments
    {p : Project}
    {kind : DocumentKind}
    {d : Document}
    (hMem : d ∈ p.documentsOf kind) :
    d ∈ p.allDocuments :=
  List.mem_flatMap.2 ⟨kind, kind.mem_all, hMem⟩

/- What is said of all assets of a project, part by part. -/
theorem forall_mem_assets
    {p : Project}
    {P : Asset → Prop} :
    (∀ a ∈ p.assets, P a) ↔
      P (.projectNode p.node) ∧
        P (.projectAttributes p.attributes) ∧
          P (.compilationOptions p.compilationOptions) ∧
            P (.parseOptions p.parseOptions) ∧
              (∀ r ∈ p.projectReferences,
                P (.projectReference r)) ∧
              (∀ r ∈ p.metadataReferences,
                P (.metadataReference r)) ∧
              (∀ r ∈ p.analyzerReferences,
                P (.analyzerReference r)) ∧
              ∀ kind, ∀ d ∈ p.documentsOf kind,
                ∀ a ∈ d.assets, P a := by
  have hDocuments :
      (∀ a ∈ p.allDocuments.flatMap Document.assets, P a) ↔
        ∀ kind, ∀ d ∈ p.documentsOf kind,
          ∀ a ∈ d.assets, P a := by
    constructor
    · intro hAll kind d hD a hA
      exact hAll a
        (List.mem_flatMap.2 ⟨d, mem_allDocuments hD, hA⟩)
    · intro hAll a hA
      rcases List.mem_flatMap.1 hA with ⟨d, hD, hA⟩
      rcases List.mem_flatMap.1 hD with ⟨kind, -, hD⟩
      exact hAll kind d hD a hA
  unfold assets
  rw [List.forall_mem_append, List.forall_mem_append,
    List.forall_mem_append, List.forall_mem_append, hDocuments,
    List.forall_mem_map, List.forall_mem_map,
    List.forall_mem_map]
  simp only [List.forall_mem_cons, List.not_mem_nil,
    false_implies, implies_true, and_true, and_assoc]

/- The assets of its documents are assets of a project. -/
theorem document_assets_subset
    {p : Project}
    {kind : DocumentKind}
    {d : Document}
    (hD : d ∈ p.documentsOf kind) :
    d.assets ⊆ p.assets := by
  rcases (forall_mem_assets (p := p)).1 (fun _ hA => hA) with
    ⟨-, -, -, -, -, -, -, hAll⟩
  exact hAll kind d hD

/- The node of a project carries the checksum that fits it. -/
theorem computed_node
    (p : Project) :
    p.node.computed = p.node.checksum := by
  unfold node ProjectNode.sealed
  dsimp only
  unfold ProjectNode.computed ProjectNode.preimage
  dsimp only

@[simp]
theorem checksum_toAsset_node
    (p : Project) :
    AssetValue.checksum p.node = p.checksum :=
  p.computed_node

theorem isSealed_node
    (p : Project) :
    (Asset.projectNode p.node).IsSealed := by
  unfold Asset.IsSealed Asset.canonical
  dsimp only
  rw [computed_node]
  unfold node ProjectNode.sealed
  rfl

theorem isSealed_of_mem_assets
    {p : Project} :
    ∀ a ∈ p.assets, a.IsSealed := by
  refine forall_mem_assets.2
    ⟨p.isSealed_node, rfl, rfl, rfl, ?_, ?_, ?_, ?_⟩
  · intro r _
    rfl
  · intro r _
    rfl
  · intro r _
    rfl
  · intro kind d _ a hA
    exact Document.isSealed_of_mem_assets hA

/- Maps of documents are told apart by their checksums. -/
theorem documents_eq_of_checksums
    {assets : Set Asset}
    (hFaithful : Faithful assets)
    {p q : Project}
    (hP : p.WellFormed)
    (hQ : q.WellFormed)
    (hAssetsP : ∀ a ∈ p.assets, a ∈ assets)
    (hAssetsQ : ∀ a ∈ q.assets, a ∈ assets)
    {kind : DocumentKind}
    (hSame :
      (p.documentsOf kind).map Document.checksum =
        (q.documentsOf kind).map Document.checksum) :
    p.documents.get kind = q.documents.get kind := by
  apply (hP.isKeyed kind).ext_values (hQ.isKeyed kind)
  apply eq_of_map_eq ?_ hSame
  intro d hD e hE hChecksum
  have hKindD := (hP.keyed kind d.id d
    (hP.mem_documentsOf.1 hD)).2
  have hKindE := (hQ.keyed kind e.id e
    (hQ.mem_documentsOf.1 hE)).2
  exact Document.eq_of_checksum hFaithful
    (fun a hA => hAssetsP a (document_assets_subset hD hA))
    (fun a hA => hAssetsQ a (document_assets_subset hE hA))
    (hKindD.trans hKindE.symm) hChecksum

section

variable (p : Project)

@[simp]
theorem attributes_node :
    p.node.attributes = AssetValue.checksum p.attributes := by
  unfold node ProjectNode.sealed
  rfl

@[simp]
theorem compilationOptions_node :
    p.node.compilationOptions =
      AssetValue.checksum p.compilationOptions := by
  unfold node ProjectNode.sealed
  rfl

@[simp]
theorem parseOptions_node :
    p.node.parseOptions = AssetValue.checksum p.parseOptions := by
  unfold node ProjectNode.sealed
  rfl

@[simp]
theorem projectReferences_node :
    p.node.projectReferences =
      Collection.of .projectReferences
        (p.projectReferences.map AssetValue.checksum) := by
  unfold node ProjectNode.sealed
  rfl

@[simp]
theorem metadataReferences_node :
    p.node.metadataReferences =
      Collection.of .metadataReferences
        (p.metadataReferences.map AssetValue.checksum) := by
  unfold node ProjectNode.sealed
  rfl

@[simp]
theorem analyzerReferences_node :
    p.node.analyzerReferences =
      Collection.of .analyzerReferences
        (p.analyzerReferences.map AssetValue.checksum) := by
  unfold node ProjectNode.sealed
  rfl

@[simp]
theorem documents_node
    (kind : DocumentKind) :
    p.node.documents.get kind =
      Collection.of (.documents kind)
        ((p.documentsOf kind).map Document.checksum) := by
  unfold node ProjectNode.sealed
  dsimp only
  rw [ByKind.get_ofFn]

end

/- The values that the node of a project names by checksum. -/
def values
    (p : Project) : List Asset :=
  [.projectAttributes p.attributes,
    .compilationOptions p.compilationOptions,
    .parseOptions p.parseOptions] ++
  p.projectReferences.map .projectReference ++
  p.metadataReferences.map .metadataReference ++
  p.analyzerReferences.map .analyzerReference

/- The assets of a project are its node, values and documents. -/
theorem mem_assets_iff
    {p : Project}
    {a : Asset} :
    a ∈ p.assets ↔
      a = .projectNode p.node ∨ a ∈ p.values ∨
        ∃ d ∈ p.allDocuments, a ∈ d.assets := by
  unfold assets values
  simp only [List.mem_append, List.mem_cons, List.mem_flatMap,
    List.cons_append, or_assoc]

theorem valueChildren_node
    (p : Project) :
    p.node.valueChildren = p.values.map Asset.checksum := by
  unfold ProjectNode.valueChildren values
  simp only [attributes_node, compilationOptions_node,
    parseOptions_node, projectReferences_node,
    metadataReferences_node, analyzerReferences_node,
    Collection.members_of, List.map_append, List.map_map,
    List.map_cons, List.map_nil]
  rfl

theorem allDocuments_node
    (p : Project) :
    p.node.allDocuments =
      p.allDocuments.map Document.checksum := by
  unfold ProjectNode.allDocuments ByKind.toList allDocuments
  rw [List.flatMap_map, List.map_flatMap]
  apply List.flatMap_congr
  intro kind _
  rw [documents_node, Collection.members_of]

/- Projects are told apart by their checksums. -/
theorem eq_of_checksum
    {assets : Set Asset}
    (hFaithful : Faithful assets)
    {p q : Project}
    (hP : p.WellFormed)
    (hQ : q.WellFormed)
    (hAssetsP : ∀ a ∈ p.assets, a ∈ assets)
    (hAssetsQ : ∀ a ∈ q.assets, a ∈ assets)
    (hSame : p.checksum = q.checksum) :
    p = q := by
  rcases forall_mem_assets.1 hAssetsP with
    ⟨hNodeP, hAttributesP, hCompilationP, hParseP, hProjectsP,
      hMetadataP, hAnalyzersP, -⟩
  rcases forall_mem_assets.1 hAssetsQ with
    ⟨hNodeQ, hAttributesQ, hCompilationQ, hParseQ, hProjectsQ,
      hMetadataQ, hAnalyzersQ, -⟩
  have hNode : p.node = q.node :=
    hFaithful.value_eq hNodeP hNodeQ p.isSealed_node
      q.isSealed_node
      (by simpa using hSame)
  have hAttributes : p.attributes = q.attributes :=
    hFaithful.value_eq hAttributesP hAttributesQ rfl rfl
      (by simpa using congrArg ProjectNode.attributes hNode)
  have hCompilation :
      p.compilationOptions = q.compilationOptions :=
    hFaithful.value_eq hCompilationP hCompilationQ rfl rfl
      (by
        simpa using
          congrArg ProjectNode.compilationOptions hNode)
  have hParse : p.parseOptions = q.parseOptions :=
    hFaithful.value_eq hParseP hParseQ rfl rfl
      (by simpa using congrArg ProjectNode.parseOptions hNode)
  have hProjects : p.projectReferences = q.projectReferences :=
    hFaithful.values_eq hProjectsP hProjectsQ (fun _ => rfl)
      (by
        simpa using
          congrArg (fun n => n.projectReferences.members) hNode)
  have hMetadata :
      p.metadataReferences = q.metadataReferences :=
    hFaithful.values_eq hMetadataP hMetadataQ (fun _ => rfl)
      (by
        simpa using
          congrArg (fun n => n.metadataReferences.members) hNode)
  have hAnalyzers :
      p.analyzerReferences = q.analyzerReferences :=
    hFaithful.values_eq hAnalyzersP hAnalyzersQ (fun _ => rfl)
      (by
        simpa using
          congrArg (fun n => n.analyzerReferences.members) hNode)
  have hDocuments : p.documents = q.documents := by
    apply ByKind.ext_get
    intro kind
    apply documents_eq_of_checksums hFaithful hP hQ hAssetsP
      hAssetsQ
    have hMembers :=
      congrArg (fun n => (n.documents.get kind).members) hNode
    simpa using hMembers
  cases p
  cases q
  rw [Project.mk.injEq]
  exact ⟨hAttributes, hCompilation, hParse, hProjects,
    hMetadata, hAnalyzers, hDocuments⟩

end Project

------------------------------------------------------------
-- Solutions
------------------------------------------------------------

namespace FrozenDocument

theorem isSealed_of_mem_assets
    {f : FrozenDocument}
    {a : Asset}
    (hMem : a ∈ f.assets) :
    a.IsSealed := by
  unfold assets at hMem
  simp only [List.mem_cons, List.not_mem_nil, or_false] at hMem
  rcases hMem with rfl | rfl <;> rfl

theorem identity_mem_assets
    (f : FrozenDocument) :
    AssetValue.toAsset f.identity ∈ f.assets := by
  simp [assets, AssetValue.toAsset]

theorem text_mem_assets
    (f : FrozenDocument) :
    AssetValue.toAsset f.text ∈ f.assets := by
  simp [assets, AssetValue.toAsset]

/- Frozen documents are told apart by their two checksums. -/
theorem eq_of_checksums
    {assets : Set Asset}
    (hFaithful : Faithful assets)
    {f g : FrozenDocument}
    (hF : ∀ a ∈ f.assets, a ∈ assets)
    (hG : ∀ a ∈ g.assets, a ∈ assets)
    (hIdentity :
      AssetValue.checksum f.identity =
        AssetValue.checksum g.identity)
    (hText :
      AssetValue.checksum f.text = AssetValue.checksum g.text) :
    f = g := by
  have hI : f.identity = g.identity :=
    hFaithful.value_eq (hF _ f.identity_mem_assets)
      (hG _ g.identity_mem_assets) rfl rfl hIdentity
  have hX : f.text = g.text :=
    hFaithful.value_eq (hF _ f.text_mem_assets)
      (hG _ g.text_mem_assets) rfl rfl hText
  cases f
  cases g
  rw [FrozenDocument.mk.injEq]
  exact ⟨hI, hX⟩

end FrozenDocument

namespace Solution

/- What is said of all assets of a solution, part by part. -/
theorem forall_mem_assets
    {s : Solution}
    {P : Asset → Prop} :
    (∀ a ∈ s.assets, P a) ↔
      P (.solutionNode s.node) ∧
        P (.solutionAttributes s.attributes) ∧
          (∀ r ∈ s.analyzerReferences,
            P (.analyzerReference r)) ∧
          (∀ p ∈ s.projectList, ∀ a ∈ p.assets, P a) ∧
          ∀ f, s.frozen = some f → ∀ a ∈ f.assets, P a := by
  have hProjects :
      (∀ a ∈ s.projectList.flatMap Project.assets, P a) ↔
        ∀ p ∈ s.projectList, ∀ a ∈ p.assets, P a := by
    simp only [List.mem_flatMap]
    constructor
    · intro hAll p hP a hA
      exact hAll a ⟨p, hP, hA⟩
    · rintro hAll a ⟨p, hP, hA⟩
      exact hAll p hP a hA
  have hFrozen :
      (∀ a ∈ (s.frozen.map FrozenDocument.assets).getD [],
        P a) ↔
        ∀ f, s.frozen = some f → ∀ a ∈ f.assets, P a := by
    cases s.frozen with
    | none => simp
    | some f => simp
  unfold assets
  rw [List.forall_mem_append, List.forall_mem_append,
    List.forall_mem_append, hProjects, hFrozen,
    List.forall_mem_map]
  simp only [List.forall_mem_cons, List.not_mem_nil,
    false_implies, implies_true, and_true, and_assoc]

/- The assets of its projects are assets of a solution. -/
theorem project_assets_subset
    {s : Solution}
    {p : Project}
    (hP : p ∈ s.projectList) :
    p.assets ⊆ s.assets := by
  rcases (forall_mem_assets (s := s)).1 (fun _ hA => hA) with
    ⟨-, -, -, hAll, -⟩
  exact hAll p hP

theorem mem_projectList
    {s : Solution}
    (hWell : s.WellFormed)
    {p : Project} :
    p ∈ s.projectList ↔ s.projects[p.id]? = some p := by
  constructor
  · intro hMem
    rcases exists_key_of_mem_values hMem with ⟨id, hId⟩
    rw [hWell.keyed id p hId]
    exact hId
  · exact mem_values

/- The node of a solution carries the checksum that fits it. -/
theorem computed_node
    (s : Solution) :
    s.node.computed = s.node.checksum := by
  unfold node SolutionNode.of
  dsimp only
  unfold SolutionNode.computed SolutionNode.preimage
  dsimp only

@[simp]
theorem checksum_toAsset_node
    (s : Solution) :
    AssetValue.checksum s.node = s.checksum :=
  s.computed_node

theorem isSealed_node
    (s : Solution) :
    (Asset.solutionNode s.node).IsSealed := by
  unfold Asset.IsSealed Asset.canonical
  dsimp only
  rw [computed_node]
  unfold node SolutionNode.of
  rfl

theorem isSealed_of_mem_assets
    {s : Solution} :
    ∀ a ∈ s.assets, a.IsSealed := by
  refine forall_mem_assets.2
    ⟨s.isSealed_node, rfl, ?_, ?_, ?_⟩
  · intro r _
    rfl
  · intro p _ a hA
    exact Project.isSealed_of_mem_assets a hA
  · intro f _ a hA
    exact FrozenDocument.isSealed_of_mem_assets hA

section

variable (s : Solution)

@[simp]
theorem attributes_node :
    s.node.attributes = AssetValue.checksum s.attributes := by
  unfold node SolutionNode.of
  rfl

@[simp]
theorem projects_node :
    s.node.projects =
      Collection.of .projects
        (s.projectList.map Project.checksum) := by
  unfold node SolutionNode.of
  rfl

@[simp]
theorem analyzerReferences_node :
    s.node.analyzerReferences =
      Collection.of .analyzerReferences
        (s.analyzerReferences.map AssetValue.checksum) := by
  unfold node SolutionNode.of
  rfl

end

theorem frozenIdentity_node
    (s : Solution) :
    s.node.frozenIdentity =
      (s.frozen.map (fun f =>
        AssetValue.checksum f.identity)).getD Checksum.null := by
  unfold node SolutionNode.of
  cases s.frozen <;> rfl

theorem frozenText_node
    (s : Solution) :
    s.node.frozenText =
      (s.frozen.map (fun f =>
        AssetValue.checksum f.text)).getD Checksum.null := by
  unfold node SolutionNode.of
  cases s.frozen <;> rfl

/- A root names both halves of a frozen document, or neither. -/
theorem frozen?_node
    {assets : Set Asset}
    (hFaithful : Faithful assets)
    {s : Solution}
    (hS :
      ∀ f, s.frozen = some f → ∀ a ∈ f.assets, a ∈ assets) :
    s.node.frozen? =
      s.frozen.map (fun f =>
        (AssetValue.checksum f.identity,
          AssetValue.checksum f.text)) := by
  unfold SolutionNode.frozen?
  rw [frozenIdentity_node, frozenText_node]
  cases hF : s.frozen with
  | none => rfl
  | some f =>
      have hIdentity :=
        hFaithful.checksum_ne_null
          (hS f hF (AssetValue.toAsset f.identity)
            (by simp [FrozenDocument.assets, AssetValue.toAsset]))
      have hText :=
        hFaithful.checksum_ne_null
          (hS f hF (AssetValue.toAsset f.text)
            (by simp [FrozenDocument.assets, AssetValue.toAsset]))
      rw [if_neg]
      · rfl
      · simp only [Option.map_some, Option.getD_some,
          Checksum.isNull, Bool.or_eq_true, beq_iff_eq, not_or]
        exact ⟨hIdentity, hText⟩

/- Equal nodes have the same frozen document. -/
theorem frozen_eq_of_node
    {assets : Set Asset}
    (hFaithful : Faithful assets)
    {s t : Solution}
    (hS :
      ∀ f, s.frozen = some f → ∀ a ∈ f.assets, a ∈ assets)
    (hT :
      ∀ f, t.frozen = some f → ∀ a ∈ f.assets, a ∈ assets)
    (hSame : s.node = t.node) :
    s.frozen = t.frozen := by
  have hIdentity :=
    congrArg SolutionNode.frozenIdentity hSame
  have hText := congrArg SolutionNode.frozenText hSame
  rw [frozenIdentity_node, frozenIdentity_node] at hIdentity
  rw [frozenText_node, frozenText_node] at hText
  cases hF : s.frozen with
  | none =>
      cases hG : t.frozen with
      | none => rfl
      | some g =>
          rw [hF, hG] at hIdentity
          have hNull := hFaithful.checksum_ne_null
            (hT g hG _ g.identity_mem_assets)
          exact absurd hIdentity.symm hNull
  | some f =>
      cases hG : t.frozen with
      | none =>
          rw [hF, hG] at hIdentity
          have hNull := hFaithful.checksum_ne_null
            (hS f hF _ f.identity_mem_assets)
          exact absurd hIdentity hNull
      | some g =>
          rw [hF, hG] at hIdentity hText
          rw [FrozenDocument.eq_of_checksums hFaithful
            (hS f hF) (hT g hG) hIdentity hText]

/- Solutions are told apart by their checksums. -/
theorem eq_of_checksum
    {assets : Set Asset}
    (hFaithful : Faithful assets)
    {s t : Solution}
    (hS : s.WellFormed)
    (hT : t.WellFormed)
    (hAssetsS : ∀ a ∈ s.assets, a ∈ assets)
    (hAssetsT : ∀ a ∈ t.assets, a ∈ assets)
    (hSame : s.checksum = t.checksum) :
    s = t := by
  rcases forall_mem_assets.1 hAssetsS with
    ⟨hNodeS, hAttributesS, hAnalyzersS, hProjectsS, hFrozenS⟩
  rcases forall_mem_assets.1 hAssetsT with
    ⟨hNodeT, hAttributesT, hAnalyzersT, hProjectsT, hFrozenT⟩
  have hNode : s.node = t.node :=
    hFaithful.value_eq hNodeS hNodeT s.isSealed_node
      t.isSealed_node
      (by simpa using hSame)
  have hAttributes : s.attributes = t.attributes :=
    hFaithful.value_eq hAttributesS hAttributesT rfl rfl
      (by simpa using congrArg SolutionNode.attributes hNode)
  have hAnalyzers :
      s.analyzerReferences = t.analyzerReferences :=
    hFaithful.values_eq hAnalyzersS hAnalyzersT (fun _ => rfl)
      (by
        simpa using
          congrArg (fun n => n.analyzerReferences.members) hNode)
  have hChecksums :
      s.projectList.map Project.checksum =
        t.projectList.map Project.checksum := by
    simpa using congrArg (fun n => n.projects.members) hNode
  have hProjects : s.projects = t.projects := by
    apply hS.isKeyed.ext_values hT.isKeyed
    apply eq_of_map_eq ?_ hChecksums
    intro p hP q hQ hChecksum
    exact Project.eq_of_checksum hFaithful
      (hS.project _ p ((mem_projectList hS).1 hP))
      (hT.project _ q ((mem_projectList hT).1 hQ))
      (hProjectsS p hP) (hProjectsT q hQ) hChecksum
  have hFrozen : s.frozen = t.frozen :=
    frozen_eq_of_node hFaithful hFrozenS hFrozenT hNode
  cases s
  cases t
  rw [Solution.mk.injEq]
  exact ⟨hAttributes, hProjects, hAnalyzers, hFrozen⟩

end Solution

end SnapTree
