import SnapTree.Proofs.Data.Attempts
import SnapTree.Proofs.Workspace.Identification
import SnapTree.Proofs.Workspace.Publication

/-
  This file proves that publishing writes the checksum tree of
  a snapshot, the whole of it and nothing else.  The publisher
  goes through the projects and documents themselves, while
  those who read the tree go from checksum to checksum: both
  ways lead to the same assets.

  Key definitions include:
    * `Asset.components`
    * `MetBelow`
    * `noting`

  Key theorems include:
    * `Solution.exists_mem_of_component`
    * `Solution.metBelow_of_mem_assets`
    * `Solution.publish_writes_tree`
-/

namespace SnapTree

------------------------------------------------------------
-- From checksum to checksum
------------------------------------------------------------

/-
  The checksums that an asset names.  Only a node names any;
  a solution names the halves of a frozen document only while
  one is attached.
-/
def Asset.components : Asset → List Checksum
  | .solutionNode n =>
      n.attributes ::
        (n.projects.members ++ n.analyzerReferences.members ++
          (n.frozen?.map (fun pair => [pair.1, pair.2])).getD [])
  | .projectNode n => n.valueChildren ++ n.allDocuments
  | .documentNode n => [n.attributes, n.text]
  | _ => []

/-
  The checksums met on the way down from a root: the root
  itself, and what is named by an asset that is held under a
  checksum already met.
-/
inductive MetBelow
    (held : List (Checksum × Asset))
    (root : Checksum) : Checksum → Prop where
  | root :
      MetBelow held root root
  | component
      {c d : Checksum}
      {a : Asset}
      (hMet : MetBelow held root c)
      (hHeld : (c, a) ∈ held)
      (hComponent : d ∈ a.components) :
      MetBelow held root d

/- What contains the root and all it names is never left. -/
theorem MetBelow.mem_of_closed
    {held : List (Checksum × Asset)}
    {root c : Checksum}
    {P : Checksum → Prop}
    (hMet : MetBelow held root c)
    (hRoot : P root)
    (hClosed :
      ∀ entry ∈ held, ∀ d ∈ entry.2.components, P d) :
    P c := by
  cases hMet with
  | root => exact hRoot
  | component _ hHeld hComponent =>
      exact hClosed _ hHeld _ hComponent

------------------------------------------------------------
-- What the nodes of a snapshot name
------------------------------------------------------------

namespace Document

/- Whatever an asset of a document names is an asset of it. -/
theorem exists_mem_of_component
    {d : Document} :
    ∀ a ∈ d.assets, ∀ c ∈ a.components,
      ∃ b ∈ d.assets, b.checksum = c := by
  rcases forall_mem_assets.1 (fun a (hA : a ∈ d.assets) => hA)
    with ⟨-, hAttributes, hText⟩
  refine forall_mem_assets.2
    ⟨?_, List.forall_mem_nil _, List.forall_mem_nil _⟩
  intro c hC
  rcases List.mem_pair.1 hC with rfl | rfl
  · exact ⟨_, hAttributes, rfl⟩
  · exact ⟨_, hText, rfl⟩

end Document

namespace Project

variable {p : Project}

/- The node of a project names its values and its documents. -/
theorem components_node :
    (Asset.projectNode p.node).components =
      p.values.map Asset.checksum ++
        p.allDocuments.map Document.checksum := by
  unfold Asset.components
  dsimp only
  rw [valueChildren_node, allDocuments_node]

/- The values of a project name nothing themselves. -/
theorem components_of_mem_values
    {a : Asset}
    (hMem : a ∈ p.values) :
    a.components = [] := by
  unfold values at hMem
  simp only [List.mem_append, List.mem_cons, List.mem_map,
    List.not_mem_nil, or_false] at hMem
  rcases hMem with (((rfl | rfl | rfl) | ⟨r, -, rfl⟩) |
    ⟨r, -, rfl⟩) | ⟨r, -, rfl⟩ <;> rfl

/- Whatever an asset of a project names is an asset of it. -/
theorem exists_mem_of_component :
    ∀ a ∈ p.assets, ∀ c ∈ a.components,
      ∃ b ∈ p.assets, b.checksum = c := by
  intro a hA c hC
  rcases mem_assets_iff.1 hA with rfl | hValue | ⟨d, hD, hA⟩
  · rw [components_node] at hC
    rcases List.mem_append.1 hC with hC | hC
    · rcases List.mem_map.1 hC with ⟨b, hB, rfl⟩
      exact ⟨b, mem_assets_iff.2 (.inr (.inl hB)), rfl⟩
    · rcases List.mem_map.1 hC with ⟨d, hD, rfl⟩
      have hNode : Asset.documentNode d.node ∈ d.assets :=
        List.mem_cons_self
      exact ⟨_, mem_assets_iff.2 (.inr (.inr ⟨d, hD, hNode⟩)),
        rfl⟩
  · rw [components_of_mem_values hValue] at hC
    cases hC
  · rcases d.exists_mem_of_component a hA c hC with
      ⟨b, hB, hChecksum⟩
    exact ⟨b, mem_assets_iff.2 (.inr (.inr ⟨d, hD, hB⟩)),
      hChecksum⟩

end Project

namespace Solution

variable {s : Solution}

/-
  The node of a solution names its attributes, projects and
  analyzers, and both halves of a frozen document.
-/
theorem components_node
    (hFaithful : Faithful {a | a ∈ s.assets}) :
    (Asset.solutionNode s.node).components =
      AssetValue.checksum s.attributes ::
        (s.projectList.map Project.checksum ++
          s.analyzerReferences.map AssetValue.checksum ++
          ((s.frozen.map FrozenDocument.assets).getD []).map
            Asset.checksum) := by
  have hFrozen :
      ∀ f, s.frozen = some f →
        ∀ a ∈ f.assets, a ∈ {a | a ∈ s.assets} :=
    (forall_mem_assets.1 (fun _ hA => hA)).2.2.2.2
  unfold Asset.components
  dsimp only
  rw [frozen?_node hFaithful hFrozen, attributes_node,
    projects_node, analyzerReferences_node]
  cases s.frozen <;> rfl

/- Whatever an asset of a solution names is an asset of it. -/
theorem exists_mem_of_component
    (hFaithful : Faithful {a | a ∈ s.assets}) :
    ∀ a ∈ s.assets, ∀ c ∈ a.components,
      ∃ b ∈ s.assets, b.checksum = c := by
  rcases forall_mem_assets.1 (fun a (hA : a ∈ s.assets) => hA)
    with ⟨-, hAttributes, hAnalyzers, hProjects, hFrozen⟩
  refine forall_mem_assets.2
    ⟨?_, List.forall_mem_nil _, fun _ _ => List.forall_mem_nil _,
      ?_, ?_⟩
  · intro c hC
    rw [components_node hFaithful] at hC
    simp only [List.mem_cons, List.mem_append, List.mem_map]
      at hC
    rcases hC with rfl | (⟨p, hP, rfl⟩ | ⟨r, hR, rfl⟩) |
      ⟨a, hA, rfl⟩
    · exact ⟨_, hAttributes, rfl⟩
    · have hNode : Asset.projectNode p.node ∈ s.assets :=
        hProjects p hP _ (Project.mem_assets_iff.2 (.inl rfl))
      exact ⟨_, hNode, p.checksum_toAsset_node⟩
    · exact ⟨_, hAnalyzers r hR, rfl⟩
    · cases hF : s.frozen with
      | none =>
          rw [hF] at hA
          cases hA
      | some f =>
          rw [hF] at hA
          exact ⟨a, hFrozen f hF a hA, rfl⟩
  · intro p hP a hA c hC
    rcases p.exists_mem_of_component a hA c hC with
      ⟨b, hB, hChecksum⟩
    exact ⟨b, hProjects p hP b hB, hChecksum⟩
  · intro f _ a hA c hC
    rcases List.mem_pair.1 hA with rfl | rfl <;> cases hC

end Solution

------------------------------------------------------------
-- Down to every asset
------------------------------------------------------------

section

variable
  {held : List (Checksum × Asset)}
  {root : Checksum}

theorem Document.metBelow_of_mem_assets
    {d : Document}
    (hHeld : ∀ a ∈ d.assets, (a.checksum, a) ∈ held)
    (hMet : MetBelow held root d.checksum) :
    ∀ a ∈ d.assets, MetBelow held root a.checksum := by
  have hNode := (forall_mem_assets.1 hHeld).1
  refine forall_mem_assets.2 ⟨hMet, ?_, ?_⟩
  · exact hMet.component hNode List.mem_cons_self
  · exact hMet.component hNode
      (List.mem_cons_of_mem _ List.mem_cons_self)

theorem Project.metBelow_of_mem_assets
    {p : Project}
    (hHeld : ∀ a ∈ p.assets, (a.checksum, a) ∈ held)
    (hMet : MetBelow held root p.checksum) :
    ∀ a ∈ p.assets, MetBelow held root a.checksum := by
  have hNode :
      (p.checksum, Asset.projectNode p.node) ∈ held := by
    rw [← p.checksum_toAsset_node]
    exact hHeld _ (mem_assets_iff.2 (.inl rfl))
  intro a hA
  rcases mem_assets_iff.1 hA with rfl | hValue | ⟨d, hD, hA⟩
  · rw [show (Asset.projectNode p.node).checksum = p.checksum
      from p.checksum_toAsset_node]
    exact hMet
  · apply hMet.component hNode
    rw [components_node]
    exact List.mem_append_left _ (List.mem_map_of_mem hValue)
  · refine Document.metBelow_of_mem_assets ?_ ?_ a hA
    · intro b hB
      exact hHeld b (mem_assets_iff.2 (.inr (.inr ⟨d, hD, hB⟩)))
    · apply hMet.component hNode
      rw [components_node]
      exact List.mem_append_right _ (List.mem_map_of_mem hD)

/- Every asset of a solution is met below its root. -/
theorem Solution.metBelow_of_mem_assets
    {s : Solution}
    (hFaithful : Faithful {a | a ∈ s.assets})
    (hHeld : ∀ a ∈ s.assets, (a.checksum, a) ∈ held) :
    ∀ a ∈ s.assets, MetBelow held s.checksum a.checksum := by
  have hRoot :
      (Asset.solutionNode s.node).checksum = s.checksum :=
    s.checksum_toAsset_node
  have hNode :
      (s.checksum, Asset.solutionNode s.node) ∈ held := by
    rw [← hRoot]
    exact (forall_mem_assets.1 hHeld).1
  have hNamed :
      ∀ c ∈ (Asset.solutionNode s.node).components,
        MetBelow held s.checksum c :=
    fun c hC => .component .root hNode hC
  rw [components_node hFaithful, List.forall_mem_cons,
    List.forall_mem_append, List.forall_mem_append,
    List.forall_mem_map, List.forall_mem_map,
    List.forall_mem_map] at hNamed
  rcases hNamed with
    ⟨hAttributes, ⟨hProjects, hAnalyzers⟩, hFrozen⟩
  rcases forall_mem_assets.1 hHeld with ⟨-, -, -, hHeldBy, -⟩
  refine forall_mem_assets.2
    ⟨?_, hAttributes, hAnalyzers, ?_, ?_⟩
  · rw [hRoot]
    exact .root
  · intro p hP
    exact Project.metBelow_of_mem_assets (hHeldBy p hP)
      (hProjects p hP)
  · intro f hF a hA
    rw [hF] at hFrozen
    exact hFrozen a hA

/-
  What is held for a solution is just what is met below its
  root.
-/
theorem Solution.mem_publication_iff_metBelow
    {s : Solution}
    (hFaithful : Faithful {a | a ∈ s.assets})
    {c : Checksum} :
    c ∈ s.publication.map Prod.fst ↔
      MetBelow s.publication s.checksum c := by
  have hPublished :
      ∀ a ∈ s.assets, (a.checksum, a) ∈ s.publication :=
    fun a hA =>
      (mem_publication_iff hFaithful (fun _ hB => hB)).2 ⟨hA, rfl⟩
  have hKeys :
      ∀ a ∈ s.assets,
        a.checksum ∈ s.publication.map Prod.fst :=
    fun a hA => List.mem_map.2 ⟨_, hPublished a hA, rfl⟩
  constructor
  · intro hMem
    rcases List.mem_map.1 hMem with ⟨⟨c, a⟩, hEntry, rfl⟩
    rcases mem_of_mem_publication hEntry with ⟨hA, rfl⟩
    exact metBelow_of_mem_assets hFaithful hPublished a hA
  · intro hMet
    apply hMet.mem_of_closed
    · have hNode := hKeys _
        (forall_mem_assets.1 (fun _ hA => hA)).1
      rw [show (Asset.solutionNode s.node).checksum = s.checksum
        from s.checksum_toAsset_node] at hNode
      exact hNode
    · rintro ⟨c, a⟩ hEntry d hD
      rcases mem_of_mem_publication hEntry with ⟨hA, -⟩
      rcases exists_mem_of_component hFaithful a hA d hD with
        ⟨b, hB, rfl⟩
      exact hKeys b hB

end

------------------------------------------------------------
-- What is put
------------------------------------------------------------

/-
  Note down each put, whatever comes of it, in front of a sink
  of any sort.
-/
def noting
    {σ : Type}
    (put : Checksum → Asset → ExceptT AssetError (StateM σ) Unit)
    (c : Checksum)
    (a : Asset) :
    ExceptT AssetError
      (StateM (List (Checksum × Asset) × σ)) Unit :=
  ExceptT.mk (fun u =>
    let result := outcome (put c a) u.2
    (result.1, u.1 ++ [(c, a)], result.2))

section

variable
  {σ : Type}
  {put : Checksum → Asset → ExceptT AssetError (StateM σ) Unit}

@[simp]
theorem outcome_noting
    (c : Checksum)
    (a : Asset)
    (puts : List (Checksum × Asset))
    (u : σ) :
    outcome (noting put c a) (puts, u) =
      ((outcome (put c a) u).1, puts ++ [(c, a)],
        (outcome (put c a) u).2) :=
  rfl

/- A sink that accepts all puts is given all entries, in order. -/
theorem forM_noting
    (hAccepts : ∀ c a u, (outcome (put c a) u).1 = .ok ())
    (entries puts : List (Checksum × Asset))
    (u : σ) :
    ∃ v,
      outcome
          (entries.forM (fun entry => put entry.1 entry.2)) u =
        (.ok (), v) ∧
      outcome
          (entries.forM (fun entry => noting put entry.1 entry.2))
          (puts, u) =
        (.ok (), puts ++ entries, v) := by
  induction entries generalizing puts u with
  | nil =>
      rw [List.append_nil]
      exact ⟨u, rfl, rfl⟩
  | cons entry rest ih =>
      have hPut :
          outcome (put entry.1 entry.2) u =
            (.ok (), (outcome (put entry.1 entry.2) u).2) :=
        Prod.ext (hAccepts entry.1 entry.2 u) rfl
      rcases ih (puts ++ [entry])
          (outcome (put entry.1 entry.2) u).2 with
        ⟨v, hRest, hNoted⟩
      refine ⟨v, ?_, ?_⟩
      · rw [outcome_forM_cons, hPut]
        exact hRest
      · rw [outcome_forM_cons, outcome_noting, hPut]
        rw [List.append_assoc] at hNoted
        exact hNoted

/-
  Publishing a solution into a sink that accepts all puts
  writes its checksum tree and nothing else.  Nothing is put
  twice, each asset is put under its own checksum, and what is
  put are the assets that are met on the way down from the
  root through the nodes that were put.
-/
theorem Solution.publish_writes_tree
    (hAccepts : ∀ c a u, (outcome (put c a) u).1 = .ok ())
    (s : Solution)
    (hFaithful : Faithful {a | a ∈ s.assets})
    (u : σ) :
    ∃ (puts : List (Checksum × Asset)) (v : σ),
      outcome (s.publish put) u = (.ok s.checksum, v) ∧
      outcome (s.publish (noting put)) ([], u) =
        (.ok s.checksum, puts, v) ∧
      (puts.map Prod.fst).Nodup ∧
      (∀ entry ∈ puts, entry.2.checksum = entry.1) ∧
      ∀ c, c ∈ puts.map Prod.fst ↔ MetBelow puts s.checksum c := by
  rcases forM_noting hAccepts s.publication [] u with
    ⟨v, hPut, hNoted⟩
  refine ⟨s.publication, v, ?_, ?_, nodup_publication, ?_, ?_⟩
  · unfold publish
    rw [outcome_bind, hPut]
    rfl
  · unfold publish
    rw [outcome_bind, hNoted]
    rfl
  · rintro ⟨c, a⟩ hEntry
    exact (mem_of_mem_publication hEntry).2
  · intro c
    exact mem_publication_iff_metBelow hFaithful

end

namespace Solution

/-
  A solution with two documents of one text, which is also the
  text of its frozen document.
-/
def twins : Solution :=
  let second : DocumentId := ⟨⟨Vector.replicate 16 1⟩⟩
  let edits : List Edit :=
    [.addDocuments default .ordinary
      [{ attributes := { id := second, name := "b.cs" }
         text := "class A;" }],
     .attachFrozen
      { identity :=
          { documentId := second, projectId := default
            hintName := "b", filePath := "b.g.cs" }
        text := "class A;" }]
  match small.applyAll edits with
  | .ok s => s
  | .error _ => small

set_option maxRecDepth 4096 in
theorem publish_writes_tree_twins :
    twins.frozen.isSome ∧
      ∃ (puts : List (Checksum × Asset)) (m : MemoryStore),
        outcome (twins.publish MemoryStore.accept) .empty =
          (.ok twins.checksum, m) ∧
        outcome (twins.publish (noting MemoryStore.accept))
            ([], .empty) =
          (.ok twins.checksum, puts, m) ∧
        (puts.map Prod.fst).Nodup ∧
        (∀ entry ∈ puts, entry.2.checksum = entry.1) ∧
        ∀ c, c ∈ puts.map Prod.fst ↔
          MetBelow puts twins.checksum c := by
  have hFaithful : Faithful {a | a ∈ twins.assets} :=
    Faithful.of_nodup (by decide +kernel) (by decide +kernel)
  have hAccepts :
      ∀ c a m, (outcome (MemoryStore.accept c a) m).1 = .ok () :=
    fun _ _ _ => rfl
  exact ⟨by decide +kernel,
    publish_writes_tree hAccepts twins hFaithful .empty⟩

end Solution

end SnapTree
