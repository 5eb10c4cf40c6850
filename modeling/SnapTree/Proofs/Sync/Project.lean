import SnapTree.Proofs.Sync.Documents
import SnapTree.Proofs.Workspace.Reachable
import SnapTree.Sync.ProjectUpdate

/-
  This file proves that a project which gave up its references
  to projects is brought to the one of the target, unless a
  field would change that stays as long as a project lives.

  Key definitions include:
    * `Project.stripped`
    * `Project.Continues`
    * `Project.changedValues`
    * `SyncReport.updating`

  Key theorems include:
    * `Project.changedValues_eq`
    * `Supply.gives_updateOptions`
    * `Supply.gives_updateReferences`
    * `Supply.gives_updateProject`
-/

namespace SnapTree

open ReferenceGraph

/- No field is missed that stays as long as a project lives. -/
theorem ProjectAttributes.changedIdentity?_eq_none_iff
    {a b : ProjectAttributes} :
    a.changedIdentity? b = none ↔
      a.id = b.id ∧ a.language = b.language ∧
        a.isSubmission = b.isSubmission := by
  unfold changedIdentity?
  constructor
  · intro hNone
    split at hNone
    · cases hNone
    split at hNone
    · cases hNone
    split at hNone
    · cases hNone
    · next hId hLanguage hSubmission =>
        rw [not_not] at hId hLanguage hSubmission
        exact ⟨hId, hLanguage, hSubmission⟩
  · rintro ⟨hId, hLanguage, hSubmission⟩
    simp [hId, hLanguage, hSubmission]

/- Only the references to projects can close a cycle. -/
theorem Solution.acyclic_put_of_eq
    {s : Solution}
    {id : ProjectId}
    {p q : Project}
    (hAcyclic : Acyclic (s.put id p).projects)
    (hReferences : q.projectReferences = p.projectReferences) :
    Acyclic (s.put id q).projects := by
  rw [← put_put s id p q]
  exact hAcyclic.insert_of_eq getElem?_put_self hReferences

namespace Project

/- A project that gave up its references to projects. -/
def stripped
    (p : Project) : Project :=
  { p with projectReferences := [] }

/-
  Nothing changes from one project to the other that stays as
  long as a project or a document lives.
-/
structure Continues
    (p q : Project) : Prop where
  attributes :
    p.attributes.changedIdentity? q.attributes = none
  documents : ∀ kind, p.KeepsDocumentsOf q kind

/- The kinds whose documents differ. -/
def changedKinds
    (p q : Project) : List DocumentKind :=
  DocumentKind.all.filter
    (fun kind =>
      (p.node.documents.get kind).checksum ≠
        (q.node.documents.get kind).checksum)

theorem nodup_changedKinds
    (p q : Project) :
    (p.changedKinds q).Nodup :=
  (show DocumentKind.all.Nodup by decide).filter _

/- The documents of any other kind are the same. -/
theorem Comparable.documents_eq_of_notMem
    {p q : Project}
    {assets : Set Asset}
    (hBoth : p.Comparable q assets)
    {kind : DocumentKind}
    (hKind : kind ∉ p.changedKinds q) :
    p.documents.get kind = q.documents.get kind := by
  apply hBoth.documents_eq
  by_contra hNe
  exact hKind (List.mem_filter.2
    ⟨kind.mem_all, decide_eq_true hNe⟩)

end Project

/- The assets in which a part of a project is stored. -/
def ProjectPart.assets :
    (part : ProjectPart) → part.Content → List Asset
  | .attributes, a => [AssetValue.toAsset a]
  | .compilationOptions, o => [AssetValue.toAsset o]
  | .parseOptions, o => [AssetValue.toAsset o]
  | .projectReferences, rs => rs.map AssetValue.toAsset
  | .metadataReferences, rs => rs.map AssetValue.toAsset
  | .analyzerReferences, rs => rs.map AssetValue.toAsset

theorem ProjectPart.mem_all
    (part : ProjectPart) :
    part ∈ ProjectPart.all := by
  cases part <;> decide

namespace Project

/- The assets that a project needs to become another. -/
@[irreducible]
def changedValues
    (p q : Project) : List Asset :=
  (if p.node.attributes ≠ q.node.attributes then
    [.projectAttributes q.attributes] else []) ++
  (if p.node.compilationOptions ≠ q.node.compilationOptions then
    [.compilationOptions q.compilationOptions] else []) ++
  (if p.node.parseOptions ≠ q.node.parseOptions then
    [.parseOptions q.parseOptions] else []) ++
  (if p.node.projectReferences.checksum ≠
      q.node.projectReferences.checksum then
    q.projectReferences.map .projectReference else []) ++
  (if p.node.metadataReferences.checksum ≠
      q.node.metadataReferences.checksum then
    q.metadataReferences.map .metadataReference else []) ++
  (if p.node.analyzerReferences.checksum ≠
      q.node.analyzerReferences.checksum then
    q.analyzerReferences.map .analyzerReference else [])

theorem changedValues_node
    (p q : Project) :
    p.node.changedValues q.node =
      (p.changedValues q).map Asset.checksum := by
  unfold ProjectNode.changedValues changedValues
  simp only [List.map_append, apply_ite (List.map Asset.checksum),
    List.map_map, List.map_cons, List.map_nil]
  rw [q.projectReferences_node, q.metadataReferences_node,
    q.analyzerReferences_node, q.attributes_node,
    q.compilationOptions_node, q.parseOptions_node]
  rfl

/- They are those of the parts that differ. -/
theorem changedValues_eq
    (p q : Project) :
    p.changedValues q =
      ProjectPart.all.flatMap (fun part =>
        if part.checksum p.node ≠ part.checksum q.node then
          part.assets (q.content part)
        else []) := by
  unfold changedValues
  simp only [ProjectPart.all, List.flatMap_cons,
    List.flatMap_nil, List.append_nil, List.append_assoc]
  rfl

theorem mem_changedValues
    {p q : Project}
    (part : ProjectPart)
    (hNe : part.checksum p.node ≠ part.checksum q.node)
    {a : Asset}
    (hA : a ∈ part.assets (q.content part)) :
    a ∈ p.changedValues q := by
  rw [changedValues_eq]
  refine List.mem_flatMap.2 ⟨part, part.mem_all, ?_⟩
  rw [if_pos hNe]
  exact hA

/- They are needed, for where checksums differ values do. -/
theorem needs_of_mem_changedValues
    {p q : Project}
    {a : Asset}
    (hMem : a ∈ p.changedValues q) :
    p.Needs q a := by
  rw [changedValues_eq] at hMem
  rcases List.mem_flatMap.1 hMem with ⟨part, -, hMem⟩
  rcases List.mem_ite_nil_right.1 hMem with ⟨hNe, hA⟩
  have hDiffers : p.content part ≠ q.content part :=
    fun hSame => hNe (part.checksum_congr hSame)
  cases part with
  | attributes =>
      rw [List.mem_singleton.1 hA]
      exact .attributes
  | compilationOptions =>
      rw [List.mem_singleton.1 hA]
      exact .compilationOptions hDiffers
  | parseOptions =>
      rw [List.mem_singleton.1 hA]
      exact .parseOptions hDiffers
  | projectReferences =>
      rcases List.mem_map.1 hA with ⟨r, hR, rfl⟩
      exact .projectReference hDiffers hR
  | metadataReferences =>
      rcases List.mem_map.1 hA with ⟨r, hR, rfl⟩
      exact .metadataReference hDiffers hR
  | analyzerReferences =>
      rcases List.mem_map.1 hA with ⟨r, hR, rfl⟩
      exact .analyzerReference hDiffers hR

end Project

/-
  A report on a project that became another: what happened to
  its documents, and that it changed.
-/
def SyncReport.updating
    (r : SyncReport)
    (p q : Project) : SyncReport :=
  let kinds := p.changedKinds q
  let done := (r.removing p q kinds).revising p q kinds
  { done with projectsUpdated := done.projectsUpdated ++ [p.id] }

namespace Supply

variable {sync : Synchronizer} (S : Supply sync.link)
variable {K : Set Asset} {fail : SyncError → Prop}
variable (hLack : ∀ e, S.lack e → fail (.ofAsset e))

section Values

variable
  {assets : Set Asset}
  {p q : Project}
  (hBoth : p.Comparable q assets)
  (hKnown : ∀ a ∈ p.changedValues q, a ∈ K)
  (s : Solution)
  (id : ProjectId)

include hLack hBoth hKnown

/- A project gets its attributes, unless some of them stay. -/
theorem gives_updateProjectAttributes
    {x : Project}
    (hX : x.attributes = p.attributes)
    (hField :
      p.attributes.changedIdentity? q.attributes ≠ none →
        ∀ v : Violation, v.cause? = none →
          fail (.protocolViolation v)) :
    S.Gives K
      (Synchronizer.updateProjectAttributes (s.put id x) id
        p.attributes p.node.attributes q.node.attributes)
      (p.attributes.changedIdentity? q.attributes = none)
      (s.put id { x with attributes := q.attributes }) K
      fail := by
  unfold Synchronizer.updateProjectAttributes
  by_cases hSame : p.node.attributes = q.node.attributes
  · have hAttributes : p.attributes = q.attributes :=
      (hBoth.content_eq_iff .attributes).1 hSame
    rw [if_pos hSame, ← hAttributes, ← hX]
    apply Gives.anyway
      (ProjectAttributes.changedIdentity?_eq_none_iff.2
        ⟨rfl, rfl, rfl⟩)
    exact Gives.of_pure _
  · have hRead :
        S.Gives K (SyncRun.cached q.node.attributes) True
          q.attributes K fail := by
      rw [q.attributes_node]
      apply S.gives_cached_step hLack
      exact hKnown _ (Project.mem_changedValues .attributes hSame
        List.mem_cons_self)
    rw [if_neg hSame]
    apply hRead.bind
    dsimp only
    cases hChanged :
        p.attributes.changedIdentity? q.attributes with
    | some field =>
        exact Gives.of_throw_bind
          (hField (by simp [hChanged]) _ rfl)
    | none =>
        rcases ProjectAttributes.changedIdentity?_eq_none_iff.1
            hChanged with
          ⟨hId, hLanguage, hSubmission⟩
        rw [← hX] at hId hLanguage hSubmission
        apply Gives.anyway rfl
        exact S.gives_ofEdit
          (Solution.withProjectAttributes_put hId.symm
            hLanguage.symm hSubmission.symm)

/- A project gets its options. -/
theorem gives_updateOptions
    {x : Project}
    (hCompilation : x.compilationOptions = p.compilationOptions)
    (hParse : x.parseOptions = p.parseOptions) :
    S.Gives K
      (Synchronizer.updateOptions (s.put id x) id p.node q.node)
      True
      (s.put id
        { x with
          compilationOptions := q.compilationOptions
          parseOptions := q.parseOptions })
      K fail := by
  unfold Synchronizer.updateOptions
  dsimp only
  rw [← ite_not]
  refine Gives.bindChange
    (s.put id
      { x with compilationOptions := q.compilationOptions })
    ?_ ?_ ?_
  · intro hNe
    have hRead :
        S.Gives K (SyncRun.cached q.node.compilationOptions) True
          q.compilationOptions K fail := by
      rw [q.compilationOptions_node]
      apply S.gives_cached_step hLack
      exact hKnown _ (Project.mem_changedValues
        .compilationOptions hNe List.mem_cons_self)
    exact hRead.bind
      (S.gives_ofEdit (Solution.changeProject_put rfl))
  · intro hSame
    have hEq : x.compilationOptions = q.compilationOptions := by
      rw [hCompilation]
      exact (hBoth.content_eq_iff .compilationOptions).1
        (not_not.1 hSame)
    rw [← hEq]
  split
  · next hSame =>
      have hEq : x.parseOptions = q.parseOptions := by
        rw [hParse]
        exact (hBoth.content_eq_iff .parseOptions).1 hSame
      rw [← hEq]
      exact Gives.of_pure _
  · next hNe =>
      have hRead :
          S.Gives K (SyncRun.cached q.node.parseOptions) True
            q.parseOptions K fail := by
        rw [q.parseOptions_node]
        apply S.gives_cached_step hLack
        exact hKnown _ (Project.mem_changedValues .parseOptions
          hNe List.mem_cons_self)
      exact hRead.bind
        (S.gives_ofEdit (Solution.changeProject_put rfl))

/-
  A project gets its references to projects back.  They close
  no cycle where those of the target do not.
-/
theorem gives_projectReferences
    {x : Project}
    (hNone : x.projectReferences = [])
    (hAcyclic :
      Acyclic
        (s.put id
          { x with
            projectReferences := q.projectReferences }).projects)
    {β : Type}
    {f : Solution → SyncRun β}
    {c : Prop}
    {w : β}
    (hThen :
      S.Gives K
        (f (s.put id
          { x with projectReferences := q.projectReferences }))
        c w K fail) :
    S.Gives K
      (if p.node.projectReferences.checksum ≠
          q.node.projectReferences.checksum then do
        let references ←
          Synchronizer.cachedValues q.node.projectReferences
        SyncRun.ofEdit
          ((s.put id x).withProjectReferences id references) >>= f
      else if p.projectReferences.isEmpty then
        pure (s.put id x) >>= f
      else
        SyncRun.ofEdit
          ((s.put id x).withProjectReferencesOf id p) >>= f)
      c w K fail := by
  have hRestore :
      (s.put id x).withProjectReferences id q.projectReferences =
        .ok (s.put id
          { x with projectReferences := q.projectReferences }) :=
    Solution.withProjectReferences_put (Or.inr hAcyclic)
  split
  · next hNe =>
      have hRead :
          S.Gives K
            (Synchronizer.cachedValues q.node.projectReferences)
            True q.projectReferences K fail := by
        apply S.gives_cachedValues hLack
        · rw [q.projectReferences_node, Collection.members_of]
        · intro r hR
          exact hKnown _ (Project.mem_changedValues
            .projectReferences hNe (List.mem_map_of_mem hR))
      exact hRead.bind ((S.gives_ofEdit hRestore).bind hThen)
  · next hSame =>
      have hEq : p.projectReferences = q.projectReferences :=
        (hBoth.content_eq_iff .projectReferences).1
          (not_not.1 hSame)
      split
      · next hEmpty =>
          rw [hEq, List.isEmpty_iff] at hEmpty
          rw [hEmpty, ← hNone] at hThen
          exact (Gives.of_pure _).bind hThen
      · unfold Solution.withProjectReferencesOf
        rw [hEq]
        exact (S.gives_ofEdit hRestore).bind hThen

/- A project gets its references of all sorts. -/
theorem gives_updateReferences
    {x : Project}
    (hNone : x.projectReferences = [])
    (hMetadata : x.metadataReferences = p.metadataReferences)
    (hAnalyzers : x.analyzerReferences = p.analyzerReferences)
    (hAcyclic :
      Acyclic
        (s.put id
          { x with
            projectReferences := q.projectReferences }).projects) :
    S.Gives K
      (Synchronizer.updateReferences (s.put id x) id p p.node
        q.node)
      True
      (s.put id
        { x with
          projectReferences := q.projectReferences
          metadataReferences := q.metadataReferences
          analyzerReferences := q.analyzerReferences })
      K fail := by
  unfold Synchronizer.updateReferences
  dsimp only
  refine S.gives_projectReferences hLack hBoth hKnown s id hNone
    hAcyclic ?_
  refine Gives.bindChange
    (s.put id
      { x with
        projectReferences := q.projectReferences
        metadataReferences := q.metadataReferences })
    ?_ ?_ ?_
  · intro hNe
    have hRead :
        S.Gives K
          (Synchronizer.metadataReferences
            q.node.metadataReferences)
          True q.metadataReferences K fail := by
      apply S.gives_metadataReferences hLack
      · rw [q.metadataReferences_node, Collection.members_of]
      · intro r hR
        exact hKnown _ (Project.mem_changedValues
          .metadataReferences hNe (List.mem_map_of_mem hR))
    exact hRead.bind
      (S.gives_ofEdit (Solution.changeProject_put rfl))
  · intro hSame
    have hEq : x.metadataReferences = q.metadataReferences := by
      rw [hMetadata]
      exact (hBoth.content_eq_iff .metadataReferences).1
        (not_not.1 hSame)
    rw [← hEq]
  split
  · next hNe =>
      have hRead :
          S.Gives K
            (Synchronizer.analyzerReferences
              q.node.analyzerReferences)
            True q.analyzerReferences K fail := by
        apply S.gives_analyzerReferences hLack
        · rw [q.analyzerReferences_node, Collection.members_of]
        · intro r hR
          exact hKnown _ (Project.mem_changedValues
            .analyzerReferences hNe (List.mem_map_of_mem hR))
      exact hRead.bind
        (S.gives_ofEdit (Solution.changeProject_put rfl))
  · next hSame =>
      have hEq : x.analyzerReferences = q.analyzerReferences := by
        rw [hAnalyzers]
        exact (hBoth.content_eq_iff .analyzerReferences).1
          (not_not.1 hSame)
      rw [← hEq]
      exact Gives.of_pure _

end Values

------------------------------------------------------------
-- The whole project
------------------------------------------------------------

section Project

variable
  {assets : Set Asset}
  {p q : Project}
  (hBoth : p.Comparable q assets)
  (hWanted : ∀ a, p.Needs q a → a ∈ S.wanted)

include hLack hBoth hWanted

/- The documents of the kinds that differ are planned. -/
theorem gives_planProject
    {s : Solution}
    {id : ProjectId}
    {r : Project}
    (hStands : s.projects[id]? = some r)
    (hDocuments : r.documents = p.documents) :
    S.Gives K (sync.planProject s id p.node q.node) True
      ((p.changedKinds q).map (p.planTo q)) K fail := by
  apply Gives.mapM
  intro kind _
  exact S.gives_planDocuments hLack hBoth hWanted hStands
    hDocuments kind

/-
  A project that gave up its references to projects becomes
  the one of the target.
-/
theorem gives_updateProject
    (s : Solution)
    (r : SyncReport)
    (hAcyclic : Acyclic (s.put p.id q).projects)
    (hField :
      ¬p.Continues q →
        ∀ v : Violation, v.cause? = none →
          fail (.protocolViolation v)) :
    S.Gives K
      (sync.updateProject ⟨s.put p.id p.stripped, r⟩ p q.node)
      (p.Continues q)
      ⟨s.put p.id q, r.updating p q⟩ K fail := by
  let K' := K ∪ {a | a ∈ p.changedValues q}
  have hKnown : ∀ a ∈ p.changedValues q, a ∈ K' :=
    fun a hA => Or.inr hA
  have hAssets : ∀ a ∈ p.changedValues q, a ∈ S.wanted :=
    fun a hA => hWanted a (Project.needs_of_mem_changedValues hA)
  have hFetch := S.gives_prefetch_step (K := K) hLack hAssets
  rw [← Project.changedValues_node] at hFetch
  -- The project gets its parts one after another.
  let x₁ : Project := { p.stripped with attributes := q.attributes }
  let x₂ : Project :=
    { x₁ with
      compilationOptions := q.compilationOptions
      parseOptions := q.parseOptions }
  have hAttributes :=
    S.gives_updateProjectAttributes hLack hBoth hKnown s p.id
      (x := p.stripped) rfl
      (fun hNot => hField (fun hContinues =>
        hNot hContinues.attributes))
  have hOptions :=
    S.gives_updateOptions hLack hBoth hKnown s p.id (x := x₁) rfl
      rfl
  have hLast :
      ({ x₂ with
        projectReferences := q.projectReferences
        metadataReferences := q.metadataReferences
        analyzerReferences := q.analyzerReferences } : Project) =
        q.holding p.documents :=
    rfl
  have hReferences :=
    S.gives_updateReferences hLack hBoth hKnown s p.id (x := x₂)
      rfl rfl rfl (Solution.acyclic_put_of_eq hAcyclic rfl)
  rw [hLast] at hReferences
  have hPlans :=
    S.gives_planProject hLack (K := K') hBoth hWanted
      (s := s.put p.id (q.holding p.documents))
      Solution.getElem?_put_self rfl
  have hDocuments :=
    S.gives_updateDocuments hLack (K := K') s p.id q r hBoth
      hWanted
      (fun _ hKind => hBoth.documents_eq_of_notMem hKind)
      (p.nodup_changedKinds q)
      (fun hNot => hField (fun hContinues =>
        hNot hContinues.documents))
  rw [Project.holding_self] at hDocuments
  suffices hAll :
      S.Gives K
        (sync.updateProject ⟨s.put p.id p.stripped, r⟩ p q.node)
        (p.attributes.changedIdentity? q.attributes = none ∧
          ∀ kind, p.KeepsDocumentsOf q kind)
        ⟨s.put p.id q, r.updating p q⟩ K' fail from
    hAll.conseq subset_rfl (fun hBoth => ⟨hBoth.1, hBoth.2⟩)
      (fun a hA => Or.inl hA) (fun _ h => h)
  unfold Synchronizer.updateProject
  apply (S.gives_checkCancelled hLack).bind
  apply hFetch.bind
  refine hAttributes.bindIf (fun _ => ?_)
  apply hOptions.bind
  apply hReferences.bind
  apply hPlans.bind
  apply hDocuments.bindAlways
  unfold SyncReport.updating
  exact Gives.of_pure _

end Project

end Supply

end SnapTree
