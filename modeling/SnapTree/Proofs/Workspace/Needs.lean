import SnapTree.Proofs.Workspace.Tree

/-
  This file defines which assets of a target a baseline needs:
  those of the parts that it lacks or has otherwise.

  Key definitions include:
    * `Project.Needs`
    * `Solution.Needs`

  Key theorems include:
    * `Project.Needs.mem_assets`
    * `Solution.Needs.mem_assets`
-/

namespace SnapTree

/-
  The assets that a project needs to become another: node and
  attributes in any case, options and references where they
  differ, and the documents of each kind whose checksums it
  lacks.
-/
inductive Project.Needs
    (p q : Project) : Asset → Prop where
  | node :
      Needs p q (.projectNode q.node)
  | attributes :
      Needs p q (.projectAttributes q.attributes)
  | compilationOptions
      (hNe : p.compilationOptions ≠ q.compilationOptions) :
      Needs p q (.compilationOptions q.compilationOptions)
  | parseOptions
      (hNe : p.parseOptions ≠ q.parseOptions) :
      Needs p q (.parseOptions q.parseOptions)
  | projectReference
      (hNe : p.projectReferences ≠ q.projectReferences)
      {r : ProjectReference}
      (hR : r ∈ q.projectReferences) :
      Needs p q (.projectReference r)
  | metadataReference
      (hNe : p.metadataReferences ≠ q.metadataReferences)
      {r : MetadataReference}
      (hR : r ∈ q.metadataReferences) :
      Needs p q (.metadataReference r)
  | analyzerReference
      (hNe : p.analyzerReferences ≠ q.analyzerReferences)
      {r : AnalyzerReference}
      (hR : r ∈ q.analyzerReferences) :
      Needs p q (.analyzerReference r)
  | document
      {kind : DocumentKind}
      {e : Document}
      (hThere : e ∈ q.documentsOf kind)
      (hNew :
        e.checksum ∉
          (p.documentsOf kind).map Document.checksum)
      {a : Asset}
      (hA : a ∈ e.assets) :
      Needs p q a

/- They are assets of the other project. -/
theorem Project.Needs.mem_assets
    {p q : Project}
    {a : Asset}
    (hNeeds : p.Needs q a) :
    a ∈ q.assets := by
  rcases (forall_mem_assets (p := q)).1 (fun _ h => h) with
    ⟨hNode, hAttributes, hCompilation, hParse, hProjects,
      hMetadata, hAnalyzers, hDocuments⟩
  cases hNeeds with
  | node => exact hNode
  | attributes => exact hAttributes
  | compilationOptions _ => exact hCompilation
  | parseOptions _ => exact hParse
  | projectReference _ hR => exact hProjects _ hR
  | metadataReference _ hR => exact hMetadata _ hR
  | analyzerReference _ hR => exact hAnalyzers _ hR
  | document hThere _ hA => exact hDocuments _ _ hThere _ hA

/-
  The assets that a solution needs to become another: the root
  and the frozen document in any case, attributes and analyzer
  references where they differ, all of a project that it lacks,
  and of a project whose checksum differs what that needs.
-/
inductive Solution.Needs
    (s t : Solution) : Asset → Prop where
  | node :
      Needs s t (.solutionNode t.node)
  | attributes
      (hNe : s.attributes ≠ t.attributes) :
      Needs s t (.solutionAttributes t.attributes)
  | analyzerReference
      (hNe : s.analyzerReferences ≠ t.analyzerReferences)
      {r : AnalyzerReference}
      (hR : r ∈ t.analyzerReferences) :
      Needs s t (.analyzerReference r)
  | frozen
      {f : FrozenDocument}
      (hF : t.frozen = some f)
      {a : Asset}
      (hA : a ∈ f.assets) :
      Needs s t a
  | added
      {id : ProjectId}
      {q : Project}
      (hThere : t.projects[id]? = some q)
      (hNew : id ∉ s.projects)
      {a : Asset}
      (hA : a ∈ q.assets) :
      Needs s t a
  | changed
      {id : ProjectId}
      {p q : Project}
      (hHere : s.projects[id]? = some p)
      (hThere : t.projects[id]? = some q)
      (hNe : p.checksum ≠ q.checksum)
      {a : Asset}
      (hA : p.Needs q a) :
      Needs s t a

/- They are assets of the other solution. -/
theorem Solution.Needs.mem_assets
    {s t : Solution}
    {a : Asset}
    (hNeeds : s.Needs t a) :
    a ∈ t.assets := by
  rcases (forall_mem_assets (s := t)).1 (fun _ h => h) with
    ⟨hNode, hAttributes, hAnalyzers, hProjects, hFrozen⟩
  cases hNeeds with
  | node => exact hNode
  | attributes _ => exact hAttributes
  | analyzerReference _ hR => exact hAnalyzers _ hR
  | frozen hF hA => exact hFrozen _ hF _ hA
  | added hThere _ hA => exact hProjects _ (mem_values hThere) _ hA
  | changed _ hThere _ hA =>
      exact hProjects _ (mem_values hThere) _ hA.mem_assets

end SnapTree
