import SnapTree.Manifest.Build
import SnapTree.Proofs.Storage.Components
import SnapTree.Proofs.Workspace.Reachable

/-
  This file proves where the parts of a solution come from
  that is built from a manifest: every project from a section,
  every document from one of its paths, and the frozen
  document from the path that is given for it.

  Key definitions include:
    * `ProjectSection.Gives`
    * `Manifest.built`

  Key theorems include:
    * `ProjectSection.fileName_eq_ok_iff`
    * `ProjectSection.document_eq_ok_iff`
    * `Manifest.project_gives`
    * `Manifest.build_eq_ok`
    * `Manifest.reachable_of_build`
    * `Manifest.project_of_build`
    * `Manifest.frozen_of_build`
-/

namespace SnapTree

theorem Files.text_eq_ok_iff
    {files : Files}
    {p : Path}
    {text : String} :
    files.text p = .ok text ↔ files p = .ok text := by
  unfold Files.text
  cases files p with
  | error e => exact ⟨nofun, nofun⟩
  | ok other =>
      constructor
      · exact fun h => congrArg Except.ok (Except.ok.inj h)
      · exact fun h => congrArg Except.ok (Except.ok.inj h)

------------------------------------------------------------
-- Documents
------------------------------------------------------------

namespace ProjectSection

variable
  {x : ProjectSection}
  {files : Files}
  {root : Path}

/- Just inner paths that end in a name are taken. -/
theorem fileName_eq_ok_iff
    {path : Path}
    {name : String} :
    fileName path = .ok name ↔
      path.IsInner ∧ path.fileName? = some name := by
  unfold fileName
  by_cases hOutside :
      path.isAbsolute = true ∨ .up ∈ path.components
  · rw [if_pos (by simpa using hOutside)]
    refine ⟨nofun, ?_⟩
    rintro ⟨⟨hRelative, hUp⟩, -⟩
    rcases hOutside with hAbsolute | hMem
    · rw [hRelative] at hAbsolute
      cases hAbsolute
    · exact absurd hMem hUp
  · rw [if_neg (by simpa using hOutside)]
    rw [not_or, Bool.not_eq_true] at hOutside
    have hInner : path.IsInner := ⟨hOutside.1, hOutside.2⟩
    cases path.fileName? with
    | none => exact ⟨nofun, fun h => nomatch h.2⟩
    | some other =>
        constructor
        · intro hOk
          exact ⟨hInner, congrArg some (Except.ok.inj hOk)⟩
        · rintro ⟨-, hSame⟩
          exact congrArg Except.ok (Option.some.inj hSame)

/- A document is named and recorded as its path says. -/
theorem document_eq_ok_iff
    {id : ProjectId}
    {kind : DocumentKind}
    {path : Path}
    {d : DocumentDescription} :
    x.document id files root kind path = .ok d ↔
      ∃ name, path.IsInner ∧ path.fileName? = some name ∧
        files ((root.join x.directory).join path) =
            .ok d.text ∧
          d.attributes =
            { id := x.documentId id kind path
              name
              folders := (path.parent?.map Path.names).getD []
              filePath := some (x.recordedPath path) } := by
  unfold document
  rw [bind_eq_ok_iff]
  constructor
  · rintro ⟨name, hName, hOk⟩
    rcases bind_eq_ok_iff.1 hOk with ⟨text, hText, hOk⟩
    rcases fileName_eq_ok_iff.1 hName with ⟨hInner, hName⟩
    rw [← Except.ok.inj hOk]
    exact ⟨name, hInner, hName, Files.text_eq_ok_iff.1 hText,
      rfl⟩
  · rintro ⟨name, hInner, hName, hText, hAttributes⟩
    refine ⟨name, fileName_eq_ok_iff.2 ⟨hInner, hName⟩, ?_⟩
    rw [bind_eq_ok_iff]
    refine ⟨d.text, Files.text_eq_ok_iff.2 hText, ?_⟩
    rw [← hAttributes]

------------------------------------------------------------
-- Projects
------------------------------------------------------------

/-
  A project with the attributes of a section, whose documents
  are all read from paths of the section.
-/
structure Gives
    (x : ProjectSection)
    (id : ProjectId)
    (files : Files)
    (root : Path)
    (p : Project) : Prop where
  attributes : p.attributes = x.attributes id
  document :
    ∀ (kind : DocumentKind) (key : DocumentId) (d : Document),
      (p.documents.get kind)[key]? = some d →
        ∃ path ∈ x.documents.get kind,
          x.document id files root kind ⟨path⟩ = .ok d.describe

end ProjectSection

namespace Manifest

variable
  {m : Manifest}
  {files : Files}
  {root : Path}

/- What a section describes is what it gives. -/
theorem project_gives
    {x : ProjectSection}
    {d : ProjectDescription}
    (hOk : m.project files root x = .ok d)
    (hNodup : d.documentIds.Nodup) :
    d.id = m.projectId x.name ∧
      x.Gives (m.projectId x.name) files root d.project := by
  unfold project at hOk
  rcases bind_eq_ok_iff.1 hOk with ⟨references, -, hOk⟩
  rcases bind_eq_ok_iff.1 hOk with
    ⟨ordinary, hOrdinary, hOk⟩
  rcases bind_eq_ok_iff.1 hOk with
    ⟨additional, hAdditional, hOk⟩
  rcases bind_eq_ok_iff.1 hOk with ⟨config, hConfig, hOk⟩
  have hRead :
      ∀ kind,
        x.documentsOf (m.projectId x.name) files root kind =
          .ok (d.documents.get kind) := by
    rw [← Except.ok.inj hOk]
    intro kind
    cases kind
    · exact hOrdinary
    · exact hAdditional
    · exact hConfig
  have hAttributes :
      d.attributes = x.attributes (m.projectId x.name) := by
    rw [← Except.ok.inj hOk]
  refine ⟨congrArg ProjectAttributes.id hAttributes,
    hAttributes, ?_⟩
  intro kind key e hStands
  have hKind :=
    (List.nodup_flatMap.1 hNodup).1 kind kind.mem_all
  unfold ProjectDescription.project at hStands
  dsimp only at hStands
  rw [ByKind.get_ofFn] at hStands
  rcases (getElem?_entering hKind).1 hStands with
    ⟨f, hF, -, rfl⟩ | ⟨-, hNone⟩
  · exact exists_of_mem_mapM (hRead kind) hF
  · simp at hNone

------------------------------------------------------------
-- Solutions
------------------------------------------------------------

variable {s : Solution}

/- A solution is described, and then a document laid over it. -/
theorem build_eq_ok
    (hOk : m.build files root = .ok s) :
    ∃ (d : SolutionDescription) (t : Solution),
      m.describe files root = .ok d ∧
        Solution.ofDescription d = .ok t ∧
          (m.frozen = none ∧ s = t ∨
            ∃ f frozen, m.frozen = some f ∧
              m.frozenDocument files root f = .ok frozen ∧
                t.withFrozen frozen = .ok s) := by
  unfold build at hOk
  rcases bind_eq_ok_iff.1 hOk with ⟨d, hDescribed, hOk⟩
  rcases bind_eq_ok_iff.1 hOk with ⟨t, hMade, hOk⟩
  refine ⟨d, t, hDescribed, mapError_eq_ok_iff.1 hMade, ?_⟩
  cases hFrozen : m.frozen with
  | none =>
      rw [hFrozen] at hOk
      exact Or.inl ⟨rfl, (Except.ok.inj hOk).symm⟩
  | some f =>
      rw [hFrozen] at hOk
      rcases bind_eq_ok_iff.1 hOk with ⟨frozen, hRead, hOk⟩
      exact Or.inr
        ⟨f, frozen, rfl, hRead, mapError_eq_ok_iff.1 hOk⟩

theorem describe_eq_ok
    {d : SolutionDescription}
    (hOk : m.describe files root = .ok d) :
    d.attributes =
        { id := m.solutionId
          filePath := some m.solutionPath
          version := UInt64.ofNat m.solution.version } ∧
      m.projects.mapM (m.project files root) =
        .ok d.projects := by
  unfold describe at hOk
  split at hOk
  · cases hOk
  · rcases bind_eq_ok_iff.1 hOk with ⟨projects, hRead, hOk⟩
    rw [← Except.ok.inj hOk]
    exact ⟨rfl, hRead⟩

variable (hOk : m.build files root = .ok s)

include hOk

/- A solution that was built is one that can come about. -/
theorem reachable_of_build :
    s.Reachable := by
  rcases build_eq_ok hOk with
    ⟨d, t, -, hMade, ⟨-, rfl⟩ | ⟨f, frozen, -, -, hLaid⟩⟩
  · exact .described hMade
  · exact .edited (e := .attachFrozen frozen)
      (.described hMade) hLaid

/- Its identity and its path are those of the manifest. -/
theorem attributes_of_build :
    s.id = m.solutionId ∧
      s.attributes.filePath = some m.solutionPath := by
  rcases build_eq_ok hOk with
    ⟨d, t, hDescribed, hMade, hLaid⟩
  have hAttributes : s.attributes = d.attributes := by
    rcases Solution.ofDescription_eq_ok_iff.1 hMade with
      ⟨-, -, -, rfl⟩
    rcases hLaid with ⟨-, rfl⟩ | ⟨f, frozen, -, -, hLaid⟩
    · rfl
    · rcases Solution.withFrozen_eq_ok_iff.1 hLaid with ⟨-, rfl⟩
      rfl
  unfold Solution.id
  rw [hAttributes, (describe_eq_ok hDescribed).1]
  exact ⟨rfl, rfl⟩

/- Its projects are given by the sections of the manifest. -/
theorem project_of_build
    {id : ProjectId}
    {p : Project}
    (hStands : s.projects[id]? = some p) :
    ∃ x ∈ m.projects, id = m.projectId x.name ∧
      x.Gives id files root p := by
  rcases build_eq_ok hOk with
    ⟨d, t, hDescribed, hMade, hLaid⟩
  rcases Solution.ofDescription_eq_ok_iff.1 hMade with
    ⟨hNodups, hNodup, -, hT⟩
  have hProjects : s.projects = d.projectMap := by
    rcases hLaid with ⟨-, rfl⟩ | ⟨f, frozen, -, -, hLaid⟩
    · rw [hT]
    · rcases Solution.withFrozen_eq_ok_iff.1 hLaid with ⟨-, rfl⟩
      rw [hT]
  rw [hProjects] at hStands
  rcases (getElem?_entering hNodup).1 hStands with
    ⟨e, hE, rfl, rfl⟩ | ⟨-, hNone⟩
  · rcases exists_of_mem_mapM (describe_eq_ok hDescribed).2 hE
      with ⟨x, hX, hGives⟩
    rcases project_gives hGives (hNodups e hE) with
      ⟨hId, hGiven⟩
    rw [hId]
    exact ⟨x, hX, rfl, hGiven⟩
  · simp at hNone

/- Its frozen document is the one of the manifest. -/
theorem frozen_of_build
    {frozen : FrozenDocument}
    (hFrozen : s.frozen = some frozen) :
    ∃ f, m.frozen = some f ∧
      files (root.join f.path) = .ok frozen.text ∧
        frozen.identity.filePath = (Path.mk f.path).portable := by
  rcases build_eq_ok hOk with
    ⟨d, t, -, hMade, ⟨-, rfl⟩ | ⟨f, laid, hF, hRead, hLaid⟩⟩
  · rcases Solution.ofDescription_eq_ok_iff.1 hMade with
      ⟨-, -, -, rfl⟩
    cases hFrozen
  · rcases Solution.withFrozen_eq_ok_iff.1 hLaid with ⟨-, rfl⟩
    rw [← Option.some.inj hFrozen]
    unfold frozenDocument at hRead
    split at hRead
    · cases hRead
    · rcases bind_eq_ok_iff.1 hRead with ⟨text, hText, hRead⟩
      rw [← Except.ok.inj hRead]
      exact ⟨f, hF, Files.text_eq_ok_iff.1 hText, rfl⟩

omit hOk

/- What a build results in, or else a solution without projects. -/
def built
    (m : Manifest)
    (files : Files)
    (root : Path) : Solution :=
  match m.build files root with
  | .ok s => s
  | .error _ => .empty ⟨m.solutionId, none, 0⟩

theorem build_eq_built
    (hOk : (m.build files root).toBool = true) :
    m.build files root = .ok (m.built files root) := by
  unfold built
  cases hResult : m.build files root with
  | error e =>
      rw [hResult] at hOk
      cases hOk
  | ok s => rfl

end Manifest

end SnapTree
