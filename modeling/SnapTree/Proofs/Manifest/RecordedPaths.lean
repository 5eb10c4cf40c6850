import SnapTree.Proofs.Manifest.Build
import SnapTree.Proofs.Storage.Reading

/-
  This file proves when the paths that are recorded in a
  solution name the files that its documents were read from.
  The paths of documents are looked at, but not the directory
  of their project, and not the path of a frozen document.  A
  recorded path is right if these are inner as well, and wrong
  if they are not, unless they start at the root and everything
  else does, too.

  Key definitions include:
    * `Document.ComesFrom`
    * `Manifest.upward`

  Key theorems include:
    * `Manifest.document_comesFrom`
    * `Manifest.recorded_paths_name_sources`
    * `Manifest.upward_misrecorded`
-/

namespace SnapTree

/-
  A document was read from a path of a section, behind the
  directory of the section, and that is what is recorded of it.
-/
structure Document.ComesFrom
    (d : Document)
    (m : Manifest)
    (t : FileTree)
    (root : Path)
    (x : ProjectSection)
    (path : Path) : Prop where
  described : x ∈ m.projects
  named : path.text ∈ x.documents.get d.kind
  inner : path.IsInner
  recorded : d.attributes.filePath = some (x.recordedPath path)
  read :
    t.readText (root.join (x.directory.join path)) = .ok d.text

namespace Manifest

variable
  {m : Manifest}
  {t : FileTree}
  {root : Path}
  {s : Solution}

/- Every document of a solution that was built was read. -/
theorem document_comesFrom
    (hBuild : m.build t.readText root = .ok s)
    {id : ProjectId}
    {p : Project}
    {kind : DocumentKind}
    {key : DocumentId}
    {d : Document}
    (hP : s.projects[id]? = some p)
    (hD : (p.documents.get kind)[key]? = some d) :
    ∃ x path, d.ComesFrom m t root x path := by
  have hWell := (reachable_of_build hBuild).wellFormed
  rcases project_of_build hBuild hP with ⟨x, hX, -, hGives⟩
  rcases hGives.document kind key d hD with
    ⟨path, hPath, hRead⟩
  rcases ProjectSection.document_eq_ok_iff.1 hRead with
    ⟨name, hInner, -, hText, hAttributes⟩
  change d.attributes = _ at hAttributes
  have hKind : d.kind = kind :=
    ((hWell.project id p hP).keyed kind key d hD).2
  refine ⟨x, ⟨path⟩, hX, ?_, hInner, ?_, ?_⟩
  · rw [hKind]
    exact hPath
  · rw [hAttributes]
  · rw [← Path.join_assoc hInner.relative]
    exact hText

/-
  A document was read from the path that is recorded of it if
  the directory of its project is inner.  The two paths differ
  if it is not, at least where a path is relative; then what is
  recorded may name another file or none.  So it is with the
  frozen document and its path.  Behind inner directories, two
  documents with the same recorded path were read from one file.
-/
theorem recorded_paths_name_sources
    (hBuild : m.build t.readText root = .ok s) :
    (∀ (id : ProjectId) (p : Project) (kind : DocumentKind)
        (key : DocumentId) (d : Document),
      s.projects[id]? = some p →
        (p.documents.get kind)[key]? = some d →
          ∃ x path, d.ComesFrom m t root x path ∧
            (x.directory.IsInner →
              t.readText (root.join ⟨x.recordedPath path⟩) =
                .ok d.text) ∧
            (root.isAbsolute = false ∨
                x.directory.isAbsolute = false →
              ((root.join ⟨x.recordedPath path⟩).steps =
                  (root.join (x.directory.join path)).steps ↔
                x.directory.IsInner))) ∧
    (∀ frozen : FrozenDocument, s.frozen = some frozen →
      ∃ f, m.frozen = some f ∧
        t.readText (root.join f.path) = .ok frozen.text ∧
        ((Path.mk f.path).IsInner →
          t.readText (root.join frozen.identity.filePath) =
            .ok frozen.text) ∧
        (root.isAbsolute = false ∨
            (Path.mk f.path).isAbsolute = false →
          ((root.join frozen.identity.filePath).steps =
              (root.join f.path).steps ↔
            (Path.mk f.path).IsInner))) ∧
    (∀ (d e : Document) (x y : ProjectSection) (p q : Path),
      d.ComesFrom m t root x p → e.ComesFrom m t root y q →
        x.directory.IsInner → y.directory.IsInner →
          d.attributes.filePath = e.attributes.filePath →
            d.text = e.text ∧
              (root.join (x.directory.join p)).steps =
                (root.join (y.directory.join q)).steps) := by
  refine ⟨?_, ?_, ?_⟩
  · intro id p kind key d hP hD
    rcases document_comesFrom hBuild hP hD with
      ⟨x, path, hFrom⟩
    have hInner :
        (x.directory.join path).IsInner ↔ x.directory.IsInner :=
      Path.isInner_join_iff hFrom.inner
    have hRoot := Path.isAbsolute_join (p := x.directory)
      hFrom.inner.relative
    refine ⟨x, path, hFrom, ?_, ?_⟩
    · intro hDirectory
      exact FileTree.readText_portable (hInner.2 hDirectory)
        hFrom.read
    · intro hRelative
      rw [← hInner]
      apply Path.steps_join_portable_iff
      rw [hRoot]
      exact hRelative
  · intro frozen hFrozen
    rcases frozen_of_build hBuild hFrozen with
      ⟨f, hF, hRead, hRecorded⟩
    rw [hRecorded]
    exact ⟨f, hF, hRead,
      fun hInner => FileTree.readText_portable hInner hRead,
      fun hRelative => Path.steps_join_portable_iff hRelative⟩
  · intro d e x y p q hD hE hX hY hSame
    rw [hD.recorded, hE.recorded] at hSame
    have hPaths := Option.some.inj hSame
    have hNames := Path.names_eq_of_portable_eq hPaths
    have hSteps :
        ∀ r : Path, r.IsInner →
          r.steps = r.names.map PathComponent.name := by
      intro r hR
      rw [← Path.steps_portable_iff.2 hR, Path.steps_portable]
    have hP := (Path.isInner_join_iff hD.inner).2 hX
    have hQ := (Path.isInner_join_iff hE.inner).2 hY
    have hReadD := FileTree.readText_portable hP hD.read
    have hReadE := FileTree.readText_portable hQ hE.read
    constructor
    · unfold ProjectSection.recordedPath at hPaths
      rw [hPaths, hReadE] at hReadD
      exact (Except.ok.inj hReadD).symm
    · rw [Path.steps_join hP.relative,
        Path.steps_join hQ.relative, hSteps _ hP, hSteps _ hQ,
        hNames]

/- Two projects, the directory of one spelled through another. -/
def upward : Manifest where
  solution := { path := "App.sln" }
  projects :=
    [{ name := "Up"
       path := some "sub/../Lib/Lib.csproj"
       documents := ⟨["a.cs"], [], []⟩ },
     { name := "Sub"
       path := some "sub/Lib/Lib.csproj"
       documents := ⟨["a.cs"], [], []⟩ }]

/- The two directories, with a file of the same name in each. -/
def twoLibraries : FileTree :=
  ((FileTree.ofWorkingDirectory []).place ["Lib", "a.cs"]
    (.file "A".toUTF8.toList)).place ["sub", "Lib", "a.cs"]
      (.file "B".toUTF8.toList)

theorem build_upward :
    upward.build twoLibraries.readText "" =
      .ok (upward.built twoLibraries.readText "") :=
  build_eq_built (by decide +kernel)

theorem isInner_upward_iff :
    ∀ x ∈ upward.projects,
      x.directory.IsInner ↔ x.name = "Sub" := by
  intro x hX
  have hCases :
      x.name = "Up" ∧ x.directory = ⟨"sub/../Lib"⟩ ∨
        x.name = "Sub" ∧ x.directory = ⟨"sub/Lib"⟩ := by
    revert x
    decide +kernel
  rcases hCases with ⟨hName, hDirectory⟩ | ⟨hName, hDirectory⟩
  · rw [hName, hDirectory]
    constructor
    · intro hInner
      exact absurd hInner.up (by decide)
    · intro hSame
      exact absurd hSame (by decide)
  · rw [hName, hDirectory]
    exact ⟨fun _ => rfl, fun _ => ⟨by decide, by decide⟩⟩

/-
  What is recorded of the document of the second project is
  right, and of that of the first it is not.
-/
theorem upward_names_sources :
    let s := upward.built twoLibraries.readText ""
    ∀ (id : ProjectId) (p : Project) (kind : DocumentKind)
        (key : DocumentId) (d : Document),
      s.projects[id]? = some p →
        (p.documents.get kind)[key]? = some d →
          ∃ x path, d.ComesFrom upward twoLibraries "" x path ∧
            (x.name = "Sub" →
              twoLibraries.readText
                  (Path.join "" ⟨x.recordedPath path⟩) =
                .ok d.text) ∧
            ((Path.join "" ⟨x.recordedPath path⟩).steps =
                (Path.join "" (x.directory.join path)).steps ↔
              x.name = "Sub") := by
  intro s id p kind key d hP hD
  rcases recorded_paths_name_sources build_upward with
    ⟨hDocuments, -, -⟩
  rcases hDocuments id p kind key d hP hD with
    ⟨x, path, hFrom, hRead, hSteps⟩
  have hInner := isInner_upward_iff x hFrom.described
  refine ⟨x, path, hFrom, ?_, ?_⟩
  · rw [← hInner]
    exact hRead
  · rw [← hInner]
    exact hSteps (Or.inl (by decide))

/-
  The text that was read in one directory is recorded as that
  of a file in the other, which has a document of its own.
-/
theorem upward_misrecorded :
    let s := upward.built twoLibraries.readText ""
    upward.build twoLibraries.readText "" = .ok s ∧
      ((s.projectList.flatMap Project.allDocuments).map
        (fun d => (d.attributes.filePath, d.text))).Perm
          [(some "sub/Lib/a.cs", "A"),
            (some "sub/Lib/a.cs", "B")] ∧
      twoLibraries.readText (Path.join "" "sub/../Lib/a.cs") =
        .ok "A" ∧
      twoLibraries.readText (Path.join "" "sub/Lib/a.cs") =
        .ok "B" := by
  intro s
  exact ⟨build_upward, by decide +kernel, by decide +kernel,
    by decide +kernel⟩

end Manifest

end SnapTree
