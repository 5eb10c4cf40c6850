import SnapTree.Proofs.Manifest.Build
import SnapTree.Proofs.Sync.Convergence

/-
  This file proves that two manifests of one solution path are
  about two versions of one solution, whatever else they say.
  Identities are made from names, and where two of them are
  the same, so are all the fields that have to stay: what was
  recorded of a path tells the name of its file.

  Key definitions include:
    * `Manifest.identityNames`
    * `Manifest.Compatible`

  Key theorems include:
    * `ProjectSection.fileName?_of_recordedPath_eq`
    * `Manifest.Compatible.keepsFields`
    * `Manifest.builds_are_versions`
-/

namespace SnapTree

------------------------------------------------------------
-- Names
------------------------------------------------------------

namespace ProjectSection

/- The names that identities of documents are made from. -/
def documentNames
    (x : ProjectSection) : List String :=
  DocumentKind.all.flatMap
    (fun kind =>
      (x.documents.get kind).map
        (fun path => s!"{kind.name}:{x.recordedPath ⟨path⟩}"))

theorem mem_documentNames
    {x : ProjectSection}
    {kind : DocumentKind}
    {path : String}
    (hPath : path ∈ x.documents.get kind) :
    s!"{kind.name}:{x.recordedPath ⟨path⟩}" ∈ x.documentNames :=
  List.mem_flatMap.2
    ⟨kind, kind.mem_all, List.mem_map.2 ⟨path, hPath, rfl⟩⟩

/- The name of a file is told by the path that is recorded. -/
theorem fileName?_of_recordedPath_eq
    {x y : ProjectSection}
    {p q : Path}
    {a b : String}
    (hP : p.IsInner)
    (hQ : q.IsInner)
    (hA : p.fileName? = some a)
    (hB : q.fileName? = some b)
    (hSame : x.recordedPath p = y.recordedPath q) :
    a = b := by
  have hNames := Path.names_eq_of_portable_eq hSame
  have hLast := congrArg List.getLast? hNames
  rw [Path.names_join hP.relative, Path.names_join hQ.relative,
    List.getLast?_append, List.getLast?_append,
    Path.getLast?_names hA, Path.getLast?_names hB] at hLast
  exact Option.some.inj hLast

end ProjectSection

namespace Manifest

/-
  The names that identities are made from, each with the
  namespace in which it is one.
-/
def identityNames
    (m : Manifest) : List (Uuid × String) :=
  (Uuid.urlNamespace, m.solutionPath) ::
    (m.projects.map (fun x => (m.solutionId.uuid, x.name)) ++
      m.projects.flatMap
        (fun x =>
          x.documentNames.map
            (fun name => ((m.projectId x.name).uuid, name))) ++
      m.frozen.toList.map
        (fun f =>
          ((m.projectId f.project).uuid,
            s!"frozen:{(Path.mk f.path).portable}")))

theorem project_mem_identityNames
    {m : Manifest}
    {x : ProjectSection}
    (hX : x ∈ m.projects) :
    (m.solutionId.uuid, x.name) ∈ m.identityNames := by
  apply List.mem_cons_of_mem
  apply List.mem_append_left
  apply List.mem_append_left
  exact List.mem_map.2 ⟨x, hX, rfl⟩

theorem document_mem_identityNames
    {m : Manifest}
    {x : ProjectSection}
    {kind : DocumentKind}
    {path : String}
    (hX : x ∈ m.projects)
    (hPath : path ∈ x.documents.get kind) :
    ((m.projectId x.name).uuid,
        s!"{kind.name}:{x.recordedPath ⟨path⟩}") ∈
      m.identityNames := by
  apply List.mem_cons_of_mem
  apply List.mem_append_left
  apply List.mem_append_right
  exact List.mem_flatMap.2
    ⟨x, hX, List.mem_map.2
      ⟨_, ProjectSection.mem_documentNames hPath, rfl⟩⟩

------------------------------------------------------------
-- Versions of one solution
------------------------------------------------------------

/-
  Two manifests record the same solution path, and no project
  changes its language from one to the other.  No two of the
  names that they make identities from share an identifier.
-/
structure Compatible (m n : Manifest) : Prop where
  path : m.solutionPath = n.solutionPath
  language :
    ∀ x ∈ m.projects, ∀ y ∈ n.projects,
      x.name = y.name → x.language = y.language
  names :
    Set.InjOn
      (fun name : Uuid × String => Uuid.ofName name.1 name.2)
      {name | name ∈ m.identityNames ∨ name ∈ n.identityNames}

namespace Compatible

variable
  {m n : Manifest}
  (hBoth : m.Compatible n)

include hBoth

theorem solutionId_eq :
    m.solutionId = n.solutionId := by
  unfold solutionId
  rw [hBoth.path]

/- Projects with the same identity have the same name. -/
theorem name_eq
    {x y : ProjectSection}
    (hX : x ∈ m.projects)
    (hY : y ∈ n.projects)
    (hSame : m.projectId x.name = n.projectId y.name) :
    x.name = y.name := by
  have hNames :=
    hBoth.names (Or.inl (project_mem_identityNames hX))
      (Or.inr (project_mem_identityNames hY))
      (congrArg NodeId.uuid hSame)
  exact congrArg Prod.snd hNames

/-
  Documents of one kind with the same identity are recorded
  under the same path.
-/
theorem recordedPath_eq
    {x y : ProjectSection}
    {kind : DocumentKind}
    {p q : String}
    (hX : x ∈ m.projects)
    (hY : y ∈ n.projects)
    (hP : p ∈ x.documents.get kind)
    (hQ : q ∈ y.documents.get kind)
    (hSame :
      x.documentId (m.projectId x.name) kind ⟨p⟩ =
        y.documentId (n.projectId y.name) kind ⟨q⟩) :
    x.recordedPath ⟨p⟩ = y.recordedPath ⟨q⟩ := by
  have hNames :=
    hBoth.names (Or.inl (document_mem_identityNames hX hP))
      (Or.inr (document_mem_identityNames hY hQ))
      (congrArg NodeId.uuid hSame)
  have hTexts :=
    congrArg (fun name => name.2.toList) hNames
  simp only [String.toList_append, List.append_assoc] at hTexts
  have hPaths :=
    List.append_cancel_left (List.append_cancel_left hTexts)
  exact String.toList_injective hPaths

variable
  {files files' : Files}
  {root root' : Path}
  {s t : Solution}
  (hS : m.build files root = .ok s)
  (hT : n.build files' root' = .ok t)

include hS hT

/- What is built has the same identity and the same path. -/
theorem sameLineage :
    s.sameLineage t.attributes = true := by
  rcases attributes_of_build hS with ⟨hId, hPath⟩
  rcases attributes_of_build hT with ⟨hId', hPath'⟩
  rw [Solution.sameLineage_eq_true_iff, hId, hId', hPath, hPath',
    hBoth.solutionId_eq, hBoth.path]
  exact ⟨rfl, rfl⟩

/- What is built keeps all the fields that have to stay. -/
theorem keepsFields :
    s.KeepsFields t := by
  have hWellS := (reachable_of_build hS).wellFormed
  have hWellT := (reachable_of_build hT).wellFormed
  constructor
  · intro id p q hP hQ
    rcases project_of_build hS hP with ⟨x, hX, hId, hGivesP⟩
    rcases project_of_build hT hQ with ⟨y, hY, hId', hGivesQ⟩
    have hName := hBoth.name_eq hX hY (hId.symm.trans hId')
    rw [hGivesP.attributes, hGivesQ.attributes]
    exact ⟨hBoth.language x hX y hY hName, rfl⟩
  · intro id p q kind key d e hP hQ hD hE
    rcases project_of_build hS hP with ⟨x, hX, rfl, hGivesP⟩
    rcases project_of_build hT hQ with ⟨y, hY, hId, hGivesQ⟩
    rcases hGivesP.document kind key d hD with
      ⟨a, hA, hReadA⟩
    rcases hGivesQ.document kind key e hE with
      ⟨b, hB, hReadB⟩
    rcases ProjectSection.document_eq_ok_iff.1 hReadA with
      ⟨name, hInner, hName, -, hAttributes⟩
    rcases ProjectSection.document_eq_ok_iff.1 hReadB with
      ⟨name', hInner', hName', -, hAttributes'⟩
    change d.attributes = _ at hAttributes
    change e.attributes = _ at hAttributes'
    have hKeyD : d.attributes.id = key :=
      (hWellS.project _ p hP).isKeyed kind key d hD
    have hKeyE : e.attributes.id = key :=
      (hWellT.project _ q hQ).isKeyed kind key e hE
    rw [hAttributes] at hKeyD
    rw [hAttributes', hId] at hKeyE
    have hPath :=
      hBoth.recordedPath_eq hX hY hA hB
        (hKeyD.trans hKeyE.symm)
    rw [hAttributes, hAttributes']
    exact ⟨ProjectSection.fileName?_of_recordedPath_eq hInner
      hInner' hName hName' hPath, congrArg some hPath, rfl, rfl⟩

end Compatible

/- No project is left out if all languages are supported. -/
theorem leftOut_eq_nil
    {n : Manifest}
    {files : Files}
    {root : Path}
    {t : Solution}
    {sync : Synchronizer}
    (hT : n.build files root = .ok t)
    (hSupported :
      ∀ y ∈ n.projects,
        sync.settings.supports y.language = true)
    (s : Solution) :
    sync.leftOut s t = [] := by
  unfold Synchronizer.leftOut
  apply List.filter_eq_nil_iff.2
  intro q hQ
  rcases exists_key_of_mem_values hQ with ⟨id, hStands⟩
  rcases project_of_build hT hStands with ⟨y, hY, -, hGives⟩
  have hLanguage : sync.supports q = true := by
    unfold Synchronizer.supports
    rw [hGives.attributes]
    exact hSupported y hY
  simp [hLanguage]

/-
  What is built from a manifest is an incremental update of
  what was built from another one with the same solution path,
  and a synchronization brings the one to the other.  Projects
  and documents may have come, gone and moved, and all else
  may have changed, the languages of the projects excepted.
-/
theorem builds_are_versions
    {m n : Manifest}
    {files files' : Files}
    {root root' : Path}
    {s t : Solution}
    {sync : Synchronizer}
    {session other : Session}
    (hS : m.build files root = .ok s)
    (hT : n.build files' root' = .ok t)
    (hBoth : m.Compatible n)
    (hSupported :
      ∀ y ∈ n.projects,
        sync.settings.supports y.language = true)
    (hAtHand : sync.AtHand s t session)
    (hOther : sync.AtHand s t other) :
    ((sync.isIncrementalUpdate s t.checksum).start other).1 =
        .ok true ∧
      ((sync.synchronize s t.checksum).start session).1 =
        .ok t := by
  have hReachS := reachable_of_build hS
  have hReachT := reachable_of_build hT
  have hLineage := hBoth.sameLineage hS hT
  have hWhole := leftOut_eq_nil hT hSupported s
  rcases hAtHand.exists_run hReachS hReachT hLineage
      (hBoth.keepsFields hS hT) with ⟨f, after, hRun⟩
  constructor
  · rw [hOther.answer_eq, hLineage]
  · unfold Synchronizer.synchronize
    rw [Run.start_bind_of_ok hRun,
      Synchronizer.attained_eq hReachT.wellFormed hWhole]
    rfl

/- A manifest of one project with one document. -/
def early : Manifest where
  solution := { path := "App.sln" }
  projects :=
    [{ name := "Core"
       path := some "src/Core.csproj"
       documents := ⟨["a.cs"], [], []⟩ }]

/-
  A later manifest, which spells the same paths in other ways
  and has one more document.
-/
def late : Manifest where
  solution := { path := "./App.sln", version := 2 }
  projects :=
    [{ name := "Core"
       path := some "src//Core.csproj"
       documents := ⟨["./a.cs"], [], ["b.cs"]⟩ }]

theorem compatible_early_late :
    early.Compatible late := by
  have hIds :
      ((early.identityNames ++
          late.identityNames).eraseDups.map
            (fun name => Uuid.ofName name.1 name.2)).Nodup := by
    decide +kernel
  have hMem :
      ∀ name : Uuid × String,
        name ∈ early.identityNames ∨
            name ∈ late.identityNames →
          name ∈ (early.identityNames ++
            late.identityNames).eraseDups :=
    fun name hName =>
      List.mem_eraseDups.2 (List.mem_append.2 hName)
  refine ⟨by decide +kernel, by decide +kernel, ?_⟩
  intro a hA b hB hSame
  exact List.inj_on_of_nodup_map hIds (hMem a hA) (hMem b hB)
    hSame

/- The one document of the first gets another text. -/
theorem early_late_are_versions :
    let s := early.built (fun _ => .ok "a") ""
    let t := late.built (fun _ => .ok "b") ""
    let sync : Synchronizer :=
      { link := { source := .ofEntries t.publication }
        settings := { supportedLanguages := ["C#"] } }
    ((sync.isIncrementalUpdate s t.checksum).start {}).1 =
        .ok true ∧
      ((sync.synchronize s t.checksum).start {}).1 = .ok t := by
  intro s t sync
  have hBoth : Faithful {a | a ∈ s.assets ∨ a ∈ t.assets} :=
    .of_nodup_append (by decide +kernel) (by decide +kernel)
  have hAtHand : sync.AtHand s t {} :=
    .of_empty rfl (Source.holds_ofEntries _) hBoth
  exact builds_are_versions
    (build_eq_built (by decide +kernel))
    (build_eq_built (by decide +kernel))
    compatible_early_late (by decide +kernel) hAtHand hAtHand

end Manifest

end SnapTree
