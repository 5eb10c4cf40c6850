import SnapTree.Proofs.Sync.ProjectStages

/-
  This file proves that the projects of a solution are brought
  to those of the target: no step on the way is refused unless
  a project or a document would change a field that it keeps
  as long as it lives.

  Key definitions include:
    * `Solution.Continues`
    * `SyncReport.migrating`

  Key theorems include:
    * `Supply.gives_newProjects`
    * `Supply.gives_bringProject`
    * `Supply.gives_updateProjects`
-/

namespace SnapTree

open ReferenceGraph

/- No project of both sides changes what it has to keep. -/
def Solution.Continues
    (s t : Solution) : Prop :=
  ∀ (id : ProjectId) (p q : Project),
    s.projects[id]? = some p → t.projects[id]? = some q →
      p.Continues q

/- Nothing changes in a project that stays as it is. -/
theorem Project.Continues.refl
    (p : Project) :
    p.Continues p where
  attributes :=
    ProjectAttributes.changedIdentity?_eq_none_iff.2
      ⟨rfl, rfl, rfl⟩
  documents _ := KeepsDocumentsOf.of_eq rfl

/- It suffices that the projects that change keep it. -/
theorem Solution.continues_iff
    {s t : Solution}
    (hKeyed : IsKeyed Project.id s.projects) :
    s.Continues t ↔
      ∀ pair ∈ changers s.projects t.projects,
        pair.1.Continues pair.2 := by
  constructor
  · rintro hContinues ⟨p, q⟩ hPair
    rcases (mem_changers hKeyed).1 hPair with ⟨hP, hQ, -⟩
    exact hContinues p.id p q hP hQ
  · intro hPairs id p q hP hQ
    by_cases hSame : p = q
    · rw [hSame]
      exact Project.Continues.refl q
    · have hId := hKeyed id p hP
      subst hId
      exact hPairs (p, q) ((mem_changers hKeyed).2
        ⟨hP, hQ, hSame⟩)

/- The node of a project and what it names as attributes. -/
def Project.introduction
    (q : Project) : List Asset :=
  [.projectNode q.node, .projectAttributes q.attributes]

/- Whether a project can be held where it is synchronized. -/
def Synchronizer.supports
    (sync : Synchronizer)
    (q : Project) : Bool :=
  sync.settings.supports q.attributes.language

namespace SyncReport

variable (r : SyncReport) (supports : Project → Bool)

/- A report on projects that went. -/
def dropping
    (done : List ProjectId) : SyncReport :=
  { r with projectsRemoved := r.projectsRemoved ++ done }

/- A report on projects that came or were left out. -/
def joining
    (done : List Project) : SyncReport :=
  { r with
    documentsAdded :=
      r.documentsAdded +
        ((done.filter supports).map
          (fun q => q.node.allDocuments.length)).sum
    projectsAdded :=
      r.projectsAdded ++ (done.filter supports).map Project.id
    skippedProjects :=
      r.skippedProjects ++
        (done.filter (fun q => !supports q)).map
          Project.skipped }

/- A report on projects that became others. -/
def renewing
    (done : List (Project × Project)) : SyncReport :=
  done.foldl (fun r pair => r.updating pair.1 pair.2) r

/- A report on everything that happens to the projects. -/
def migrating
    (m target : ProjectMap) : SyncReport :=
  ((r.dropping (leavers m target)).joining supports
    (comers m target)).renewing (changers m target)

theorem dropping_concat
    (done : List ProjectId)
    (id : ProjectId) :
    r.dropping (done ++ [id]) =
      { r.dropping done with
        projectsRemoved :=
          (r.dropping done).projectsRemoved ++ [id] } := by
  unfold dropping
  rw [← List.append_assoc]

theorem joining_concat_of_supported
    (done : List Project)
    {q : Project}
    (hSupported : supports q = true) :
    r.joining supports (done ++ [q]) =
      { r.joining supports done with
        documentsAdded :=
          (r.joining supports done).documentsAdded +
            q.node.allDocuments.length
        projectsAdded :=
          (r.joining supports done).projectsAdded ++
            [q.id] } := by
  unfold joining
  simp [List.filter_append, hSupported, Nat.add_assoc]

theorem joining_concat_of_unsupported
    (done : List Project)
    {q : Project}
    (hUnsupported : supports q = false) :
    r.joining supports (done ++ [q]) =
      { r.joining supports done with
        skippedProjects :=
          (r.joining supports done).skippedProjects ++
            [q.skipped] } := by
  unfold joining
  simp [List.filter_append, hUnsupported]

theorem renewing_concat
    (done : List (Project × Project))
    (pair : Project × Project) :
    r.renewing (done ++ [pair]) =
      (r.renewing done).updating pair.1 pair.2 := by
  unfold renewing
  rw [List.foldl_append]
  rfl

end SyncReport

namespace Supply

variable {sync : Synchronizer} (S : Supply sync.link)
variable {K : Set Asset} {fail : SyncError → Prop}
variable (hLack : ∀ e, S.lack e → fail (.ofAsset e))

include hLack

/- The nodes of projects, each under its identity. -/
theorem gives_newProjects
    {qs : List Project}
    (hNodes : ∀ q ∈ qs, Asset.projectNode q.node ∈ S.wanted)
    (hAttributes :
      ∀ q ∈ qs, Asset.projectAttributes q.attributes ∈ S.wanted)
    (hChecksums : (qs.map Project.checksum).Nodup)
    (hIds : (qs.map Project.id).Nodup) :
    S.Gives K (sync.newProjects (qs.map Project.checksum)) True
      (entering Project.id Project.node ∅ qs)
      (K ∪ {a | ∃ q ∈ qs, a ∈ q.introduction}) fail := by
  rw [map_checksum_projects] at hChecksums ⊢
  refine S.gives_enteredNodes hLack Project.attributes
    ProjectNode.attributes (fun q => q.attributes_node) ?_
    hNodes hAttributes hChecksums hIds
  intro K q m hKnown hFree
  have hRead :
      S.Gives K (SyncRun.cached q.node.attributes) True
        q.attributes K fail := by
    rw [q.attributes_node]
    exact S.gives_cached_step hLack hKnown
  have hContains : m.contains q.attributes.id = false := by
    rw [← Bool.not_eq_true, Std.ExtTreeMap.contains_iff_mem]
    exact hFree
  unfold Synchronizer.enterProject
  apply hRead.bind
  rw [hContains]
  exact Gives.of_pure _

section Stages

variable
  {s t : Solution}
  {assets : Set Asset}
  (hBoth : s.Comparable t assets)
  (b : Solution)
  (r : SyncReport)

omit hLack in
include hBoth in
/- Projects that change give up their references. -/
theorem gives_stripped :
    S.Gives K
      ((changers s.projects t.projects).foldlM
        (fun x pair => Synchronizer.stripReferences x pair.2.id)
        (b.holding s.projects))
      True
      (b.holding
        (s.projects.freed (changers s.projects t.projects)))
      K fail := by
  apply Gives.foldlM_always
    (fun done => b.holding (s.projects.freed done)) rfl
  rintro done ⟨p, q⟩ rest hSplit
  have hStands :
      (b.holding (s.projects.freed done)).projects[q.id]? =
        some p :=
    ProjectMap.getElem?_freed_of_later hBoth.left.isKeyed
      hBoth.right.isKeyed hSplit
  have hNext :
      b.holding (s.projects.freed (done ++ [(p, q)])) =
        (b.holding (s.projects.freed done)).put q.id
          p.stripped := by
    unfold ProjectMap.freed
    rw [entering_concat, Solution.put_holding]
  unfold Synchronizer.stripReferences Solution.project?
  dsimp only
  rw [hStands, hNext]
  dsimp only
  split
  · next hEmpty =>
      have hSame : p.stripped = p := by
        unfold Project.stripped
        rw [← List.isEmpty_iff.1 hEmpty]
      rw [hSame, Solution.put_self hStands]
      exact Gives.of_pure _
  · apply S.gives_ofEdit
    exact Solution.withProjectReferences_eq_ok_iff.2
      ⟨p, hStands, rfl, Or.inl rfl⟩

omit hLack in
include hBoth in
/- Projects that the target lacks go. -/
theorem gives_dropped
    (hFrozen : b.frozen = none) :
    S.Gives K
      ((leavers s.projects t.projects).foldlM
        Synchronizer.dropProject
        ⟨b.holding
          (s.projects.freed (changers s.projects t.projects)),
          r⟩)
      True
      ⟨b.holding
        (s.projects.cleared t.projects
          (leavers s.projects t.projects)),
        r.dropping (leavers s.projects t.projects)⟩
      K fail := by
  have hStart : r.dropping [] = r := by
    unfold SyncReport.dropping
    rw [List.append_nil]
  apply Gives.foldlM_always
    (fun done =>
      (⟨b.holding (s.projects.cleared t.projects done),
        r.dropping done⟩ : SyncOutcome))
    (by rw [hStart]; rfl)
  intro done id rest hSplit
  have hStands :
      id ∈ s.projects.cleared t.projects done :=
    ProjectMap.mem_cleared_of_later hBoth.left.isKeyed
      hBoth.right.isKeyed hSplit
  have hNext :
      s.projects.cleared t.projects (done ++ [id]) =
        (s.projects.cleared t.projects done).erase id := by
    unfold ProjectMap.cleared
    rw [erasing_concat]
  have hRemove :
      (b.holding
          (s.projects.cleared t.projects done)).removeProject
            id =
        .ok (b.holding
          (s.projects.cleared t.projects (done ++ [id]))) := by
    rw [hNext, ← Solution.drop_holding hFrozen]
    exact Solution.removeProject_eq_ok_iff.2 ⟨hStands, rfl⟩
  unfold Synchronizer.dropProject
  apply (S.gives_ofEdit hRemove).bind
  rw [SyncReport.dropping_concat]
  exact Gives.of_pure _

/- A project that comes is taken in, or left out. -/
theorem gives_bringProject
    {m : ProjectMap}
    {q : Project}
    (hWell : q.WellFormed)
    (hWanted : ∀ a ∈ q.assets, a ∈ S.wanted)
    (hFree : q.id ∉ m)
    (hAcyclic : Acyclic (m.insert q.id q)) :
    S.Gives K
      (sync.bringProject ⟨b.holding m, r⟩ (q.id, q.node)) True
      (if sync.supports q then
        { solution := b.holding (m.insert q.id q)
          report :=
            { r with
              documentsAdded :=
                r.documentsAdded + q.node.allDocuments.length
              projectsAdded := r.projectsAdded ++ [q.id] } }
      else
        { solution := b.holding m
          report :=
            { r with
              skippedProjects :=
                r.skippedProjects ++ [q.skipped] } })
      K fail := by
  let K' :=
    K ∪ {.projectNode q.node, .projectAttributes q.attributes}
  have hNode : Asset.projectNode q.node ∈ q.assets := by
    simp [Project.assets]
  have hAttributes :
      Asset.projectAttributes q.attributes ∈ q.assets := by
    simp [Project.assets]
  have hDescription :
      S.Gives K (sync.projectDescription q.checksum) True
        (if sync.supports q then some q.describe else none) K'
        fail :=
    S.gives_projectDescription hLack (hWanted _ hNode)
      (hWanted _ hAttributes) (fun _ => hWanted)
  have hAdd :
      (b.holding m).addProject q.describe =
        .ok (b.holding (m.insert q.id q)) := by
    refine Solution.addProject_eq_ok_iff.2
      ⟨hFree, hWell.nodup_documentIds, ?_, Or.inr hAcyclic⟩
    rw [hWell.project_describe]
    rfl
  suffices hAll :
      S.Gives K
        (sync.bringProject ⟨b.holding m, r⟩ (q.id, q.node)) True
        _ K' fail from
    hAll.keep (fun a hA => Or.inl hA)
  unfold Synchronizer.bringProject
  apply (S.gives_checkCancelled hLack).bind
  cases hSupported : sync.supports q with
  | true =>
      rw [if_pos hSupported] at hDescription
      apply hDescription.bind
      apply (S.gives_ofEdit hAdd).bind
      exact Gives.of_pure _
  | false =>
      rw [if_neg (by simp [hSupported])] at hDescription
      apply hDescription.bind
      apply (S.gives_skippedProject hLack (p := q)
        (Or.inr (Or.inl rfl)) (Or.inr (Or.inr rfl))).bind
      exact Gives.of_pure _

include hBoth in
/- Projects that the target has in addition come. -/
theorem gives_brought
    (hWanted :
      ∀ q ∈ comers s.projects t.projects,
        ∀ a ∈ q.assets, a ∈ S.wanted) :
    S.Gives K
      ((comers s.projects t.projects).foldlM
        (fun o q => sync.bringProject o (q.id, q.node))
        ⟨b.holding
          (s.projects.cleared t.projects
            (leavers s.projects t.projects)), r⟩)
      True
      ⟨b.holding
        (ProjectMap.joined sync.supports s.projects t.projects
          (comers s.projects t.projects)),
        r.joining sync.supports
          (comers s.projects t.projects)⟩
      K fail := by
  have hKeyedS := hBoth.left.isKeyed
  have hKeyedT := hBoth.right.isKeyed
  have hStart : r.joining sync.supports [] = r := by
    unfold SyncReport.joining
    simp
  apply Gives.foldlM_always
    (fun done =>
      (⟨b.holding
          (ProjectMap.joined sync.supports s.projects t.projects
            done),
        r.joining sync.supports done⟩ : SyncOutcome))
    (by rw [hStart]; rfl)
  intro done q rest hSplit
  have hComes : q ∈ comers s.projects t.projects :=
    mem_of_later hSplit
  have hThere := ((mem_comers hKeyedT).1 hComes).1
  have hFree :
      q.id ∉ ProjectMap.joined sync.supports s.projects
        t.projects done :=
    ProjectMap.notMem_joined_of_later hKeyedS hKeyedT hSplit
  have hSettles :
      ProjectMap.Settles
        (ProjectMap.joined sync.supports s.projects t.projects
          done) t.projects := by
    apply ProjectMap.settles_joined hKeyedS hKeyedT
    intro p hP
    rw [hSplit]
    exact List.mem_append_left _ hP
  have hStep :=
    S.gives_bringProject (K := K) hLack b
      (r.joining sync.supports done)
      (hBoth.right.project q.id q hThere)
      (hWanted q hComes) hFree
      ((hSettles.insert hThere).acyclic hBoth.right.acyclic)
  rw [ProjectMap.joined_concat]
  cases hSupported : sync.supports q with
  | true =>
      rw [if_pos hSupported] at hStep
      rw [SyncReport.joining_concat_of_supported _ _ _
        hSupported]
      exact hStep
  | false =>
      rw [if_neg (by simp [hSupported])] at hStep
      rw [SyncReport.joining_concat_of_unsupported _ _ _
        hSupported]
      exact hStep

/- What has come of the projects once some of them changed. -/
def renewedOutcome
    (sync : Synchronizer)
    (s t b : Solution)
    (r : SyncReport)
    (done : List (Project × Project)) : SyncOutcome :=
  ⟨b.holding
    (ProjectMap.renewed sync.supports s.projects t.projects
      done), r.renewing done⟩

include hBoth in
/- One more project becomes that of the target. -/
theorem gives_renewed_step
    {done rest : List (Project × Project)}
    {p q : Project}
    (hSplit :
      changers s.projects t.projects = done ++ (p, q) :: rest)
    (hWanted : ∀ a, p.Needs q a → a ∈ S.wanted)
    (hField :
      ¬p.Continues q →
        ∀ v : Violation, v.cause? = none →
          fail (.protocolViolation v)) :
    S.Gives K
      (sync.updateProject (renewedOutcome sync s t b r done) p
        q.node)
      (p.Continues q)
      (renewedOutcome sync s t b r (done ++ [(p, q)])) K
      fail := by
  have hKeyedS := hBoth.left.isKeyed
  have hKeyedT := hBoth.right.isKeyed
  have hPair : (p, q) ∈ changers s.projects t.projects :=
    mem_of_later hSplit
  have hId := key_eq_of_mem_changers hKeyedS hKeyedT hPair
  rcases (mem_changers hKeyedS).1 hPair with ⟨hP, hQ, -⟩
  have hStands :
      (b.holding
        (ProjectMap.renewed sync.supports s.projects t.projects
          done)).projects[p.id]? = some p.stripped :=
    ProjectMap.getElem?_renewed_of_later hKeyedS hKeyedT hSplit
  have hNext :
      b.holding
          (ProjectMap.renewed sync.supports s.projects t.projects
            (done ++ [(p, q)])) =
        (b.holding
          (ProjectMap.renewed sync.supports s.projects
            t.projects done)).put p.id q := by
    unfold ProjectMap.renewed
    rw [entering_concat, Solution.put_holding]
    dsimp only
    rw [hId]
  have hAcyclic :
      Acyclic
        ((b.holding
          (ProjectMap.renewed sync.supports s.projects
            t.projects done)).put p.id q).projects := by
    rw [← hNext, Solution.projects_holding]
    apply (ProjectMap.settles_renewed hKeyedS hKeyedT ?_).acyclic
      hBoth.right.acyclic
    intro pair hDone
    rw [hSplit]
    rcases List.mem_append.1 hDone with hOld | hNew
    · exact List.mem_append_left _ hOld
    · rw [List.mem_singleton.1 hNew]
      exact List.mem_append_right _ List.mem_cons_self
  have hStep :=
    S.gives_updateProject hLack (K := K)
      (hBoth.project hP hQ) hWanted
      (b.holding
        (ProjectMap.renewed sync.supports s.projects t.projects
          done))
      (r.renewing done) hAcyclic hField
  rw [Solution.put_self hStands] at hStep
  unfold renewedOutcome
  rw [hNext, SyncReport.renewing_concat]
  exact hStep

include hBoth in
/- Projects that differ from those of the target change. -/
theorem gives_renewed
    (hWanted :
      ∀ pair ∈ changers s.projects t.projects,
        ∀ a, pair.1.Needs pair.2 a → a ∈ S.wanted)
    (hField :
      ¬s.Continues t →
        ∀ v : Violation, v.cause? = none →
          fail (.protocolViolation v)) :
    S.Gives K
      ((changers s.projects t.projects).foldlM
        (fun o pair => sync.updateProject o pair.1 pair.2.node)
        ⟨b.holding
          (ProjectMap.joined sync.supports s.projects t.projects
            (comers s.projects t.projects)), r⟩)
      (s.Continues t)
      ⟨b.holding
        (ProjectMap.renewed sync.supports s.projects t.projects
          (changers s.projects t.projects)),
        r.renewing (changers s.projects t.projects)⟩
      K fail := by
  rw [Solution.continues_iff hBoth.left.isKeyed] at hField ⊢
  apply Gives.foldlM (renewedOutcome sync s t b r)
  rintro done ⟨p, q⟩ rest hSplit -
  have hPair : (p, q) ∈ changers s.projects t.projects :=
    mem_of_later hSplit
  exact S.gives_renewed_step hLack hBoth b r hSplit
    (hWanted _ hPair)
    (fun hNot => hField (fun hAll => hNot (hAll _ hPair)))

include hBoth in
/- The nodes of the projects that a solution lacks. -/
theorem gives_arrivals
    (hWanted : ∀ a, s.Needs t a → a ∈ S.wanted) :
    S.Gives K
      (sync.newProjects
        (differenceOf Project.checksum s.projects
          t.projects).addedOnly.toList)
      True
      ((departing t.projects s.projects).map
        (fun _ q => q.node))
      (K ∪
        {a | ∃ (id : ProjectId) (q : Project),
          (departing t.projects s.projects)[id]? = some q ∧
            a ∈ q.introduction})
      fail := by
  rcases exists_arriving hBoth.toldApart hBoth.left.isKeyed
      hBoth.right.isKeyed Project.node with
    ⟨es, hMap, hNew, hChecks, hKeys, hEntered⟩
  have hNodes :=
    S.gives_newProjects (K := K) hLack
      (fun e hE => hWanted _ (hBoth.needs_node (hNew e hE)))
      (fun e hE => hWanted _ (hBoth.needs_attributes (hNew e hE)))
      hChecks hKeys
  rw [hMap, hEntered] at hNodes
  apply hNodes.keep
  rintro a (hA | ⟨id, q, hThere, hA⟩)
  · exact Or.inl hA
  · exact Or.inr
      ⟨q, mem_of_entering_eq hNew hKeys hEntered hThere, hA⟩

include hBoth in
/-
  Projects go, come and change until they are those that the
  target leaves.
-/
theorem gives_updateProjects
    (hFrozen : b.frozen = none)
    (hWanted : ∀ a, s.Needs t a → a ∈ S.wanted)
    (hField :
      ¬s.Continues t →
        ∀ v : Violation, v.cause? = none →
          fail (.protocolViolation v)) :
    S.Gives K
      (sync.updateProjects ⟨b.holding s.projects, r⟩
        s.node.projects t.node.projects)
      (s.Continues t)
      ⟨b.holding
        (ProjectMap.attained sync.supports s.projects
          t.projects),
        r.migrating sync.supports s.projects t.projects⟩
      K fail := by
  have hKeyedS := hBoth.left.isKeyed
  have hKeyedT := hBoth.right.isKeyed
  have hTold := hBoth.toldApart
  have hNodes :=
    (S.gives_arrivals (K := K) hLack hBoth hWanted).keep
      Set.subset_union_left
  let coming := comers s.projects t.projects
  have hComing :
      ∀ q ∈ coming, ∀ a ∈ q.assets, a ∈ S.wanted := by
    intro q hQ a hA
    rcases (mem_comers hKeyedT).1 hQ with ⟨hThere, hAbsent⟩
    exact hWanted a (.added hThere hAbsent hA)
  have hChanging :
      ∀ pair ∈ changers s.projects t.projects,
        ∀ a, pair.1.Needs pair.2 a → a ∈ S.wanted := by
    rintro ⟨p, q⟩ hPair a hA
    rcases (mem_changers hKeyedS).1 hPair with ⟨hP, hQ, hNe⟩
    exact hWanted a
      (.changed hP hQ (hBoth.checksum_ne hP hQ hNe) hA)
  have hTrees :
      S.Gives K
        (SyncRun.ofAssets
          (sync.link.fetchProjects
            (coming.map Project.checksum)))
        True () K fail :=
    ((S.gives_fetchProjects hComing).failingAs hLack).keep
      (fun a hA => Or.inl hA)
  have hBefore := filter_removedOnly_eq hTold hKeyedS hKeyedT
  unfold differenceOf at hNodes hBefore
  unfold Synchronizer.updateProjects
  apply (S.gives_checkCancelled hLack).bind
  rw [s.projects_node, t.projects_node, Collection.members_of,
    Collection.members_of]
  apply (S.gives_difference _ _ fail).bind
  have hBring :=
    S.gives_brought (K := K) hLack hBoth b
      (r.dropping (leavers s.projects t.projects)) hComing
  have hRenew :=
    S.gives_renewed (K := K) hLack hBoth b
      ((r.dropping (leavers s.projects t.projects)).joining
        sync.supports (comers s.projects t.projects))
      hChanging hField
  rw [ProjectMap.renewed_changers hKeyedS hKeyedT,
    foldlM_changers
      (fun o p q => sync.updateProject o p q.node)] at hRenew
  dsimp only [Solution.projects_holding]
  unfold Solution.projectList at *
  rw [hBefore]
  apply hNodes.bind
  rw [filter_toList_departing hKeyedT, Std.ExtTreeMap.keys_map,
    filter_keys_departing hKeyedT,
    filter_keys_departing_only Project.node, List.map_map]
  simp only [List.foldlM_map, Std.ExtTreeMap.toList_map]
  apply hTrees.bind
  apply (S.gives_stripped hBoth b).bind
  apply (S.gives_dropped hBoth b r hFrozen).bind
  apply hBring.bind
  unfold SyncReport.migrating
  convert hRenew using 2
  funext o entry
  cases (departing s.projects t.projects)[entry.1]? <;> rfl

end Stages

end Supply

end SnapTree
