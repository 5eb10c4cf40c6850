import SnapTree.Proofs.Sync.Convergence
import SnapTree.Proofs.Sync.ProjectCount

/-
  This file proves that an incremental run asks no more often
  than what changed tells: eight times for the solution and
  the projects that come, and for every project that changed
  once, and a few times for each kind of its documents that
  differ, however many of them stayed as they are.

  Key definitions include:
    * `Solution.changedProjects`
    * `Synchronizer.trips`

  Key theorems include:
    * `Supply.asks_bringProject`
    * `Supply.asks_updateProjects`
    * `Supply.asks_bring`
    * `Synchronizer.synchronize_asks_trips`
-/

namespace SnapTree

------------------------------------------------------------
-- What changed
------------------------------------------------------------

/- The projects of both sides whose checksums differ. -/
def Solution.changedProjects
    (s t : Solution) : List (Project × Project) :=
  t.projectList.filterMap
    (fun q =>
      ((s.project? q.id).filter
        (fun p => p.checksum ≠ q.checksum)).map
          (fun p => (p, q)))

/- They are those that differ. -/
theorem Solution.Comparable.changedProjects_eq
    {s t : Solution}
    {assets : Set Asset}
    (hBoth : s.Comparable t assets) :
    s.changedProjects t = changers s.projects t.projects := by
  rw [changers_eq hBoth.right.isKeyed]
  unfold changedProjects projectList project?
  apply List.filterMap_congr
  intro q hQ
  rcases exists_key_of_mem_values hQ with ⟨id, hThere⟩
  cases hHere : s.projects[q.id]? with
  | none => rfl
  | some p =>
      have hSame : p.checksum ≠ q.checksum ↔ p ≠ q := by
        constructor
        · rintro hNe rfl
          exact hNe rfl
        · exact hBoth.checksum_ne hHere hThere
      rw [Option.filter_some, Option.filter_some,
        decide_eq_decide.2 hSame]

/-
  How many requests bring one solution to another: eight, and
  those of the projects that changed.
-/
def Synchronizer.trips
    (sync : Synchronizer)
    (s t : Solution) : Nat :=
  8 +
    ((s.changedProjects t).map
      (fun pair => sync.projectTrips pair.1 pair.2)).sum

namespace Supply

variable {sync : Synchronizer} (S : Supply sync.link)
variable {K : Set Asset} {fail : SyncError → Prop}
variable (hLack : ∀ e, S.lack e → fail (.ofAsset e))

include hLack

------------------------------------------------------------
-- Projects that come
------------------------------------------------------------

section Coming

variable
  {q : Project}
  (hWanted : ∀ a ∈ q.assets, a ∈ S.wanted)
  (hKnown : ∀ a ∈ q.assets, a ∈ K)

include hWanted hKnown

/- A project that is known is described without asking. -/
theorem asks_projectDescription :
    Run.Asks (fun _ => True) (S.knows K)
      (sync.projectDescription q.checksum) 0
      (fun _ => S.knows K) := by
  have hAttributes := hKnown (.projectAttributes q.attributes)
    (by simp [Project.assets])
  have hFetch :=
    S.gives_fetch_keep (K := K) (v := q.node) hLack
      (hWanted (.projectNode q.node)
        (Project.mem_assets_iff.2 (Or.inl rfl)))
  rw [q.checksum_toAsset_node] at hFetch
  have hFetchAttributes :=
    S.gives_fetch_keep (K := K) (v := q.attributes) hLack
      (hWanted (.projectAttributes q.attributes)
        (by simp [Project.assets]))
  rw [← q.attributes_node] at hFetchAttributes
  unfold Synchronizer.projectDescription
  refine (hFetch.asks (sync.asks_fetch_of_cached
    ?_)).bindValue (m := 0) ?_
  · exact fun u hU => (S.stocksProject hU hKnown).1
  refine (hFetchAttributes.asks (sync.asks_fetch_of_cached
    ?_)).bindValue (m := 0) ?_
  · intro u hU
    rw [q.attributes_node]
    exact S.isCached_of_mem hU hAttributes
  split
  · exact .of_pure (fun _ h => h)
  · refine Run.Asks.bindQuiet
      (sync.link.asks_fetchProjects_of_stocked ?_).failingAs ?_
    · intro u hU c hC
      rw [List.mem_singleton.1 hC]
      exact S.stocksProject hU hKnown
    · intro _
      apply (S.asks_of_knowing
        ((S.knowing K).cachedProject q.node
          q.attributes)).bindQuiet
      intro description
      exact .of_pure (fun _ h => h)

/- So it is taken in, or left out. -/
theorem asks_bringProject
    (o : SyncOutcome) :
    Run.Asks (fun _ => True) (S.knows K)
      (sync.bringProject o (q.id, q.node)) 0
      (fun _ => S.knows K) := by
  unfold Synchronizer.bringProject
  apply sync.asks_checkCancelled.bindQuiet
  intro _
  apply (S.asks_projectDescription hLack hWanted
    hKnown).bindQuiet
  intro found
  cases found with
  | some d =>
      apply (Synchronizer.asks_ofEdit _).bindQuiet
      intro solution
      exact .of_pure (fun _ h => h)
  | none =>
      apply (S.asks_of_knowing
        ((S.knowing K).skippedProject _)).bindQuiet
      intro skipped
      exact .of_pure (fun _ h => h)

end Coming

------------------------------------------------------------
-- All projects
------------------------------------------------------------

section Solutions

variable
  {s t : Solution}
  {assets : Set Asset}
  (hBoth : s.Comparable t assets)
  (hWanted : ∀ a, s.Needs t a → a ∈ S.wanted)

include hBoth hWanted

/- What introduces the projects that come is two requests. -/
theorem asks_arrivals :
    Run.Asks (fun _ => True) (S.knows K)
      (sync.newProjects
        (differenceOf Project.checksum s.projects
          t.projects).addedOnly.toList)
      2
      (fun after u =>
        after =
            (departing t.projects s.projects).map
              (fun _ q => q.node) ∧
          S.knows
            (K ∪
              {a | ∃ q ∈ comers s.projects t.projects,
                a ∈ q.introduction}) u) := by
  have hTwo :
      Run.Asks (fun _ => True) (S.knows K)
        (sync.newProjects
          (differenceOf Project.checksum s.projects
            t.projects).addedOnly.toList)
        2 (fun _ _ => True) :=
    sync.asks_newProjects (fun _ => trivial) _
  apply ((S.gives_arrivals (K := K) hLack hBoth
    hWanted).asks hTwo).weaken (fun _ h => h)
  rintro after u ⟨hAfter, hKnows⟩
  refine ⟨hAfter, S.mono ?_ hKnows⟩
  rintro a (hA | ⟨q, hQ, hA⟩)
  · exact Or.inl hA
  · rcases (mem_comers hBoth.right.isKeyed).1 hQ with
      ⟨hThere, hAbsent⟩
    refine Or.inr ⟨q.id, q, getElem?_departing.2
      ⟨hThere, fun hHere => hAbsent ?_⟩, hA⟩
    exact mem_of_getElem? hHere

/- Their trees are two more. -/
theorem asks_fetchProjects
    (hKnown :
      ∀ q ∈ comers s.projects t.projects,
        ∀ a ∈ q.introduction, a ∈ K) :
    Run.Asks (fun _ => True) (S.knows K)
      (SyncRun.ofAssets (sync.link.fetchProjects
        ((comers s.projects t.projects).map Project.checksum)))
      2
      (fun _ =>
        S.knows
          (K ∪
            assetsOfProjects (comers s.projects t.projects))) := by
  have hComing :
      ∀ q ∈ comers s.projects t.projects,
        ∀ a ∈ q.assets, a ∈ S.wanted := by
    intro q hQ a hA
    rcases (mem_comers hBoth.right.isKeyed).1 hQ with
      ⟨hThere, hAbsent⟩
    exact hWanted a (.added hThere hAbsent hA)
  have hNodes :
      Run.Asks (fun _ => True) (S.knows K)
        (sync.link.prefetch
          ((comers s.projects t.projects).map Project.checksum))
        0 (fun _ _ => True) := by
    apply (sync.link.asks_prefetch_of_cached ?_).weaken
      (fun _ h => h) (fun _ _ _ => trivial)
    intro u hU c hC _
    rcases List.mem_map.1 hC with ⟨q, hQ, rfl⟩
    exact Session.isCached_of_eq_some (S.cached_project hU
      (hKnown q hQ _ (by simp [Project.introduction])))
  have hTwo :=
    (sync.link.asks_fetchProjects hNodes
      (fun _ => trivial)).failingAs (f := SyncError.ofAsset)
  have hGives :=
    (S.gives_fetchProjects (K := K) hComing).failingAs hLack
  exact (hGives.asks hTwo).weaken (fun _ h => h)
    (fun _ _ h => h.2)

/- Then they are all taken in without asking. -/
theorem asks_brought
    (hKnown :
      ∀ q ∈ comers s.projects t.projects,
        ∀ a ∈ q.assets, a ∈ K)
    (o : SyncOutcome) :
    Run.Asks (fun _ => True) (S.knows K)
      ((comers s.projects t.projects).foldlM
        (fun o q => sync.bringProject o (q.id, q.node)) o)
      0 (fun _ => S.knows K) := by
  have hEach :
      ∀ o,
        Run.Asks (fun _ => True) (S.knows K)
          ((comers s.projects t.projects).foldlM
            (fun o q => sync.bringProject o (q.id, q.node)) o)
          ((comers s.projects t.projects).map (fun _ => 0)).sum
          (fun _ => S.knows K) := by
    apply Run.Asks.foldlM_each
    intro q hQ o
    rcases (mem_comers hBoth.right.isKeyed).1 hQ with
      ⟨hThere, hAbsent⟩
    exact S.asks_bringProject hLack
      (fun a hA => hWanted a (.added hThere hAbsent hA))
      (hKnown q hQ) o
  apply (hEach o).le
  rw [List.map_const', List.sum_replicate_nat, Nat.mul_zero]

/- Projects that change ask as often as each of them does. -/
theorem asks_renewed
    (o : SyncOutcome) :
    Run.Asks (fun _ => True) (S.knows K)
      ((changers s.projects t.projects).foldlM
        (fun o pair => sync.updateProject o pair.1 pair.2.node)
        o)
      ((changers s.projects t.projects).map
        (fun pair => sync.projectTrips pair.1 pair.2)).sum
      (fun _ => S.knows K) := by
  refine Run.Asks.foldlM_each ?_ o
  rintro ⟨p, q⟩ hPair o
  rcases (mem_changers hBoth.left.isKeyed).1 hPair with
    ⟨hP, hQ, hNe⟩
  exact S.asks_updateProject hLack (hBoth.project hP hQ)
    (fun a hA => hWanted a
      (.changed hP hQ (hBoth.checksum_ne hP hQ hNe) hA)) o

/-
  Projects that come are four requests together, and those
  that change as many as each of them needs.
-/
theorem asks_updateProjects
    (o : SyncOutcome)
    (hO : o.solution.projects = s.projects) :
    Run.Asks (fun _ => True) (S.knows K)
      (sync.updateProjects o s.node.projects t.node.projects)
      (4 +
        ((s.changedProjects t).map
          (fun pair => sync.projectTrips pair.1 pair.2)).sum)
      (fun _ => S.knows K) := by
  have hKeyedS := hBoth.left.isKeyed
  have hKeyedT := hBoth.right.isKeyed
  let coming := comers s.projects t.projects
  let K₁ := K ∪ {a | ∃ q ∈ coming, a ∈ q.introduction}
  let K₂ := K₁ ∪ assetsOfProjects coming
  have hArrivals := S.asks_arrivals (K := K) hLack hBoth hWanted
  have hTrees :=
    S.asks_fetchProjects (K := K₁) hLack hBoth hWanted
      (fun q hQ a hA => Or.inr ⟨q, hQ, hA⟩)
  have hBring :=
    S.asks_brought (K := K₂) hLack hBoth hWanted
      (fun q hQ a hA => Or.inr ⟨q, hQ, hA⟩)
  have hRenew :=
    S.asks_renewed (K := K₂) hLack hBoth hWanted
  have hBefore :=
    filter_removedOnly_eq hBoth.toldApart hKeyedS hKeyedT
  unfold differenceOf at hArrivals hBefore
  rw [hBoth.changedProjects_eq]
  unfold Synchronizer.updateProjects
  apply sync.asks_checkCancelled.bindQuiet
  intro _
  rw [s.projects_node, t.projects_node, Collection.members_of,
    Collection.members_of]
  apply ((S.gives_difference _ _ fail).asks (S.asks_of_knowing
    ((S.knowing K).difference _ _))).bindQuiet
  intro difference
  apply Run.Asks.assuming
  rintro rfl
  dsimp only
  unfold Solution.projectList at *
  rw [hO, hBefore]
  refine Run.Asks.le ?_ (Nat.le_of_eq (Nat.add_assoc 2 2 _).symm)
  apply hArrivals.bind
  intro after
  apply Run.Asks.assuming
  rintro rfl
  rw [filter_toList_departing hKeyedT, Std.ExtTreeMap.keys_map,
    List.map_map]
  simp only [List.foldlM_map, Std.ExtTreeMap.toList_map]
  apply hTrees.bind
  intro _
  apply (S.asks_of_knowing ((S.knowing K₂).steps.foldlM _
    (fun x id =>
      (S.knowing K₂).stripReferences x id))).bindQuiet
  intro stripped
  apply (S.asks_of_knowing ((S.knowing K₂).steps.foldlM _
    (fun o id => (S.knowing K₂).dropProject o id))).bindQuiet
  intro dropped
  apply (hBring dropped).bindQuiet
  intro joined
  have hLast :=
    (hRenew joined).weaken (fun _ h => h) (fun _ _ h =>
      S.mono (K := K)
        (fun _ hA => Or.inl (Or.inl hA)) h)
  rw [foldlM_changers
    (fun o p q => sync.updateProject o p q.node)] at hLast
  convert hLast using 2
  funext o entry
  cases (departing s.projects t.projects)[entry.1]? <;> rfl

/- Once the projects are attained, two requests are left. -/
theorem asks_finish
    {b : Solution}
    (hB :
      b.attributes = t.attributes ∧ b.frozen = none ∧
        b.analyzerReferences = s.analyzerReferences) :
    Run.Asks (fun _ => True) (S.knows K)
      (do
        let c ←
          sync.updateSolutionAnalyzers
            (b.holding
              (ProjectMap.attained sync.supports s.projects
                t.projects))
            s.node.analyzerReferences t.node.analyzerReferences
        let c ← sync.updateFrozen c t.node
        sync.validate ⟨c, sync.migration s t⟩ t.checksum)
      2 (fun _ => S.knows K) := by
  let projects :=
    ProjectMap.attained sync.supports s.projects t.projects
  let c : Solution :=
    { b.holding projects with
      analyzerReferences := t.analyzerReferences }
  have hAnalyzers :=
    (S.gives_updateSolutionAnalyzers (K := K) hLack hBoth hWanted
      (b.holding projects) hB.2.2).asks
      (sync.asks_updateSolutionAnalyzers (fun _ => trivial) _ _
        _)
  have hFrozen :=
    (S.gives_updateFrozen (K := K) hLack hBoth hWanted c
      hB.2.1).asks
      (sync.asks_updateFrozen (fun _ => trivial) _ _)
  rw [Synchronizer.attained_of_parts (c := c) hB.1 rfl rfl]
    at hFrozen
  apply hAnalyzers.bindValue (m := 1)
  apply hFrozen.bindValue (m := 0)
  rw [Synchronizer.validate_attained hBoth.right]
  exact .of_pure (fun _ h => h)

omit hLack in
/- A baseline is brought to a target. -/
theorem asks_bring :
    Run.Asks (fun _ => True) (S.knows K)
      (sync.bring s t.checksum) (sync.trips s t)
      (fun _ => S.knows K) := by
  let fail (_ : SyncError) : Prop := True
  have hLack : ∀ e, S.lack e → fail (.ofAsset e) :=
    fun _ _ => trivial
  have hFetch :=
    (S.gives_fetch_keep (K := K) (v := t.node) hLack
      (hWanted _ .node)).asks
      (sync.asks_fetch (P := fun _ => True) trivial)
  rw [t.checksum_toAsset_node] at hFetch
  let b : Solution :=
    { s.withoutFrozen with attributes := t.attributes }
  let r : SyncReport :=
    { baseline := s.checksum, target := t.checksum }
  have hAttributes :=
    (S.gives_updateSolutionAttributes (K := K) hLack hBoth
      hWanted s.withoutFrozen t.checksum rfl
      (fun _ _ => trivial)).asks
      (sync.asks_updateSolutionAttributes (P := fun _ => True)
        (fun _ => trivial) _ _ _ _)
  let changes :=
    ((s.changedProjects t).map
      (fun pair => sync.projectTrips pair.1 pair.2)).sum
  let brought : SyncOutcome :=
    ⟨b.holding
      (ProjectMap.attained sync.supports s.projects t.projects),
      sync.migration s t⟩
  have hProjects :
      Run.Asks (fun _ => True) (S.knows K)
        (sync.updateProjects ⟨b, r⟩ s.node.projects
          t.node.projects)
        (4 + changes)
        (fun o u => o = brought ∧ S.knows K u) :=
    (S.gives_updateProjects (K := K) hLack hBoth b r rfl hWanted
      (fun _ _ _ => trivial)).asks
      (S.asks_updateProjects (K := K) hLack hBoth hWanted
        ⟨b, r⟩ rfl)
  have hFinish :=
    S.asks_finish (K := K) (b := b) hLack hBoth hWanted
      ⟨rfl, rfl, rfl⟩
  unfold Synchronizer.bring Synchronizer.trips
  apply sync.asks_checkCancelled.bindQuiet
  intro _
  dsimp only
  split
  · refine Run.Asks.le ?_ (Nat.zero_le _)
    exact .of_pure (fun _ h => h)
  · refine Run.Asks.le (n := 1 + (1 + (4 + changes + 2))) ?_
      (by dsimp only [changes]; omega)
    apply hFetch.bindValue
    rw [s.attributes_node_withoutFrozen,
      s.projects_node_withoutFrozen,
      s.analyzerReferences_node_withoutFrozen]
    apply hAttributes.bindValue
    refine Run.Asks.bindEither ?_ (fun _ => hProjects) hFinish
    intro hSame
    have hStays :=
      sync.migration_of_same (b := b) (hBoth.projects_eq hSame)
        rfl
    exact (Run.Asks.of_pure (fun _ h => ⟨hStays.symm, h⟩)).le
      (Nat.zero_le _)

end Solutions

end Supply

------------------------------------------------------------
-- Targets at hand
------------------------------------------------------------

namespace Synchronizer

/- Counting what was fetched takes no request. -/
theorem asks_synchronize
    {sync : Synchronizer}
    {s : Solution}
    {c : Checksum}
    {P : Request → Prop}
    {pre : Session → Prop}
    {n : Nat}
    {post : SyncOutcome → Session → Prop}
    (hBring : Run.Asks P pre (sync.bring s c) n post) :
    Run.Asks P pre (sync.synchronize s c) n
      (fun _ _ => True) := by
  have hCounts :
      ∀ kept : Session → Prop,
        Run.Asks P kept (get : Run SyncError Session) 0
          (fun _ => kept) :=
    fun _ => Run.Asks.of_get.weaken (fun _ h => h)
      (fun _ _ h => h.2)
  unfold synchronize synchronizeWithReport
  rw [bind_assoc]
  apply (hCounts pre).bindQuiet
  intro before
  dsimp only
  rw [bind_assoc]
  apply hBring.bind (m := 0)
  intro o
  rw [bind_assoc]
  apply (hCounts (post o)).bindQuiet
  intro after
  exact .of_pure (fun _ _ => trivial)

section Planned

variable
  {sync : Synchronizer}
  {s t : Solution}
  {session : Session}
  (hS : s.Reachable)
  (hT : t.Reachable)
  (hAtHand : sync.AtHand s t session)

include hS hT hAtHand

/-
  What a plan for the documents of one kind brings anew are
  the documents that are lacking, and they are introduced.
-/
theorem AtHand.introduces_planned
    {id : ProjectId}
    {p q : Project}
    (hP : s.projects[id]? = some p)
    (hQ : t.projects[id]? = some q)
    {kind : DocumentKind}
    {x : Solution}
    {plan : DocumentPlan}
    {u v : Session}
    (hU : u.Knows hAtHand.serving.assets ∅)
    (hPlan :
      (sync.planDocuments x id kind (p.node.documents.get kind)
        (q.node.documents.get kind)).start u = (.ok plan, v)) :
    plan.new.toList.map Prod.snd =
        (p.newcomers q kind).map Document.node ∧
      ∀ d ∈ p.newcomers q kind,
        v.Introduces d.node ∧
          d.node.attributes.isNull = false ∧
            d.node.text.isNull = false := by
  let S := hAtHand.serving.supply
  have hBoth := (hAtHand.comparable hS hT).project hP hQ
  have hWanted : ∀ a, p.Needs q a → a ∈ S.wanted :=
    fun a hA =>
      Solution.project_assets_subset (mem_values hQ)
        hA.mem_assets
  let fail (_ : SyncError) : Prop := True
  have hLack : ∀ e, S.lack e → fail (.ofAsset e) :=
    fun _ _ => trivial
  have hAsks :=
    S.asks_planDocuments (K := ∅) hLack hBoth hWanted x id kind
  rcases hAsks.holds u hU with ⟨-, -, -, -, hPost⟩
  rw [hPlan] at hPost
  rcases hPost plan rfl with ⟨hNew, hKnows⟩
  rw [hNew]
  refine ⟨hBoth.values_planTo kind, ?_⟩
  intro d hD
  exact ⟨S.introduces hKnows
      (fun a hA => Or.inr ⟨d, hD, hA⟩),
    S.isNull_leaves
      (fun a hA => hWanted a (hBoth.needs_newcomer hD a hA))⟩

end Planned

------------------------------------------------------------
-- How often an incremental run asks
------------------------------------------------------------

/-
  An incremental run makes eight requests, and for each project
  of both sides whose checksums differ one, and for each kind
  of which its documents differ two and as many as bring those
  that are lacking: one if they are more than the threshold,
  and else one each.

  A plan for such a kind may be made in any session that caches
  nothing but what is at hand, and carried out in any later
  one.  Nothing is asked for to remove documents.  To add and
  update many, one request goes out for all of their attributes
  and texts that are not cached, if any, and no other.  To add
  and update a few, each request concerns one document only.
-/
theorem synchronize_asks_trips
    {sync : Synchronizer}
    {s t : Solution}
    {session : Session}
    (hS : s.Reachable)
    (hT : t.Reachable)
    (hAtHand : sync.AtHand s t session) :
    let after := ((sync.synchronize s t.checksum).start session).2
    let threshold := sync.settings.bulkDocumentThreshold
    (∃ made,
        after.requests = session.requests ++ made ∧
          made.length ≤ sync.trips s t) ∧
      after.counts.roundTrips ≤
          session.counts.roundTrips + sync.trips s t ∧
        ∀ (id : ProjectId) (p q : Project) (kind : DocumentKind)
          (x : Solution) (plan : DocumentPlan) (u v w : Session)
          (o : SyncOutcome),
          s.projects[id]? = some p →
            t.projects[id]? = some q →
              u.Knows hAtHand.serving.assets ∅ →
                (sync.planDocuments x id kind
                    (p.node.documents.get kind)
                    (q.node.documents.get kind)).start u =
                  (.ok plan, v) →
                  v.Extends w →
                    let ds := p.newcomers q kind
                    let placed :=
                      ((sync.addAndUpdateDocuments id o
                        plan).start w).2
                    ((removeDocuments id o plan).start
                        w).2.requests = w.requests ∧
                      (ds.length > threshold →
                        w.AsksTogether placed ds) ∧
                        (ds.length ≤ threshold →
                          w.AsksSingly placed ds) := by
  intro after threshold
  have hAsks :=
    asks_synchronize
      (hAtHand.serving.supply.asks_bring (K := ∅)
        (hAtHand.comparable hS hT) (fun _ hA => hA.mem_assets))
  rcases hAsks.holds session hAtHand.knows with
    ⟨made, hMade, hFew, -, -⟩
  refine ⟨⟨made, hMade, hFew⟩, ?_, ?_⟩
  · exact (sync.tallies_synchronize s t.checksum
      session).roundTrips_le hMade hFew
  · intro id p q kind x plan u v w o hP hQ hU hPlan hW ds placed
    rcases hAtHand.introduces_planned hS hT hP hQ hU hPlan with
      ⟨hNodes, hDocuments⟩
    have hIntroduces : ∀ d ∈ ds, w.Introduces d.node :=
      fun d hD => (hDocuments d hD).1.later hW
    refine ⟨?_, ?_, ?_⟩
    · have hQuiet :
          Run.Asks (fun _ => True) (fun _ => True)
            (removeDocuments id o plan) 0 (fun _ _ => True) :=
        asks_of_silent (silence.removeDocuments id o plan)
      exact hQuiet.requests_eq trivial
    · intro hMany
      exact asksTogether_of_many hNodes hIntroduces
        hAtHand.never (fun d hD => (hDocuments d hD).2) hMany
        id o
    · intro hAtMost
      exact asksSingly_of_few hNodes hIntroduces hAtMost id o

theorem small_asks_edited :
    let after :=
      ((toEdited.synchronize Solution.small
        Solution.edited.checksum).start {}).2
    after.requests.length ≤ 12 ∧ after.counts.roundTrips ≤ 12 ∧
      ∃ (p q : Project) (plan : DocumentPlan) (v : Session)
        (o : SyncOutcome),
        Solution.small.projects[(default : ProjectId)]? = some p ∧
          Solution.edited.projects[(default : ProjectId)]? =
              some q ∧
            (toEdited.planDocuments Solution.small default
                .ordinary (p.node.documents.get .ordinary)
                (q.node.documents.get .ordinary)).start {} =
              (.ok plan, v) ∧
              v.AsksTogether
                ((toEdited.addAndUpdateDocuments default o
                  plan).start v).2
                (p.newcomers q .ordinary) := by
  let p :=
    (Solution.small.projects[(default : ProjectId)]?).get
      (by decide +kernel)
  let q :=
    (Solution.edited.projects[(default : ProjectId)]?).get
      (by decide +kernel)
  have hP :
      Solution.small.projects[(default : ProjectId)]? = some p :=
    (Option.some_get _).symm
  have hQ :
      Solution.edited.projects[(default : ProjectId)]? = some q :=
    (Option.some_get _).symm
  have hOk :
      ((toEdited.planDocuments Solution.small default .ordinary
        (p.node.documents.get .ordinary)
        (q.node.documents.get .ordinary)).start {}).1.isOk =
          true := by
    decide +kernel
  have hTrips :
      toEdited.trips Solution.small Solution.edited = 12 := by
    decide +kernel
  have hMany : (p.newcomers q .ordinary).length > 0 := by
    decide +kernel
  rcases synchronize_asks_trips Solution.reachable_small
      Solution.reachable_edited atHand_edited with
    ⟨⟨made, hMade, hFew⟩, hRounds, hPlans⟩
  rw [hTrips] at hFew hRounds
  refine ⟨?_, hRounds.trans_eq (Nat.zero_add 12), ?_⟩
  · rw [hMade]
    exact hFew
  · let o : SyncOutcome :=
      ⟨Solution.small,
        { baseline := Solution.small.checksum
          target := Solution.edited.checksum }⟩
    cases hRun :
        (toEdited.planDocuments Solution.small default .ordinary
          (p.node.documents.get .ordinary)
          (q.node.documents.get .ordinary)).start {} with
    | mk result v =>
        rw [hRun] at hOk
        cases result with
        | error e => cases hOk
        | ok plan =>
            have hParts :=
              hPlans default p q .ordinary _ plan {} v v
                o hP hQ atHand_edited.knows hRun (.refl v)
            exact ⟨p, q, plan, v, o, hP, hQ, hRun,
              hParts.2.1 hMany⟩

end Synchronizer

end SnapTree
