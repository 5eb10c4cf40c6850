import SnapTree.Proofs.Sync.DocumentCount
import SnapTree.Proofs.Sync.Project

/-
  This file proves how often a project is asked for that has
  changed: once for its values, twice for each kind of which
  documents differ, to plan what comes, and once for many new
  documents of a kind, or once for each of a few.

  Key definitions include:
    * `Supply.knowing`
    * `Project.introductions`
    * `Synchronizer.projectTrips`

  Key theorems include:
    * `Supply.stocksProject`
    * `Supply.asks_planProject`
    * `Supply.asks_updateDocuments`
    * `Supply.asks_updateProject`
-/

namespace SnapTree

namespace Supply

------------------------------------------------------------
-- What is known need not be asked for
------------------------------------------------------------

section Known

variable {link : Link} (S : Supply link)
variable {K : Set Asset} {u : Session}

/- A step that asks so often, and its one outcome. -/
theorem Gives.asks
    {S : Supply link}
    {ε α : Type}
    {P : Request → Prop}
    {r : Run ε α}
    {c : Prop}
    {v : α}
    {K' : Set Asset}
    {fail : ε → Prop}
    {n : Nat}
    {post : α → Session → Prop}
    (hGives : S.Gives K r c v K' fail)
    (hAsks : Run.Asks P (S.knows K) r n post) :
    Run.Asks P (S.knows K) r n
      (fun a s => a = v ∧ S.knows K' s) :=
  (hAsks.also hGives).weaken (fun _ h => h)
    (fun _ _ h => ⟨h.2.1.2, h.2.2⟩)

/- A node that is known is cached under its checksum. -/
theorem cached_document
    (hKnows : S.knows K u)
    {d : Document}
    (hNode : Asset.documentNode d.node ∈ K) :
    u.cache[d.checksum]? = some (.documentNode d.node) := by
  have hChecksum :
      (Asset.documentNode d.node).checksum = d.checksum :=
    d.checksum_toAsset_node
  rw [← hChecksum]
  exact S.cached hKnows hNode

theorem cached_project
    (hKnows : S.knows K u)
    {p : Project}
    (hNode : Asset.projectNode p.node ∈ K) :
    u.cache[p.checksum]? = some (.projectNode p.node) := by
  have hChecksum :
      (Asset.projectNode p.node).checksum = p.checksum :=
    p.checksum_toAsset_node
  rw [← hChecksum]
  exact S.cached hKnows hNode

/- A document is stocked if its assets are known. -/
theorem stocksDocument
    (hKnows : S.knows K u)
    {d : Document}
    (hKnown : ∀ a ∈ d.assets, a ∈ K) :
    u.StocksDocument d.checksum := by
  rcases Document.forall_mem_assets.1 hKnown with
    ⟨hNode, hAttributes, hText⟩
  have hCached := S.cached_document hKnows hNode
  refine ⟨Session.isCached_of_eq_some hCached, ?_⟩
  intro n hN
  rw [hCached] at hN
  have hSame : d.node = n := by simpa using hN
  have hLeaves :
      [n.attributes, n.text] =
        [Asset.documentAttributes d.attributes,
          Asset.text d.text].map Asset.checksum := by
    rw [← hSame]
    rfl
  rw [hLeaves]
  intro c hC _
  rcases List.mem_map.1 hC with ⟨a, hA, rfl⟩
  apply S.isCached_of_mem hKnows
  rcases List.mem_cons.1 hA with rfl | hA
  · exact hAttributes
  · rw [List.mem_singleton.1 hA]
    exact hText

/- It is introduced if what introduces it is known. -/
theorem introduces
    (hKnows : S.knows K u)
    {d : Document}
    (hKnown : ∀ a ∈ d.introduction, a ∈ K) :
    u.Introduces d.node := by
  rcases Document.forall_mem_introduction.1 hKnown with
    ⟨hNode, hAttributes⟩
  exact ⟨S.cached_document hKnows hNode,
    S.isCached_of_mem hKnows hAttributes⟩

/- No checksum of what is wanted is null. -/
theorem isNull_leaves
    {d : Document}
    (hWanted : ∀ a ∈ d.assets, a ∈ S.wanted) :
    d.node.attributes.isNull = false ∧
      d.node.text.isNull = false := by
  have hNe : ∀ a ∈ d.assets, a.checksum.isNull = false := by
    intro a hA
    simpa [Checksum.isNull] using S.notNull a (hWanted a hA)
  exact (Document.forall_mem_assets.1 hNe).2

/- So is a project. -/
theorem stocksProject
    (hKnows : S.knows K u)
    {p : Project}
    (hKnown : ∀ a ∈ p.assets, a ∈ K) :
    u.StocksProject p.checksum := by
  have hNode : Asset.projectNode p.node ∈ K :=
    hKnown _ (Project.mem_assets_iff.2 (Or.inl rfl))
  have hCached := S.cached_project hKnows hNode
  refine ⟨Session.isCached_of_eq_some hCached, ?_⟩
  intro n hN
  rw [hCached] at hN
  have hSame : p.node = n := by simpa using hN
  subst hSame
  rw [p.valueChildren_node, p.allDocuments_node]
  constructor
  · intro c hC _
    rcases List.mem_map.1 hC with ⟨a, hA, rfl⟩
    exact S.isCached_of_mem hKnows
      (hKnown a (Project.mem_assets_iff.2 (Or.inr (Or.inl hA))))
  · intro c hC
    rcases List.mem_map.1 hC with ⟨d, hD, rfl⟩
    apply S.stocksDocument hKnows
    intro a hA
    exact hKnown a (Project.mem_assets_iff.2
      (Or.inr (Or.inr ⟨d, hD, hA⟩)))

variable (K) in
/-
  Whatever is done without a synchronizer asks for nothing and
  leaves known what is.
-/
def knowing :
    Synchronizer.silent.Comparison Synchronizer.silent :=
  let rel (s t : Session) : Prop :=
    t.requests = s.requests ∧ (S.knows K s → S.knows K t)
  have hRefl : ∀ s, rel s s := fun _ => ⟨rfl, id⟩
  have hTrans : ∀ s t u, rel s t → rel t u → rel s u :=
    fun _ _ _ hFirst hSecond =>
      ⟨hSecond.1.trans hFirst.1, fun h => hSecond.2 (hFirst.2 h)⟩
  .ofLink
    (.ofRoundTrips (Run.leading AssetError hRefl hTrans) hRefl
      (fun request s => by
        rw [Link.start_fetchMissing]
        exact hRefl s)
      (fun _ _ _ => ⟨rfl, S.counts _⟩)
      (fun s => by
        rw [Link.start_checkCancelled]
        exact hRefl s))
    (Run.leading SyncError hRefl hTrans) id
    (fun old new s => ⟨rfl, fun hKnows =>
      have hClean := S.isClean hKnows
      S.pool _
        (hClean.releaseDiff_diff old new
          (s.pool.diff old new).1) hKnows⟩)
    (fun _ _ => ⟨rfl, S.references _⟩)

theorem asks_of_knowing
    {P : Request → Prop}
    {α : Type}
    {r : SyncRun α}
    (hKnowing : (S.knowing K).steps.Alike r r) :
    Run.Asks P (S.knows K) r 0 (fun _ => S.knows K) := by
  have hQuiet : ∀ s, (r.start s).2.requests = s.requests :=
    fun s => (hKnowing s).1
  have hKept :
      Run.Leads (fun s t => S.knows K s → S.knows K t) r :=
    fun s => (hKnowing s).2
  exact .of_quiet hQuiet hKept.spec

end Known

------------------------------------------------------------
-- Documents of one kind
------------------------------------------------------------

variable {sync : Synchronizer} (S : Supply sync.link)
variable {K : Set Asset} {fail : SyncError → Prop}
variable (hLack : ∀ e, S.lack e → fail (.ofAsset e))

include hLack

section Costs

variable {d : Document}
variable (hWanted : ∀ a ∈ d.assets, a ∈ S.wanted)

include hWanted

/- What is wanted leaves known what is, whatever it costs. -/
theorem costs_of_wanted
    {P : Request → Prop}
    {n : Nat}
    (hAttributes :
      Run.Asks P (S.knows K)
        (sync.fetch d.node.attributes :
          SyncRun DocumentAttributes)
        0 (fun _ _ => True))
    (hText :
      Run.Asks P (S.knows K)
        (sync.fetch d.node.text : SyncRun String) n
        (fun _ _ => True))
    (hDescription :
      Run.Asks P (S.knows K) (sync.documentDescription d.checksum)
        n (fun _ _ => True)) :
    sync.Costs P (S.knows K) d.node n := by
  rcases Document.forall_mem_assets.1 hWanted with
    ⟨-, hLeaf, hLast⟩
  have hFirst :=
    S.gives_fetch_keep (K := K) (v := d.attributes) hLack hLeaf
  have hSecond :=
    S.gives_fetch_keep (K := K) (v := d.text) hLack hLast
  have hAll :=
    (S.gives_documentDescription (K := K) hLack hWanted).keep
      Set.subset_union_left
  constructor
  · exact (hFirst.asks hAttributes).weaken (fun _ h => h)
      (fun _ _ h => h.2)
  · exact (hSecond.asks hText).weaken (fun _ h => h)
      (fun _ _ h => h.2)
  · exact (hAll.asks hDescription).weaken (fun _ h => h)
      (fun _ _ h => h.2)

/- A document costs one request if it is introduced. -/
theorem costs_of_introduction
    (hKnown : ∀ a ∈ d.introduction, a ∈ K) :
    sync.Costs (fun _ => True) (S.knows K) d.node 1 := by
  rcases Document.forall_mem_introduction.1 hKnown with
    ⟨hNode, hAttributes⟩
  apply S.costs_of_wanted hLack hWanted
  · exact sync.asks_fetch_of_cached
      (fun u hU => S.isCached_of_mem hU hAttributes)
  · exact sync.asks_fetch trivial
  · apply sync.asks_documentDescription_of_cached
    · exact fun u hU =>
        Session.isCached_of_eq_some (S.cached_document hU hNode)
    · exact fun _ _ _ _ => trivial

/- It costs none if it is known. -/
theorem costs_of_known
    (hKnown : ∀ a ∈ d.assets, a ∈ K) :
    sync.Costs (fun _ => True) (S.knows K) d.node 0 := by
  rcases Document.forall_mem_assets.1 hKnown with
    ⟨-, hAttributes, hText⟩
  apply S.costs_of_wanted hLack hWanted
  · exact sync.asks_fetch_of_cached
      (fun u hU => S.isCached_of_mem hU hAttributes)
  · exact sync.asks_fetch_of_cached
      (fun u hU => S.isCached_of_mem hU hText)
  · exact sync.asks_documentDescription_of_stocked
      (fun u hU => S.stocksDocument hU hKnown)

end Costs

section Planned

variable {plan : DocumentPlan} {ds : List Document}
variable
  (hNodes :
    plan.new.toList.map Prod.snd = ds.map Document.node)
  (hWanted : ∀ d ∈ ds, ∀ a ∈ d.assets, a ∈ S.wanted)
  (hKnown : ∀ d ∈ ds, ∀ a ∈ d.introduction, a ∈ K)

include hNodes hWanted hKnown

/- Many documents that were introduced are one request. -/
theorem asks_addAndUpdateDocuments_of_many
    (hMany : ds.length > sync.settings.bulkDocumentThreshold)
    (id : ProjectId)
    (o : SyncOutcome) :
    Run.Asks (fun _ => True) (S.knows K)
      (sync.addAndUpdateDocuments id o plan) 1
      (fun _ => S.knows K) := by
  -- All that comes is known after the request.
  let K' := K ∪ assetsOfDocuments ds
  have hTrees :
      sync.fetchInBulk plan.new =
        .ofAssets (sync.link.fetchDocuments
          (ds.map Document.checksum)) := by
    rw [← Synchronizer.size_of_nodes hNodes] at hMany
    rw [sync.fetchInBulk_of_many hMany, hNodes, List.map_map]
    rfl
  have hOnce :
      Run.Asks (fun _ => True) (S.knows K)
        (SyncRun.ofAssets (sync.link.fetchDocuments
          (ds.map Document.checksum)))
        1 (fun _ _ => True) := by
    refine (sync.link.asks_fetchDocuments_of_cached ?_
      (fun _ _ _ _ => trivial)).failingAs
    intro u hU c hC
    rcases List.mem_map.1 hC with ⟨d, hD, rfl⟩
    rcases Document.forall_mem_introduction.1 (hKnown d hD) with
      ⟨hNode, -⟩
    exact Session.isCached_of_eq_some
      (S.cached_document hU hNode)
  have hGives :=
    (S.gives_fetchDocuments (K := K) hWanted).failingAs hLack
  have hBulk :
      Run.Asks (fun _ => True) (S.knows K)
        (sync.fetchInBulk plan.new) 1 (fun _ => S.knows K') := by
    rw [hTrees]
    exact (hGives.asks hOnce).weaken (fun _ h => h)
      (fun _ _ h => h.2)
  have hCosts :
      ∀ node ∈ plan.new.toList.map Prod.snd,
        sync.Costs (fun _ => True) (S.knows K') node 0 := by
    rw [hNodes]
    intro node hNode
    rcases List.mem_map.1 hNode with ⟨d, hD, rfl⟩
    exact S.costs_of_known hLack (hWanted d hD)
      (fun a hA => Or.inr ⟨d, hD, hA⟩)
  exact (sync.asks_addAndUpdateDocuments hBulk hCosts id
    o).weaken (fun _ h => h)
      (fun _ _ h => S.mono Set.subset_union_left h)

/- A few are at most one request each. -/
theorem asks_addAndUpdateDocuments_of_few
    (hFew : ds.length ≤ sync.settings.bulkDocumentThreshold)
    (id : ProjectId)
    (o : SyncOutcome) :
    Run.Asks (fun _ => True) (S.knows K)
      (sync.addAndUpdateDocuments id o plan) ds.length
      (fun _ => S.knows K) := by
  have hSize := Synchronizer.size_of_nodes hNodes
  have hBulk :
      Run.Asks (fun _ => True) (S.knows K)
        (sync.fetchInBulk plan.new) 0 (fun _ => S.knows K) :=
    sync.asks_fetchInBulk_of_few (hSize.trans_le hFew)
  have hCosts :
      ∀ node ∈ plan.new.toList.map Prod.snd,
        sync.Costs (fun _ => True) (S.knows K) node 1 := by
    rw [hNodes]
    intro node hNode
    rcases List.mem_map.1 hNode with ⟨d, hD, rfl⟩
    exact S.costs_of_introduction hLack (hWanted d hD)
      (hKnown d hD)
  apply (sync.asks_addAndUpdateDocuments hBulk hCosts id o).le
  rw [hSize, Nat.zero_add, Nat.mul_one]

end Planned

end Supply

------------------------------------------------------------
-- Whole projects
------------------------------------------------------------

namespace Project

/- What introduces the documents that a project lacks. -/
def introductions
    (p q : Project)
    (kinds : List DocumentKind) : Set Asset :=
  {a |
    ∃ kind ∈ kinds, ∃ e ∈ p.newcomers q kind,
      a ∈ e.introduction}

variable {p q : Project}

theorem introductions_nil :
    p.introductions q [] = ∅ := by
  ext a
  constructor
  · rintro ⟨kind, hKind, -⟩
    cases hKind
  · intro hNone
    cases hNone

theorem introductions_concat
    (kinds : List DocumentKind)
    (kind : DocumentKind) :
    p.introductions q (kinds ++ [kind]) =
      p.introductions q kinds ∪
        {a | ∃ e ∈ p.newcomers q kind, a ∈ e.introduction} := by
  ext a
  constructor
  · rintro ⟨other, hOther, hA⟩
    rcases List.mem_append.1 hOther with hOther | hOther
    · exact Or.inl ⟨other, hOther, hA⟩
    · rw [List.mem_singleton.1 hOther] at hA
      exact Or.inr hA
  · rintro (⟨other, hOther, hA⟩ | hA)
    · exact ⟨other, List.mem_append_left _ hOther, hA⟩
    · exact ⟨kind, by simp, hA⟩

variable {assets : Set Asset} (hBoth : p.Comparable q assets)

include hBoth

/- What is new in a plan are the documents that come. -/
theorem Comparable.values_planTo
    (kind : DocumentKind) :
    (p.planTo q kind).new.toList.map Prod.snd =
      (p.newcomers q kind).map Document.node := by
  rw [hBoth.newcomers_eq kind]
  unfold planTo DocumentPlan.between
  dsimp only
  rw [Std.ExtTreeMap.toList_map, List.map_map, List.map_map]
  rfl

theorem Comparable.size_planTo
    (kind : DocumentKind) :
    (p.planTo q kind).new.size = (p.newcomers q kind).length := by
  rw [← Std.ExtTreeMap.length_toList,
    ← List.length_map (f := Prod.snd), hBoth.values_planTo kind,
    List.length_map]

/- A document that is lacking is needed. -/
theorem Comparable.needs_newcomer
    {kind : DocumentKind}
    {e : Document}
    (hE : e ∈ p.newcomers q kind) :
    ∀ a ∈ e.assets, p.Needs q a := by
  rw [hBoth.newcomers_eq kind] at hE
  rcases exists_key_of_mem_values hE with ⟨id, hThere⟩
  exact hBoth.needs_document hThere

end Project

/-
  How many requests bring one project to another: one for its
  values, and for each kind of which documents differ two for
  what introduces them and those that bring them.
-/
def Synchronizer.projectTrips
    (sync : Synchronizer)
    (p q : Project) : Nat :=
  1 +
    ((p.changedKinds q).map
      (fun kind =>
        2 + sync.bulkTrips (p.newcomers q kind).length)).sum

namespace Supply

variable {sync : Synchronizer} (S : Supply sync.link)
variable {K : Set Asset} {fail : SyncError → Prop}
variable (hLack : ∀ e, S.lack e → fail (.ofAsset e))

variable
  {assets : Set Asset}
  {p q : Project}
  (hBoth : p.Comparable q assets)
  (hWanted : ∀ a, p.Needs q a → a ∈ S.wanted)

include hLack hBoth hWanted

/- What comes is planned by two requests, and introduced then. -/
theorem asks_planDocuments
    (s : Solution)
    (id : ProjectId)
    (kind : DocumentKind) :
    Run.Asks (fun _ => True) (S.knows K)
      (sync.planDocuments s id kind (p.node.documents.get kind)
        (q.node.documents.get kind))
      2
      (fun plan u =>
        plan.new = (p.planTo q kind).new ∧
          S.knows
            (K ∪
              {a | ∃ e ∈ p.newcomers q kind,
                a ∈ e.introduction}) u) := by
  have hTwo :
      Run.Asks (fun _ => True) (S.knows K)
        (sync.planDocuments s id kind (p.node.documents.get kind)
          (q.node.documents.get kind))
        2 (fun _ _ => True) :=
    sync.asks_planDocuments (fun _ => trivial) s id kind _ _
  cases hStands : s.projects[id]? with
  | none =>
      unfold Synchronizer.planDocuments Solution.project?
      rw [hStands]
      apply sync.asks_checkCancelled.bindQuiet
      intro _
      apply (S.asks_of_knowing
        ((S.knowing K).difference _ _)).bindQuiet
      intro difference
      exact Run.Asks.of_throw.le (Nat.zero_le 2)
  | some r =>
      have hPlan :=
        S.gives_planned (K := K) hLack hBoth hWanted hStands kind
      apply (hPlan.asks hTwo).weaken (fun _ h => h)
      rintro plan u ⟨rfl, hKnows⟩
      exact ⟨rfl, hKnows⟩

/- So are the documents of all kinds that differ. -/
theorem asks_planProject
    (s : Solution)
    (id : ProjectId) :
    Run.Asks (fun _ => True) (S.knows K)
      (sync.planProject s id p.node q.node)
      ((p.changedKinds q).map (fun _ => 2)).sum
      (fun plans u =>
        plans.map DocumentPlan.new =
            (p.changedKinds q).map
              (fun kind => (p.planTo q kind).new) ∧
          S.knows (K ∪ p.introductions q (p.changedKinds q))
            u) := by
  have hAll :
      Run.Asks (fun _ => True)
        (fun u =>
          ([] : List DocumentPlan).map DocumentPlan.new =
              ([] : List DocumentKind).map
                (fun kind => (p.planTo q kind).new) ∧
            S.knows (K ∪ p.introductions q []) u)
        (sync.planProject s id p.node q.node)
        ((p.changedKinds q).map (fun _ => 2)).sum
        (fun plans u =>
          plans.map DocumentPlan.new =
              (p.changedKinds q).map
                (fun kind => (p.planTo q kind).new) ∧
            S.knows (K ∪ p.introductions q (p.changedKinds q))
              u) := by
    apply Run.Asks.mapM (fun done plans u =>
      plans.map DocumentPlan.new =
          done.map (fun kind => (p.planTo q kind).new) ∧
        S.knows (K ∪ p.introductions q done) u)
    intro done kind rest hSplit plans
    apply Run.Asks.assuming
    intro hDone
    apply (S.asks_planDocuments hLack hBoth hWanted s id
      kind).weaken (fun _ h => h)
    rintro plan u ⟨hNew, hKnows⟩
    rw [List.map_append, List.map_append, hDone,
      Project.introductions_concat, ← Set.union_assoc]
    exact ⟨by simp [hNew], hKnows⟩
  apply hAll.weaken ?_ (fun _ _ h => h)
  intro u hKnows
  rw [Project.introductions_nil, Set.union_empty]
  exact ⟨rfl, hKnows⟩

/- Documents that were introduced are brought in bulk or not. -/
theorem asks_addAndUpdateDocuments
    {kind : DocumentKind}
    (hKnown :
      ∀ e ∈ p.newcomers q kind, ∀ a ∈ e.introduction, a ∈ K)
    {plan : DocumentPlan}
    (hNew : plan.new = (p.planTo q kind).new)
    (id : ProjectId)
    (o : SyncOutcome) :
    Run.Asks (fun _ => True) (S.knows K)
      (sync.addAndUpdateDocuments id o plan)
      (sync.bulkTrips (p.newcomers q kind).length)
      (fun _ => S.knows K) := by
  have hNodes :
      plan.new.toList.map Prod.snd =
        (p.newcomers q kind).map Document.node := by
    rw [hNew, hBoth.values_planTo kind]
  have hAssets :
      ∀ e ∈ p.newcomers q kind, ∀ a ∈ e.assets, a ∈ S.wanted :=
    fun e hE a hA => hWanted a (hBoth.needs_newcomer hE a hA)
  unfold Synchronizer.bulkTrips
  split
  · next hMany =>
      exact S.asks_addAndUpdateDocuments_of_many hLack hNodes
        hAssets hKnown hMany id o
  · next hFew =>
      exact S.asks_addAndUpdateDocuments_of_few hLack hNodes
        hAssets hKnown (Nat.not_lt.1 hFew) id o

/- So are the documents of all kinds that were planned. -/
theorem asks_updateDocuments
    (hKnown : p.introductions q (p.changedKinds q) ⊆ K)
    {plans : List DocumentPlan}
    (hPlans :
      plans.map DocumentPlan.new =
        (p.changedKinds q).map
          (fun kind => (p.planTo q kind).new))
    (id : ProjectId)
    (o : SyncOutcome) :
    Run.Asks (fun _ => True) (S.knows K)
      (sync.updateDocuments id o plans)
      ((p.changedKinds q).map
        (fun kind =>
          sync.bulkTrips (p.newcomers q kind).length)).sum
      (fun _ => S.knows K) := by
  have hLimits :
      plans.map (fun plan => sync.bulkTrips plan.new.size) =
        (p.changedKinds q).map
          (fun kind =>
            sync.bulkTrips (p.newcomers q kind).length) := by
    have hBoth' :=
      congrArg
        (List.map
          (fun new : DocumentNodeMap => sync.bulkTrips new.size))
        hPlans
    rw [List.map_map, List.map_map] at hBoth'
    apply hBoth'.trans
    apply List.map_congr_left
    intro kind _
    dsimp only [Function.comp]
    rw [hBoth.size_planTo kind]
  unfold Synchronizer.updateDocuments
  apply (S.asks_of_knowing ((S.knowing K).steps.foldlM _
    (fun o plan =>
      (S.knowing K).removeDocuments id o plan))).bindQuiet
  intro removed
  rw [← hLimits]
  apply Run.Asks.foldlM_each
  intro plan hPlan o
  have hMem := List.mem_map_of_mem (f := DocumentPlan.new) hPlan
  rw [hPlans] at hMem
  rcases List.mem_map.1 hMem with ⟨kind, hKind, hNew⟩
  have hStep :=
    S.asks_addAndUpdateDocuments (K := K) hLack hBoth hWanted
      (fun e hE a hA => hKnown ⟨kind, hKind, e, hE, hA⟩)
      hNew.symm id o
  rw [← hBoth.size_planTo kind, hNew] at hStep
  exact hStep

/- A project of both sides is brought to that of the target. -/
theorem asks_updateProject
    (o : SyncOutcome) :
    Run.Asks (fun _ => True) (S.knows K)
      (sync.updateProject o p q.node) (sync.projectTrips p q)
      (fun _ => S.knows K) := by
  have hAssets : ∀ a ∈ p.changedValues q, a ∈ S.wanted :=
    fun a hA => hWanted a (Project.needs_of_mem_changedValues hA)
  have hValues :=
    (S.gives_prefetch_step (K := K) hLack hAssets).keep
      Set.subset_union_left
  rw [← Project.changedValues_node] at hValues
  have hOnce :
      Run.Asks (fun _ => True) (S.knows K)
        (sync.prefetch (p.node.changedValues q.node)) 1
        (fun _ _ => True) :=
    sync.asks_prefetch (fun _ _ => trivial)
  unfold Synchronizer.updateProject Synchronizer.projectTrips
  rw [List.sum_map_add]
  apply sync.asks_checkCancelled.bindQuiet
  intro _
  apply (hValues.asks hOnce).bindValue
  apply (S.asks_of_knowing
    ((S.knowing K).updateProjectAttributes _ _ _ _ _)).bindQuiet
  intro attributed
  apply (S.asks_of_knowing
    ((S.knowing K).updateOptions _ _ _ _)).bindQuiet
  intro optioned
  apply (S.asks_of_knowing
    ((S.knowing K).updateReferences _ _ _ _ _)).bindQuiet
  intro referring
  apply (S.asks_planProject hLack hBoth hWanted referring
    p.id).bind
  intro plans
  apply Run.Asks.assuming
  intro hPlans
  have hDocuments :=
    S.asks_updateDocuments hLack hBoth hWanted
      (K := K ∪ p.introductions q (p.changedKinds q))
      Set.subset_union_right hPlans p.id
      { o with solution := referring }
  apply hDocuments.bind (m := 0)
  intro updated
  exact .of_pure
    (fun _ h => S.mono Set.subset_union_left h)

end Supply

end SnapTree
