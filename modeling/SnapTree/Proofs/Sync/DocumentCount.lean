import SnapTree.Proofs.Sync.Documents
import SnapTree.Proofs.Sync.RoundCount

/-
  This file proves how often the documents of a kind are asked
  for when they are planned and brought to a target.  Many are
  fetched in one request, and nothing is left to ask for then;
  a few are fetched one by one, at most once each.

  Key definitions include:
    * `Synchronizer.Costs`
    * `Synchronizer.bulkTrips`
    * `Session.Introduces`
    * `Session.AsksTogether`
    * `Session.AsksSingly`

  Key theorems include:
    * `Synchronizer.asks_updateDocument`
    * `Synchronizer.asks_placeDocuments`
    * `Synchronizer.asks_addAndUpdateDocuments`
    * `Synchronizer.requests_addAndUpdateDocuments`
    * `Synchronizer.asksTogether_of_many`
    * `Synchronizer.asksSingly_of_few`
-/

namespace SnapTree

------------------------------------------------------------
-- The size of a plan
------------------------------------------------------------

/- Whatever is new either comes or changes. -/
theorem DocumentPlan.length_added_add_changed
    (plan : DocumentPlan) :
    plan.added.length + plan.changed.length = plan.new.size := by
  have hChanged :
      plan.changed.length =
        plan.new.toList.countP
          (fun entry => plan.old.contains entry.1) := by
    unfold changed
    rw [List.length_filterMap_eq_countP]
    apply List.countP_congr
    intro entry _
    rw [Std.ExtTreeMap.contains_eq_isSome_getElem?,
      Option.isSome_map]
  have hSplit :=
    List.length_eq_countP_add_countP
      (fun entry => plan.old.contains entry.1)
      (l := plan.new.toList)
  unfold added
  rw [hChanged, List.length_map, ← List.countP_eq_length_filter,
    Nat.add_comm, ← Std.ExtTreeMap.length_toList, hSplit]
  simp only [Bool.not_eq_true, Bool.decide_eq_false]

/- What comes and what changes is among what is new. -/
theorem DocumentPlan.mem_new_of_mem_added
    {plan : DocumentPlan}
    {node : DocumentNode}
    (hAdded : node ∈ plan.added) :
    node ∈ plan.new.toList.map Prod.snd := by
  rcases List.mem_map.1 hAdded with ⟨entry, hEntry, rfl⟩
  exact List.mem_map_of_mem (List.mem_of_mem_filter hEntry)

theorem DocumentPlan.mem_new_of_mem_changed
    {plan : DocumentPlan}
    {change : DocumentId × Document × DocumentNode}
    (hChanged : change ∈ plan.changed) :
    change.2.2 ∈ plan.new.toList.map Prod.snd := by
  rcases List.mem_filterMap.1 hChanged with
    ⟨entry, hEntry, hChange⟩
  rcases Option.map_eq_some_iff.1 hChange with ⟨old, -, rfl⟩
  exact List.mem_map_of_mem hEntry

namespace Synchronizer

variable (sync : Synchronizer)
variable {P : Request → Prop} {kept : Session → Prop}
variable {n : Nat}

------------------------------------------------------------
-- What a document costs
------------------------------------------------------------

/-
  A document costs at most `n` requests, all of them with `P`:
  its attributes are had without asking, its text or all of it
  by asking so often, and what is kept remains so.
-/
structure Costs
    (P : Request → Prop)
    (kept : Session → Prop)
    (node : DocumentNode)
    (n : Nat) : Prop where
  attributes :
    Run.Asks P kept
      (sync.fetch node.attributes : SyncRun DocumentAttributes) 0
      (fun _ => kept)
  text :
    Run.Asks P kept (sync.fetch node.text : SyncRun String) n
      (fun _ => kept)
  description :
    Run.Asks P kept (sync.documentDescription node.checksum) n
      (fun _ => kept)

omit sync in
theorem asks_ofEdit
    {α : Type}
    (x : Except EditError α) :
    Run.Asks P kept (SyncRun.ofEdit x) 0 (fun _ => kept) := by
  cases x with
  | ok a => exact .of_pure (fun _ h => h)
  | error e => exact .of_throw

namespace Costs

variable {sync} {new : DocumentNode}
variable (hCosts : sync.Costs P kept new n)

include hCosts

/- The text is asked for only if the document is rebuilt. -/
theorem asks_updateAttributes
    (s : Solution)
    (project : ProjectId)
    (id : DocumentId)
    (base : List Request) :
    Run.Asks P (fun u => kept u ∧ u.requests = base)
      (sync.updateAttributes s project id new) n
      (fun a u => kept u ∧ (a.2 = true ∨ u.requests = base)) := by
  unfold updateAttributes
  apply (hCosts.attributes.unmoved base).bindQuiet
  intro next
  cases s.document? project id with
  | none => exact Run.Asks.of_throw.le (Nat.zero_le n)
  | some d =>
      dsimp only
      cases d.attributes.changedIdentity? next with
      | some field =>
          exact Run.Asks.of_throw_bind.le (Nat.zero_le n)
      | none =>
          dsimp only
          split
          · apply (hCosts.text.weaken (fun _ h => h.1)
              (fun _ _ h => h)).bind (m := 0)
            intro text
            apply (asks_ofEdit _).bindQuiet
            intro removed
            apply (asks_ofEdit _).bindQuiet
            intro added
            exact .of_pure (fun _ h => ⟨h, Or.inl rfl⟩)
          · refine Run.Asks.le ?_ (Nat.zero_le n)
            apply (asks_ofEdit _).bindStep
            intro folded
            apply (asks_ofEdit _).bindStep
            intro changed
            exact .of_pure (fun _ h => ⟨h.1, Or.inr h.2⟩)

/- A document that changes is asked for once, if at all. -/
theorem asks_updateDocument
    (s : Solution)
    (project : ProjectId)
    (id : DocumentId)
    (old : DocumentNode) :
    Run.Asks P kept (sync.updateDocument s project id old new) n
      (fun _ => kept) := by
  have hText :
      ∀ (x : Solution) (rebuilt : Bool),
        Run.Asks P kept
          (if (!rebuilt && old.text != new.text) = true then do
            let text : String ← sync.fetch new.text
            .ofEdit (x.withDocumentText project id text)
          else pure x : SyncRun Solution)
          n (fun _ => kept) := by
    intro x rebuilt
    split
    · apply hCosts.text.bind (m := 0)
      intro text
      exact asks_ofEdit _
    · apply Run.Asks.le ?_ (Nat.zero_le n)
      exact .of_pure (fun _ h => h)
  unfold updateDocument
  apply sync.asks_checkCancelled.bindQuiet
  intro _
  split
  · -- A document that was rebuilt has its text already.
    have hRebuilt :
        ∀ a : Solution × Bool, a.2 = true →
          Run.Asks P kept
            (if (!a.2 && old.text != new.text) = true then do
              let text : String ← sync.fetch new.text
              .ofEdit (a.1.withDocumentText project id text)
            else pure a.1 : SyncRun Solution)
            0 (fun _ => kept) := by
      rintro ⟨x, rebuilt⟩ hTrue
      have hTrue : rebuilt = true := hTrue
      subst hTrue
      exact .of_pure (fun _ h => h)
    exact Run.Asks.bindOnce
      (hCosts.asks_updateAttributes s project id) hRebuilt
      (fun a => hText a.1 a.2)
  · exact hText s false

theorem asks_countedUpdate
    (project : ProjectId)
    (o : SyncOutcome)
    (id : DocumentId)
    (old : Document) :
    Run.Asks P kept (sync.countedUpdate project o (id, old, new))
      n (fun _ => kept) := by
  apply (hCosts.asks_updateDocument o.solution project id
    old.node).bind (m := 0)
  intro solution
  exact .of_pure (fun _ h => h)

end Costs

------------------------------------------------------------
-- Documents of one kind
------------------------------------------------------------

theorem fetchInBulk_of_many
    {new : DocumentNodeMap}
    (hMany : new.size > sync.settings.bulkDocumentThreshold) :
    sync.fetchInBulk new =
      .ofAssets (sync.link.fetchDocuments
        ((new.toList.map Prod.snd).map
          DocumentNode.checksum)) := by
  unfold fetchInBulk
  rw [if_pos hMany, List.map_map]
  rfl

/- A few are not fetched in bulk. -/
theorem asks_fetchInBulk_of_few
    {new : DocumentNodeMap}
    (hFew : new.size ≤ sync.settings.bulkDocumentThreshold) :
    Run.Asks P kept (sync.fetchInBulk new) 0
      (fun _ => kept) := by
  unfold fetchInBulk
  rw [if_neg (Nat.not_lt.2 hFew)]
  exact .of_pure (fun _ h => h)

/- Every document is asked for as often as it costs. -/
theorem asks_placeDocuments
    {plan : DocumentPlan}
    (hCosts :
      ∀ node ∈ plan.new.toList.map Prod.snd,
        sync.Costs P kept node n)
    (project : ProjectId)
    (o : SyncOutcome) :
    Run.Asks P kept (sync.placeDocuments project o plan)
      (plan.new.size * n) (fun _ => kept) := by
  have hAdded :
      Run.Asks P kept
        (plan.added.mapM
          (fun node => sync.documentDescription node.checksum))
        (plan.added.map (fun _ => n)).sum (fun _ => kept) := by
    apply Run.Asks.mapM_each
    intro node hNode
    have hNew := plan.mem_new_of_mem_added hNode
    exact (hCosts node hNew).description
  have hChanged :
      ∀ o,
        Run.Asks P kept
          (plan.changed.foldlM (sync.countedUpdate project) o)
          (plan.changed.map (fun _ => n)).sum
          (fun _ => kept) := by
    apply Run.Asks.foldlM_each
    rintro ⟨id, old, new⟩ hChange o
    have hNew := plan.mem_new_of_mem_changed hChange
    exact (hCosts new hNew).asks_countedUpdate project o id old
  rw [List.map_const', List.sum_replicate_nat] at hAdded
  simp only [List.map_const', List.sum_replicate_nat] at hChanged
  rw [← plan.length_added_add_changed, Nat.add_mul]
  apply hAdded.bind
  intro added
  apply (asks_ofEdit _).bindQuiet
  intro solution
  exact hChanged _

/- What is fetched in bulk comes before all else. -/
theorem asks_addAndUpdateDocuments
    {plan : DocumentPlan}
    {pre : Session → Prop}
    {m : Nat}
    (hBulk :
      Run.Asks P pre (sync.fetchInBulk plan.new) m
        (fun _ => kept))
    (hCosts :
      ∀ node ∈ plan.new.toList.map Prod.snd,
        sync.Costs P kept node n)
    (project : ProjectId)
    (o : SyncOutcome) :
    Run.Asks P pre (sync.addAndUpdateDocuments project o plan)
      (m + plan.new.size * n) (fun _ => kept) := by
  apply sync.asks_checkCancelled.bindQuiet
  intro _
  apply hBulk.bind
  intro _
  exact sync.asks_placeDocuments hCosts project o

/-
  How many requests bring so many documents: one for many, and
  one each for a few.
-/
def bulkTrips
    (count : Nat) : Nat :=
  if count > sync.settings.bulkDocumentThreshold then 1
  else count

end Synchronizer

------------------------------------------------------------
-- Documents that were introduced
------------------------------------------------------------

/- A document node is cached along with its attributes. -/
structure Session.Introduces
    (w : Session)
    (n : DocumentNode) : Prop where
  node : w.cache[n.checksum]? = some (.documentNode n)
  attributes : w.isCached n.attributes = true

theorem Session.Introduces.later
    {v w : Session}
    (hExtends : v.Extends w)
    {n : DocumentNode}
    (hIntroduces : v.Introduces n) :
    w.Introduces n where
  node := hExtends _ _ hIntroduces.node
  attributes := hExtends.isCached hIntroduces.attributes

namespace Synchronizer

section Introduced

variable {sync : Synchronizer} {P : Request → Prop}
variable {w : Session} {node : DocumentNode}

/- Whatever is done, what was cached stays. -/
def extending : sync.Comparison sync :=
  carried sync.link.carries_extends (fun _ _ _ _ _ h => h)

theorem Costs.extending
    {n : Nat}
    (hAttributes :
      Run.Asks P w.Extends
        (sync.fetch node.attributes :
          SyncRun DocumentAttributes)
        0 (fun _ _ => True))
    (hText :
      Run.Asks P w.Extends (sync.fetch node.text : SyncRun String)
        n (fun _ _ => True))
    (hDescription :
      Run.Asks P w.Extends
        (sync.documentDescription node.checksum) n
        (fun _ _ => True)) :
    sync.Costs P w.Extends node n where
  attributes :=
    hAttributes.extending (Synchronizer.extending.fetch _)
  text := hText.extending (Synchronizer.extending.fetch _)
  description :=
    hDescription.extending
      (Synchronizer.extending.documentDescription _)

variable (hIntroduces : w.Introduces node)

include hIntroduces

theorem asks_fetch_introduced :
    Run.Asks P w.Extends
      (sync.fetch node.attributes : SyncRun DocumentAttributes) 0
      (fun _ _ => True) :=
  sync.asks_fetch_of_cached
    (fun _ hS => hS.isCached hIntroduces.attributes)

/- A document that was introduced costs one request. -/
theorem costs_of_introduces
    (hP :
      ∀ request : Request,
        (∀ c ∈ request, c = node.attributes ∨ c = node.text) →
          P request) :
    sync.Costs P w.Extends node 1 := by
  apply Costs.extending (asks_fetch_introduced hIntroduces)
  · apply sync.asks_fetch
    apply hP
    intro c hC
    exact Or.inr (List.mem_singleton.1 hC)
  · apply sync.asks_documentDescription_of_cached
    · intro s hS
      exact Session.isCached_of_eq_some
        (hS _ _ hIntroduces.node)
    · intro s hS request hRequest
      apply hP
      intro c hC
      rcases hRequest c hC with ⟨n, hN, hLeaf⟩
      rw [hS _ _ hIntroduces.node] at hN
      have hSame : node = n := by simpa using hN
      subst hSame
      simpa using hLeaf

/- One that is stocked as well costs none. -/
theorem costs_of_stocksDocument
    (hStocks : w.StocksDocument node.checksum)
    (hText : node.text.isNull = false) :
    sync.Costs P w.Extends node 0 := by
  have hCached : w.isCached node.text = true :=
    hStocks.2 node hIntroduces.node node.text (by simp) hText
  apply Costs.extending (asks_fetch_introduced hIntroduces)
  · exact sync.asks_fetch_of_cached
      (fun _ hS => hS.isCached hCached)
  · exact sync.asks_documentDescription_of_stocked
      (fun _ hS => hStocks.later hS)

end Introduced

------------------------------------------------------------
-- What is asked for exactly
------------------------------------------------------------

section Exactly

variable {sync : Synchronizer}
variable (hNever : sync.link.cancellation = .never)

include hNever

theorem start_checkCancelled
    (s : Session) :
    sync.checkCancelled.start s = (.ok (), s) := by
  unfold checkCancelled SyncRun.ofAssets
  rw [Run.start_failingAs, Link.start_checkCancelled, hNever]
  rfl

/-
  Many documents that were introduced are one request for all
  of their attributes and texts that are missing, or none if
  nothing is.
-/
theorem requests_addAndUpdateDocuments
    {w : Session}
    {plan : DocumentPlan}
    (hMany :
      plan.new.size > sync.settings.bulkDocumentThreshold)
    (hIntroduces :
      ∀ n ∈ plan.new.toList.map Prod.snd, w.Introduces n)
    (hText :
      ∀ n ∈ plan.new.toList.map Prod.snd, n.text.isNull = false)
    (project : ProjectId)
    (o : SyncOutcome) :
    let missing :=
      w.missing
        ((plan.new.toList.map Prod.snd).flatMap
          (fun n => [n.attributes, n.text]))
    ((sync.addAndUpdateDocuments project o plan).start
        w).2.requests =
      w.requests ++
        (if missing = [] then [] else [missing]) := by
  intro missing
  let ns := plan.new.toList.map Prod.snd
  have hSome : ns ≠ [] := by
    intro hNone
    have hLength : ns.length = plan.new.size := by
      rw [List.length_map, Std.ExtTreeMap.length_toList]
    rw [hNone] at hLength
    exact Nat.not_lt_zero _ (hLength ▸ hMany)
  have hBulk :=
    Link.requests_fetchDocuments hNever hSome
      (fun n hN => (hIntroduces n hN).node)
  have hStocks :=
    sync.link.spec_fetchDocuments (ns.map DocumentNode.checksum)
  have hExtends :=
    sync.link.carries_extends.comparison.fetchDocuments
      (ns.map DocumentNode.checksum) w
  unfold addAndUpdateDocuments
  rw [Run.start_bind_of_ok (start_checkCancelled hNever w),
    sync.fetchInBulk_of_many hMany, Run.start_bind,
    SyncRun.ofAssets, Run.start_failingAs, ← hBulk]
  cases hFetched :
      (sync.link.fetchDocuments
        (ns.map DocumentNode.checksum)).start w with
  | mk result t =>
      cases result with
      | error e => rfl
      | ok _ =>
          have hLater : w.Extends t := by
            rw [hFetched] at hExtends
            exact hExtends
          have hCosts :
              ∀ n ∈ ns,
                sync.Costs (fun _ => True) t.Extends n 0 := by
            intro n hN
            apply costs_of_stocksDocument
              ((hIntroduces n hN).later hLater) ?_ (hText n hN)
            exact hStocks.of_ok hFetched _
              (List.mem_map_of_mem hN)
          exact (sync.asks_placeDocuments hCosts project
            o).requests_eq (.refl t)

end Exactly

end Synchronizer

------------------------------------------------------------
-- Many documents and few
------------------------------------------------------------

/-
  All attributes and texts of some documents that were not
  cached were asked for in one request, if there were any, and
  nothing else was.
-/
def Session.AsksTogether
    (s t : Session)
    (ds : List Document) : Prop :=
  ∃ missing : Request,
    (∀ c, c ∈ missing ↔
      (∃ d ∈ ds, c = d.node.attributes ∨ c = d.node.text) ∧
        s.isCached c = false) ∧
      t.requests =
        s.requests ++ (if missing = [] then [] else [missing])

/-
  Each request was for the attributes or the text of one of
  some documents, and there were no more than documents.
-/
def Session.AsksSingly
    (s t : Session)
    (ds : List Document) : Prop :=
  ∃ made : List Request,
    t.requests = s.requests ++ made ∧
      made.length ≤ ds.length ∧
        ∀ request ∈ made, ∃ d ∈ ds, ∀ c ∈ request,
          c = d.node.attributes ∨ c = d.node.text

namespace Synchronizer

section Planned

variable {sync : Synchronizer}
variable {w : Session} {plan : DocumentPlan} {ds : List Document}
variable
  (hNodes :
    plan.new.toList.map Prod.snd = ds.map Document.node)
  (hIntroduces : ∀ d ∈ ds, w.Introduces d.node)

include hNodes

omit sync w in
theorem size_of_nodes :
    plan.new.size = ds.length := by
  rw [← Std.ExtTreeMap.length_toList,
    ← List.length_map (f := Prod.snd), hNodes, List.length_map]

include hIntroduces

omit sync in
theorem introduces_of_nodes :
    ∀ n ∈ plan.new.toList.map Prod.snd, w.Introduces n := by
  rw [hNodes]
  intro n hN
  rcases List.mem_map.1 hN with ⟨d, hD, rfl⟩
  exact hIntroduces d hD

/- Many documents are asked for together. -/
theorem asksTogether_of_many
    (hNever : sync.link.cancellation = .never)
    (hNotNull :
      ∀ d ∈ ds,
        d.node.attributes.isNull = false ∧
          d.node.text.isNull = false)
    (hMany : ds.length > sync.settings.bulkDocumentThreshold)
    (project : ProjectId)
    (o : SyncOutcome) :
    w.AsksTogether
      ((sync.addAndUpdateDocuments project o plan).start w).2
      ds := by
  have hText :
      ∀ n ∈ plan.new.toList.map Prod.snd,
        n.text.isNull = false := by
    rw [hNodes]
    intro n hN
    rcases List.mem_map.1 hN with ⟨d, hD, rfl⟩
    exact (hNotNull d hD).2
  rw [← size_of_nodes hNodes] at hMany
  refine ⟨_, ?_, requests_addAndUpdateDocuments hNever hMany
    (introduces_of_nodes hNodes hIntroduces) hText project o⟩
  intro c
  rw [Session.mem_missing, hNodes, List.flatMap_map]
  constructor
  · rintro ⟨hC, -, hNew⟩
    rcases List.mem_flatMap.1 hC with ⟨d, hD, hLeaf⟩
    exact ⟨⟨d, hD, by simpa using hLeaf⟩, hNew⟩
  · rintro ⟨⟨d, hD, hLeaf⟩, hNew⟩
    refine ⟨List.mem_flatMap.2 ⟨d, hD, by simpa using hLeaf⟩,
      ?_, hNew⟩
    rcases hLeaf with rfl | rfl
    · exact (hNotNull d hD).1
    · exact (hNotNull d hD).2

/- Each of a few documents is asked for by itself, if at all. -/
theorem asksSingly_of_few
    (hFew : ds.length ≤ sync.settings.bulkDocumentThreshold)
    (project : ProjectId)
    (o : SyncOutcome) :
    w.AsksSingly
      ((sync.addAndUpdateDocuments project o plan).start w).2
      ds := by
  let P (request : Request) : Prop :=
    ∃ d ∈ ds, ∀ c ∈ request,
      c = d.node.attributes ∨ c = d.node.text
  have hSize := size_of_nodes hNodes
  have hBulk :
      Run.Asks P w.Extends (sync.fetchInBulk plan.new) 0
        (fun _ => w.Extends) :=
    sync.asks_fetchInBulk_of_few (hSize.trans_le hFew)
  have hCosts :
      ∀ n ∈ plan.new.toList.map Prod.snd,
        sync.Costs P w.Extends n 1 := by
    rw [hNodes]
    intro n hN
    rcases List.mem_map.1 hN with ⟨d, hD, rfl⟩
    exact costs_of_introduces (hIntroduces d hD)
      (fun _ hRequest => ⟨d, hD, hRequest⟩)
  rcases (sync.asks_addAndUpdateDocuments hBulk hCosts project
      o).holds w (.refl w) with ⟨made, hMade, hLength, hP, -⟩
  refine ⟨made, hMade, ?_, hP⟩
  rwa [hSize, Nat.zero_add, Nat.mul_one] at hLength

end Planned

end Synchronizer

end SnapTree
