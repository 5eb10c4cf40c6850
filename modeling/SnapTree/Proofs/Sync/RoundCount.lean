import SnapTree.Proofs.Exchange.RoundCount
import SnapTree.Proofs.Sync.Comparison

/-
  This file proves how often the steps of a synchronization ask
  the source.  Most of them never do, and those that do ask
  once for whatever they need.  Round trips are counted as they
  are made, so that the counts tell the same.

  Key definitions include:
    * `Session.Tallies`
    * `Synchronizer.tally`
    * `Synchronizer.silence`

  Key theorems include:
    * `Synchronizer.tallies_synchronize`
    * `Synchronizer.tallies_createSolution`
    * `Synchronizer.asks_newProjects`
    * `Synchronizer.asks_planDocuments`
    * `Synchronizer.asks_updateFrozen`
    * `Synchronizer.asks_documentDescription_of_stocked`
-/

namespace SnapTree

------------------------------------------------------------
-- Round trips are counted
------------------------------------------------------------

/-
  From one session to another, as many round trips were counted
  as requests were made.
-/
def Session.Tallies
    (s t : Session) : Prop :=
  t.counts.roundTrips + s.requests.length =
    s.counts.roundTrips + t.requests.length

theorem Session.Tallies.trans
    {s t u : Session}
    (hFirst : s.Tallies t)
    (hSecond : t.Tallies u) :
    s.Tallies u := by
  unfold Session.Tallies at *
  omega

/- The counts go up by as many requests as there are more. -/
theorem Session.Tallies.roundTrips_le
    {s t : Session}
    (hTallies : s.Tallies t)
    {made : List Request}
    (hMade : t.requests = s.requests ++ made)
    {n : Nat}
    (hFew : made.length ≤ n) :
    t.counts.roundTrips ≤ s.counts.roundTrips + n := by
  unfold Session.Tallies at hTallies
  rw [hMade, List.length_append] at hTallies
  omega

/- What counts its round trips step by step does so as a whole. -/
def Run.tallying
    (ε : Type) : Run.Congruence ε :=
  @Run.leading ε Session.Tallies (fun _ => rfl)
    (fun _ _ _ => Session.Tallies.trans)

/- A round trip counts as one, unless it is not made. -/
theorem Link.tallies_fetchMissing
    (link : Link)
    (request : Request) :
    Run.Leads Session.Tallies (link.fetchMissing request) := by
  intro s
  have hAsking : s.Tallies (s.asking request) := by
    unfold Session.Tallies Session.asking
    rw [List.length_append]
    exact Nat.add_right_comm _ _ _
  rw [start_fetchMissing]
  split
  · rfl
  split
  · exact hAsking
  · apply hAsking.trans
    rcases link.leads_receive s.requests request
        (s.asking request) with
      ⟨hRequests, hCounts⟩
    unfold Session.Tallies
    rw [hRequests, hCounts]

/- All ways of asking count their round trips. -/
def Link.tally
    (link : Link) : link.Comparison link :=
  .ofRoundTrips (Run.tallying AssetError) (fun _ => rfl)
    link.tallies_fetchMissing
    (fun _ hSame s => by
      rw [Run.start_modify]
      unfold Session.Tallies
      rw [hSame])
    (fun s => by
      rw [start_checkCancelled]
      split
      · rfl
      · rfl)

namespace Synchronizer

variable (sync : Synchronizer)

/- So do all steps of a synchronization. -/
def tally : sync.Comparison sync :=
  .ofLink sync.link.tally (Run.tallying SyncError) id
    (fun _ _ _ => rfl) (fun _ _ => rfl)

theorem tallies_synchronize
    (baseline : Solution)
    (target : Checksum) :
    Run.Leads Session.Tallies
      (sync.synchronize baseline target) := by
  apply sync.tally.steps.bind
    (sync.tally.synchronizeWithReport (fun _ => rfl) _ _)
  intro o
  exact sync.tally.steps.of_pure _

theorem tallies_createSolution
    (target : Checksum) :
    Run.Leads Session.Tallies (sync.createSolution target) := by
  apply sync.tally.steps.bind (sync.tally.collect target)
  intro build
  exact sync.tally.ofEdit _

end Synchronizer

------------------------------------------------------------
-- Steps that never ask
------------------------------------------------------------

/- What is kept by every step is kept along the way. -/
theorem Run.Asks.keeping
    {ε α : Type}
    {P : Request → Prop}
    {kept : Session → Prop}
    {r : Run ε α}
    {n : Nat}
    {post : α → Session → Prop}
    (hAsks : Run.Asks P kept r n post)
    (hLeads : Run.Leads (fun s t => kept s → kept t) r) :
    Run.Asks P kept r n (fun a s => post a s ∧ kept s) :=
  hAsks.also hLeads.spec

/- What extends a session is extended by what extends that. -/
theorem Run.Asks.extending
    {ε α : Type}
    {P : Request → Prop}
    {w : Session}
    {r : Run ε α}
    {n : Nat}
    {post : α → Session → Prop}
    (hAsks : Run.Asks P w.Extends r n post)
    (hLeads : Run.Leads Session.Extends r) :
    Run.Asks P w.Extends r n (fun _ => w.Extends) := by
  have hKept :
      Run.Leads (fun s t => w.Extends s → w.Extends t) r :=
    fun s hS c a hCached => hLeads s c a (hS c a hCached)
  exact (hAsks.keeping hKept).weaken (fun _ h => h)
    (fun _ _ h => h.2)

namespace Synchronizer

/- A synchronizer whose caller has given up before. -/
def silent : Synchronizer where
  link :=
    { source := fun _ _ => .ok []
      cancellation := .before }
  settings := {}

/-
  It never asks, and neither does any step of others that is
  done without a synchronizer.
-/
def silence : silent.Comparison silent :=
  .ofLink
    (.ofRoundTrips (Run.quiet AssetError) (fun _ => rfl)
      (fun request s => by
        rw [Link.start_fetchMissing]
        rfl)
      (fun _ _ _ => rfl)
      (fun s => by
        rw [Link.start_checkCancelled]
        rfl))
    (Run.quiet SyncError) id (fun _ _ _ => rfl) (fun _ _ => rfl)

variable {P : Request → Prop} {pre : Session → Prop}
variable {α : Type}

theorem asks_of_silent
    {r : SyncRun α}
    (hSilent : silence.steps.Alike r r) :
    Run.Asks P pre r 0 (fun _ _ => True) :=
  .of_quiet hSilent (Run.Spec.anything _)

------------------------------------------------------------
-- Steps that ask
------------------------------------------------------------

variable (sync : Synchronizer)

theorem asks_checkCancelled :
    Run.Asks P pre sync.checkCancelled 0 (fun _ => pre) :=
  sync.link.asks_checkCancelled.failingAs

theorem asks_fetch
    [AssetValue α]
    {c : Checksum}
    (hP : P [c]) :
    Run.Asks P pre (sync.fetch c : SyncRun α) 1
      (fun _ _ => True) :=
  (sync.link.asks_get hP).failingAs

theorem asks_fetch_of_cached
    [AssetValue α]
    {c : Checksum}
    (hCached : ∀ s, pre s → s.isCached c = true) :
    Run.Asks P pre (sync.fetch c : SyncRun α) 0
      (fun _ _ => True) :=
  (sync.link.asks_get_of_cached hCached).failingAs

theorem asks_prefetch
    {cs : List Checksum}
    (hP :
      ∀ request : Request, (∀ c ∈ request, c ∈ cs) →
        P request) :
    Run.Asks P pre (sync.prefetch cs) 1 (fun _ _ => True) := by
  have hAsks :
      Run.Asks P pre (sync.link.prefetch cs) 1
        (fun _ _ => True) :=
    sync.link.asks_prefetch
      (fun request hRequest =>
        hP request (fun c hC => (hRequest c hC).1))
  have hDiscard :
      Run.Asks P pre (discard (sync.link.prefetch cs)) (1 + 0)
        (fun _ _ => True) :=
    hAsks.bind (fun _ => .of_pure (fun _ _ => trivial))
  exact hDiscard.failingAs

theorem asks_fetchAnalyzerReferences
    {c : Collection}
    (hP :
      ∀ request : Request, (∀ d ∈ request, d ∈ c.members) →
        P request) :
    Run.Asks P pre (sync.fetchAnalyzerReferences c) 1
      (fun _ _ => True) :=
  (sync.asks_prefetch hP).bind
    (fun _ => asks_of_silent (silence.analyzerReferences c))

theorem asks_fetchFrozen
    {identity text : Checksum}
    (hP :
      ∀ request : Request,
        (∀ c ∈ request, c ∈ [identity, text]) → P request) :
    Run.Asks P pre (sync.fetchFrozen identity text) 1
      (fun _ _ => True) := by
  apply (sync.asks_prefetch hP).bind (m := 0)
  intro _
  apply asks_of_silent
  apply silence.steps.bind (silence.cached identity)
  intro identity
  apply silence.steps.bind (silence.cached text)
  intro text
  exact silence.steps.of_pure _

/- The nodes of documents are asked for, then what names them. -/
theorem asks_newDocuments
    (hP : ∀ request : Request, P request)
    (cs : List Checksum) :
    Run.Asks P pre (sync.newDocuments cs) 2
      (fun _ _ => True) := by
  apply ((sync.link.asks_getMany
    (fun _ _ => hP _)).failingAs).bind (m := 1)
  intro nodes
  apply (sync.asks_prefetch (fun _ _ => hP _)).bind (m := 0)
  intro _
  exact asks_of_silent (silence.steps.foldlM _
    (fun m node => silence.enterDocument m node))

theorem asks_newProjects
    (hP : ∀ request : Request, P request)
    (cs : List Checksum) :
    Run.Asks P pre (sync.newProjects cs) 2
      (fun _ _ => True) := by
  apply ((sync.link.asks_getMany
    (fun _ _ => hP _)).failingAs).bind (m := 1)
  intro nodes
  apply (sync.asks_prefetch (fun _ _ => hP _)).bind (m := 0)
  intro _
  exact asks_of_silent (silence.steps.foldlM _
    (fun m node => silence.enterProject m node))

theorem asks_planDocuments
    (hP : ∀ request : Request, P request)
    (s : Solution)
    (id : ProjectId)
    (kind : DocumentKind)
    (old new : Collection) :
    Run.Asks P pre (sync.planDocuments s id kind old new) 2
      (fun _ _ => True) := by
  unfold planDocuments
  apply sync.asks_checkCancelled.bindQuiet
  intro _
  apply (Run.Asks.bindQuiet (asks_of_silent
    (silence.difference old.members new.members)))
  intro difference
  cases s.project? id with
  | none => exact Run.Asks.of_throw.le (Nat.zero_le 2)
  | some p =>
      apply (sync.asks_newDocuments hP _).bind (m := 0)
      intro new
      exact Run.Asks.of_pure (fun _ _ => trivial)

theorem asks_updateSolutionAttributes
    (hP : ∀ request : Request, P request)
    (s : Solution)
    (target old new : Checksum) :
    Run.Asks P pre
      (sync.updateSolutionAttributes s target old new) 1
      (fun _ _ => True) := by
  unfold updateSolutionAttributes
  split
  · exact (Run.Asks.of_pure (fun _ _ => trivial)).le
      (Nat.zero_le 1)
  · apply (sync.asks_fetch (hP _)).bind (m := 0)
    intro attributes
    dsimp only
    split
    · exact Run.Asks.of_throw_bind
    split
    · exact Run.Asks.of_throw_bind
    · exact asks_of_silent (silence.ofEdit _)

theorem asks_updateSolutionAnalyzers
    (hP : ∀ request : Request, P request)
    (s : Solution)
    (old new : Collection) :
    Run.Asks P pre (sync.updateSolutionAnalyzers s old new) 1
      (fun _ _ => True) := by
  unfold updateSolutionAnalyzers
  split
  · exact (Run.Asks.of_pure (fun _ _ => trivial)).le
      (Nat.zero_le 1)
  · apply (sync.asks_fetchAnalyzerReferences
      (fun _ _ => hP _)).bind (m := 0)
    intro references
    exact Run.Asks.of_pure (fun _ _ => trivial)

theorem asks_updateFrozen
    (hP : ∀ request : Request, P request)
    (s : Solution)
    (new : SolutionNode) :
    Run.Asks P pre (sync.updateFrozen s new) 1
      (fun _ _ => True) := by
  unfold updateFrozen
  split
  · exact (Run.Asks.of_pure (fun _ _ => trivial)).le
      (Nat.zero_le 1)
  · next identity text _ =>
      apply (sync.asks_fetchFrozen (fun _ _ => hP _)).bind (m := 0)
      intro frozen
      split
      · exact asks_of_silent (silence.ofEdit _)
      · exact Run.Asks.of_pure (fun _ _ => trivial)

/- A document whose node is cached needs one request. -/
theorem asks_documentDescription_of_cached
    {c : Checksum}
    (hCached : ∀ s, pre s → s.isCached c = true)
    (hP :
      ∀ s, pre s → ∀ request : Request,
        (∀ d ∈ request, ∃ n : DocumentNode,
          s.cache[c]? = some (.documentNode n) ∧
            d ∈ [n.attributes, n.text]) →
          P request) :
    Run.Asks P pre (sync.documentDescription c) 1
      (fun _ _ => True) := by
  have hFetch :
      Run.Asks P pre (sync.link.fetchDocuments [c]) 1
        (fun _ _ => True) := by
    apply sync.link.asks_fetchDocuments_of_cached
    · intro s hPre d hD
      rw [List.mem_singleton.1 hD]
      exact hCached s hPre
    · intro s hPre request hRequest
      apply hP s hPre
      intro d hD
      rcases hRequest d hD with ⟨e, hE, hLeaf⟩
      rw [List.mem_singleton.1 hE] at hLeaf
      exact hLeaf
  apply hFetch.failingAs.bind (m := 0)
  intro _
  exact asks_of_silent (silence.cachedDocument c)

/- One that is stocked needs none. -/
theorem asks_documentDescription_of_stocked
    {c : Checksum}
    (hStocks : ∀ s, pre s → s.StocksDocument c) :
    Run.Asks P pre (sync.documentDescription c) 0
      (fun _ _ => True) := by
  have hFetch :
      Run.Asks P pre (sync.link.fetchDocuments [c]) 0
        (fun _ => pre) := by
    apply sync.link.asks_fetchDocuments_of_stocked
    intro s hPre d hD
    rw [List.mem_singleton.1 hD]
    exact hStocks s hPre
  apply hFetch.failingAs.bindQuiet
  intro _
  exact asks_of_silent (silence.cachedDocument c)

end Synchronizer

end SnapTree
