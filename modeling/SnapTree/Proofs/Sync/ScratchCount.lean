import SnapTree.Proofs.Sync.Convergence
import SnapTree.Proofs.Sync.RoundCount

/-
  This file proves that a build from scratch asks no more than
  seven times, however many projects and documents there are
  and whatever the source answers.  Once the trees of all
  projects were fetched, a project is described without asking;
  only a node that names no attributes makes for one request
  more, over which the build fails.

  Key definitions include:
    * `Run.AsksInVain`
    * `Session.Upholds`
    * `Session.Lacks`

  Key theorems include:
    * `Synchronizer.asksInVain_collectProject`
    * `Synchronizer.asks_collect`
    * `Synchronizer.createSolution_asks_seven`
-/

namespace SnapTree

------------------------------------------------------------
-- Computations that ask in vain
------------------------------------------------------------

/-
  A computation asks for nothing, or it makes one request, one
  of those with `P`, and fails over it.
-/
structure Run.AsksInVain
    {ε α : Type}
    (P : Request → Prop)
    (pre : Session → Prop)
    (r : Run ε α)
    (post : α → Session → Prop) : Prop where
  holds :
    ∀ s, pre s →
      ((r.start s).2.requests = s.requests ∧
          ∀ a, (r.start s).1 = .ok a → post a (r.start s).2) ∨
        ∃ request, P request ∧
          (r.start s).2.requests = s.requests ++ [request] ∧
            ∃ e, (r.start s).1 = .error e

namespace Run.AsksInVain

variable {ε δ α β : Type}
variable {P : Request → Prop} {pre : Session → Prop}

theorem of_asks
    {r : Run ε α}
    {post : α → Session → Prop}
    (hAsks : Run.Asks P pre r 0 post) :
    Run.AsksInVain P pre r post := by
  constructor
  intro s hPre
  rcases hAsks.holds s hPre with ⟨-, -, -, -, hOk⟩
  exact Or.inl ⟨hAsks.requests_eq hPre, hOk⟩

/- A single request over which a computation always fails. -/
theorem of_asks_one
    {r : Run ε α}
    {post : α → Session → Prop}
    (hAsks : Run.Asks P pre r 1 (fun _ _ => False)) :
    Run.AsksInVain P pre r post := by
  constructor
  intro s hPre
  rcases hAsks.holds s hPre with ⟨made, hMade, hFew, hP, hNever⟩
  cases hResult : (r.start s).1 with
  | ok a => exact (hNever a hResult).elim
  | error e =>
      cases made with
      | nil =>
          rw [List.append_nil] at hMade
          exact Or.inl ⟨hMade, fun _ hNot => nomatch hNot⟩
      | cons request rest =>
          have hRest : rest = [] := by
            rw [List.length_cons] at hFew
            exact List.length_eq_zero_iff.1 (by omega)
          subst hRest
          exact Or.inr ⟨request, hP _ List.mem_cons_self, hMade,
            e, rfl⟩

/- What does not depend on the session can be had beforehand. -/
theorem assuming
    {r : Run ε α}
    {p : Prop}
    {post : α → Session → Prop}
    (hVain : p → Run.AsksInVain P pre r post) :
    Run.AsksInVain P (fun s => p ∧ pre s) r post :=
  ⟨fun s hPre => (hVain hPre.1).holds s hPre.2⟩

/- More requests may be accounted for. -/
theorem mono
    {Q : Request → Prop}
    {r : Run ε α}
    {post : α → Session → Prop}
    (hVain : Run.AsksInVain P pre r post)
    (hAll : ∀ request, P request → Q request) :
    Run.AsksInVain Q pre r post :=
  ⟨fun s hPre => (hVain.holds s hPre).imp_right
    (fun ⟨request, hP, hRest⟩ => ⟨request, hAll _ hP, hRest⟩)⟩

/- What is kept by every step is kept along the way. -/
theorem keeping
    {kept : Session → Prop}
    {r : Run ε α}
    {post : α → Session → Prop}
    (hVain : Run.AsksInVain P kept r post)
    (hLeads : Run.Leads (fun s t => kept s → kept t) r) :
    Run.AsksInVain P kept r (fun _ => kept) :=
  ⟨fun s hPre => (hVain.holds s hPre).imp_left
    (fun ⟨hQuiet, _⟩ => ⟨hQuiet, fun _ _ => hLeads s hPre⟩)⟩

/-
  Either nothing is asked for and what follows is up to the
  rest, or the whole fails where the first step does.
-/
theorem start_bind
    {r : Run ε α}
    {mid : α → Session → Prop}
    (hFirst : Run.AsksInVain P pre r mid)
    (f : α → Run ε β)
    {s : Session}
    (hPre : pre s) :
    (∃ a t, t.requests = s.requests ∧ mid a t ∧
      (r >>= f).start s = (f a).start t) ∨
    ∃ e t, (r >>= f).start s = (.error e, t) ∧
      (t.requests = s.requests ∨
        ∃ request, P request ∧
          t.requests = s.requests ++ [request]) := by
  have hHead := hFirst.holds s hPre
  rcases Run.start_bind_cases r f s with
    ⟨e, t, hRun, hWhole⟩ | ⟨a, t, hRun, hWhole⟩
  · rw [hRun] at hHead
    refine Or.inr ⟨e, t, hWhole, ?_⟩
    rcases hHead with ⟨hQuiet, -⟩ | ⟨request, hP, hMade, -⟩
    · exact Or.inl hQuiet
    · exact Or.inr ⟨request, hP, hMade⟩
  · rw [hRun] at hHead
    rcases hHead with ⟨hQuiet, hOk⟩ | ⟨_, _, _, e, hNot⟩
    · exact Or.inl ⟨a, t, hQuiet, hOk a rfl, hWhole⟩
    · cases hNot

/-
  Nothing follows the request, so that there is at most one in
  any number of steps.
-/
theorem bind
    {r : Run ε α}
    {f : α → Run ε β}
    {mid : α → Session → Prop}
    {post : β → Session → Prop}
    (hFirst : Run.AsksInVain P pre r mid)
    (hThen : ∀ a, Run.AsksInVain P (mid a) (f a) post) :
    Run.AsksInVain P pre (r >>= f) post := by
  constructor
  intro s hPre
  rcases hFirst.start_bind f hPre with
    ⟨a, t, hQuiet, hMid, hWhole⟩ |
      ⟨e, t, hWhole, hQuiet | ⟨request, hP, hMade⟩⟩
  · rw [hWhole, ← hQuiet]
    exact (hThen a).holds t hMid
  · rw [hWhole]
    exact Or.inl ⟨hQuiet, fun _ hNot => nomatch hNot⟩
  · rw [hWhole]
    exact Or.inr ⟨request, hP, hMade, e, rfl⟩

theorem mapM
    {xs : List α}
    {f : α → Run ε β}
    (hStep :
      ∀ x ∈ xs, Run.AsksInVain P pre (f x) (fun _ => pre)) :
    Run.AsksInVain P pre (xs.mapM f) (fun _ => pre) := by
  induction xs with
  | nil => exact of_asks (.of_pure (fun _ hPre => hPre))
  | cons x xs ih =>
      rw [List.mapM_cons]
      apply (hStep x List.mem_cons_self).bind
      intro b
      apply (ih (fun y hY =>
        hStep y (List.mem_cons_of_mem _ hY))).bind
      intro bs
      exact of_asks (.of_pure (fun _ hPre => hPre))

/- What may follow asks no more often than it would anyway. -/
theorem bindAsks
    {Q : Request → Prop}
    {r : Run ε α}
    {f : α → Run ε β}
    {mid : α → Session → Prop}
    {post : β → Session → Prop}
    {n : Nat}
    (hFirst : Run.AsksInVain P pre r mid)
    (hThen : ∀ a, Run.Asks Q (mid a) (f a) (n + 1) post)
    (hAll : ∀ request, P request → Q request) :
    Run.Asks Q pre (r >>= f) (n + 1) post := by
  constructor
  intro s hPre
  rcases hFirst.start_bind f hPre with
    ⟨a, t, hQuiet, hMid, hWhole⟩ |
      ⟨e, t, hWhole, hQuiet | ⟨request, hP, hMade⟩⟩
  · rw [hWhole, ← hQuiet]
    exact (hThen a).holds t hMid
  · rw [hWhole]
    refine ⟨[], ?_, Nat.zero_le _, by simp,
      fun _ hNot => nomatch hNot⟩
    rw [List.append_nil]
    exact hQuiet
  · rw [hWhole]
    refine ⟨[request], hMade, ?_, ?_,
      fun _ hNot => nomatch hNot⟩
    · rw [List.length_singleton]
      exact Nat.le_add_left 1 n
    · intro other hOther
      rw [List.mem_singleton.1 hOther]
      exact hAll request hP

end Run.AsksInVain

------------------------------------------------------------
-- Sessions without a null entry
------------------------------------------------------------

/-
  A session upholds another if everything cached there still
  is, and if nothing is cached under the null checksum.
-/
structure Session.Upholds
    (v s : Session) : Prop where
  kept : v.Extends s
  notNull : s.isCached Checksum.null = false

/- Nothing hashes to the null checksum, so nothing gets there. -/
theorem Link.carries_upholds
    {link : Link}
    (hVerifies : link.verifies = true)
    (hGiven :
      link.source.GivesOnly
        {entry | entry.2.checksum ≠ Checksum.null})
    (v : Session) :
    link.Carries (fun s t => v.Upholds s → v.Upholds t) where
  trans hFirst hSecond hS := hSecond (hFirst hS)
  aside hCache _ hS := by
    constructor
    · intro c a hCached
      rw [hCache]
      exact hS.kept c a hCached
    · unfold Session.isCached
      rw [hCache]
      exact hS.notNull
  keep s hFound hEntry hFits hS := by
    constructor
    · intro c a hCached
      exact link.carries_extends.keep s hFound hEntry hFits c a
        (hS.kept c a hCached)
    · rw [← Bool.not_eq_true, Session.isCached_keep, hS.notNull]
      rintro (hNot | hNull)
      · cases hNot
      · apply hGiven _ _ _ hFound _ hEntry
        rw [hFits hVerifies, hNull]

/-
  A request for nothing but the null checksum, where a cached
  project node names that as its attributes.
-/
def Session.Lacks
    (v : Session)
    (c : Checksum)
    (request : Request) : Prop :=
  ∃ n : ProjectNode,
    v.cache[c]? = some (.projectNode n) ∧
      n.attributes = Checksum.null ∧
        request = [Checksum.null]

namespace Synchronizer

section Steps

variable {sync : Synchronizer} {v : Session}
variable
  (hVerifies : sync.link.verifies = true)
  (hGiven :
    sync.link.source.GivesOnly
      {entry | entry.2.checksum ≠ Checksum.null})

include hVerifies hGiven

/- Whatever is done upholds what was cached. -/
def upheld
    (v : Session) : sync.Comparison sync :=
  carried (Link.carries_upholds hVerifies hGiven v)
    (fun _ _ _ hS => ⟨hS.kept, hS.notNull⟩)

------------------------------------------------------------
-- Single projects
------------------------------------------------------------

/- The null checksum can be asked for, but never be had. -/
theorem asks_fetch_null
    {α : Type}
    [AssetValue α]
    [LawfulValue α] :
    Run.Asks (fun request => request = [Checksum.null])
      v.Upholds (sync.fetch Checksum.null : SyncRun α) 1
      (fun _ _ => False) := by
  have hOnce :
      Run.Asks (fun request => request = [Checksum.null])
        v.Upholds (sync.fetch Checksum.null : SyncRun α) 1
        (fun _ _ => True) :=
    sync.asks_fetch rfl
  have hLeads :
      Run.Leads (fun s t => v.Upholds s → v.Upholds t)
        (sync.fetch Checksum.null : SyncRun α) :=
    (upheld hVerifies hGiven v).fetch Checksum.null
  have hCached :
      Run.Spec v.Upholds
        (sync.fetch Checksum.null : SyncRun α)
        (fun _ t => t.isCached Checksum.null = true)
        (fun _ => True) := by
    refine Run.Spec.failingAs ?_ (fun _ hFail => hFail)
    exact (sync.link.spec_get Checksum.null).conseq
      (fun _ _ => trivial)
      (fun _ _ hA => Session.isCached_of_eq_some hA)
      (fun _ h => h)
  apply ((hOnce.keeping hLeads).also hCached).weaken
    (fun _ h => h)
  rintro a t ⟨⟨-, hUpholds⟩, hNull⟩
  rw [hUpholds.notNull] at hNull
  cases hNull

/- The attributes that a stocked project names, if any. -/
theorem asksInVain_fetch_attributes
    {c : Checksum}
    (hStocks : v.StocksProject c)
    {n : ProjectNode}
    (hNode : v.cache[c]? = some (.projectNode n)) :
    Run.AsksInVain (v.Lacks c) v.Upholds
      (sync.fetch n.attributes : SyncRun ProjectAttributes)
      (fun _ => v.Upholds) := by
  have hLeads :
      Run.Leads (fun s t => v.Upholds s → v.Upholds t)
        (sync.fetch n.attributes : SyncRun ProjectAttributes) :=
    (upheld hVerifies hGiven v).fetch n.attributes
  cases hNull : n.attributes.isNull with
  | false =>
      rcases hStocks.2 n hNode with ⟨hValues, -⟩
      have hMem : n.attributes ∈ n.valueChildren := by
        simp [ProjectNode.valueChildren]
      have hNone :
          Run.Asks (v.Lacks c) v.Upholds
            (sync.fetch n.attributes : SyncRun ProjectAttributes)
            0 (fun _ _ => True) :=
        sync.asks_fetch_of_cached (fun s hS =>
          hS.kept.isCached (hValues _ hMem hNull))
      exact .of_asks ((hNone.keeping hLeads).weaken
        (fun _ h => h) (fun _ _ h => h.2))
  | true =>
      have hIs : n.attributes = Checksum.null := by
        simpa [Checksum.isNull] using hNull
      rw [hIs]
      exact .of_asks_one
        ((asks_fetch_null hVerifies hGiven).conseq
          (fun _ h => h) (fun _ _ h => h) (Nat.le_refl 1)
          (fun _ h => ⟨n, hNode, hIs, h⟩))

/-
  A stocked project is described without asking, unless its
  node names no attributes.
-/
theorem asksInVain_projectDescription
    {c : Checksum}
    (hStocks : v.StocksProject c) :
    Run.AsksInVain (v.Lacks c) v.Upholds
      (sync.projectDescription c)
      (fun _ _ => True) := by
  have hFetch :
      Run.Asks (v.Lacks c) v.Upholds
        (sync.fetch c : SyncRun ProjectNode) 0
        (fun n s =>
          v.cache[c]? = some (.projectNode n) ∧
            v.Upholds s) := by
    have hNone :
        Run.Asks (v.Lacks c) v.Upholds
          (sync.fetch c : SyncRun ProjectNode) 0
          (fun _ _ => True) :=
      sync.asks_fetch_of_cached (fun s hS =>
        hS.kept.isCached hStocks.1)
    have hRead :
        Run.Spec v.Upholds (sync.fetch c : SyncRun ProjectNode)
          (fun n s => s.cache[c]? = some (.projectNode n))
          (fun _ => True) := by
      refine Run.Spec.failingAs ?_ (fun _ hFail => hFail)
      exact (sync.link.spec_get c).conseq (fun _ _ => trivial)
        (fun _ _ hA => hA) (fun _ h => h)
    apply ((hNone.keeping
      ((upheld hVerifies hGiven v).fetch c)).also hRead).weaken
        (fun _ h => h)
    rintro n s ⟨⟨-, hS⟩, hN⟩
    exact ⟨hS.kept.eq_of_isCached hStocks.1 hN, hS⟩
  have hTree :
      Run.Asks (v.Lacks c) v.Upholds
        (SyncRun.ofAssets (sync.link.fetchProjects [c])) 0
        (fun _ => v.Upholds) := by
    refine (sync.link.asks_fetchProjects_of_stocked
      ?_).failingAs
    intro s hS p hP
    rw [List.mem_singleton.1 hP]
    exact hStocks.later hS.kept
  unfold projectDescription
  apply (Run.AsksInVain.of_asks hFetch).bind
  intro n
  apply Run.AsksInVain.assuming
  intro hNode
  apply (asksInVain_fetch_attributes hVerifies hGiven hStocks
    hNode).bind
  intro attributes
  apply Run.AsksInVain.of_asks
  split
  · exact Run.Asks.of_pure (fun _ _ => trivial)
  · apply hTree.bindQuiet
    intro _
    apply (asks_of_silent
      (silence.cachedProject n attributes)).bind (m := 0)
    intro description
    exact Run.Asks.of_pure (fun _ _ => trivial)

/- So a stocked project is collected. -/
theorem asksInVain_collectProject
    {c : Checksum}
    (hStocks : v.StocksProject c) :
    Run.AsksInVain (v.Lacks c) v.Upholds
      (sync.collectProject c)
      (fun _ => v.Upholds) := by
  have hVain :
      Run.AsksInVain (v.Lacks c) v.Upholds
        (sync.collectProject c) (fun _ _ => True) := by
    apply (Run.AsksInVain.of_asks
      sync.asks_checkCancelled).bind
    intro _
    apply (asksInVain_projectDescription hVerifies hGiven
      hStocks).bind
    intro found
    apply Run.AsksInVain.of_asks
    apply asks_of_silent
    cases found with
    | some d => exact silence.steps.of_pure _
    | none =>
        exact silence.steps.mapping _ (silence.skippedProject c)
  exact hVain.keeping
    ((upheld hVerifies hGiven v).collectProject c)

------------------------------------------------------------
-- Whole solutions
------------------------------------------------------------

/- The trees of all projects are three requests. -/
theorem asks_fetchProjects
    (projects : List Checksum) :
    Run.Asks (fun _ => True) v.Upholds
      (SyncRun.ofAssets (sync.link.fetchProjects projects)) 3
      (fun _ s =>
        (∀ c ∈ projects, s.StocksProject c) ∧
          v.Upholds s) := by
  have hThree :
      Run.Asks (fun _ => True) v.Upholds
        (SyncRun.ofAssets (sync.link.fetchProjects projects)) 3
        (fun _ _ => True) :=
    (sync.link.asks_fetchProjects
      (sync.link.asks_prefetch (fun _ _ => trivial))
      (fun _ => trivial)).failingAs
  have hStocks :
      Run.Spec v.Upholds
        (SyncRun.ofAssets (sync.link.fetchProjects projects))
        (fun _ s => ∀ c ∈ projects, s.StocksProject c)
        (fun _ => True) := by
    refine Run.Spec.failingAs ?_ (fun _ hFail => hFail)
    exact (sync.link.spec_fetchProjects projects).conseq
      (fun _ _ => trivial) (fun _ _ h => h) (fun _ h => h)
  apply ((hThree.keeping ((upheld hVerifies hGiven v).lift
    ((upheld hVerifies hGiven v).links.fetchProjects
      projects))).also hStocks).weaken (fun _ h => h)
  rintro _ s ⟨⟨-, hS⟩, hAll⟩
  exact ⟨hAll, hS⟩

/- Everything about a solution is seven requests. -/
theorem asks_collect
    (target : Checksum) :
    Run.Asks (fun _ => True) v.Upholds (sync.collect target) 7
      (fun _ _ => True) := by
  unfold collect
  apply ((sync.asks_fetch (P := fun _ => True) trivial).keeping
    ((upheld hVerifies hGiven v).fetch target)).bind (m := 6)
  intro node
  apply Run.Asks.assuming
  intro _
  apply ((sync.asks_fetch (P := fun _ => True) trivial).keeping
    ((upheld hVerifies hGiven v).fetch _)).bind (m := 5)
  intro attributes
  apply Run.Asks.assuming
  intro _
  apply (asks_fetchProjects hVerifies hGiven _).bind (m := 2)
  intro _
  apply Run.Asks.of_each
  rintro w ⟨hStocks, hW⟩
  have hProjects :
      Run.AsksInVain (fun _ => True) w.Upholds
        (node.projects.members.mapM sync.collectProject)
        (fun _ => w.Upholds) := by
    apply Run.AsksInVain.mapM
    intro c hC
    exact (asksInVain_collectProject hVerifies hGiven
      (hStocks c hC)).mono (fun _ _ => trivial)
  have hSelf : ∀ s, s = w → w.Upholds s := by
    rintro s rfl
    exact ⟨.refl s, hW.notNull⟩
  apply (hProjects.bindAsks (n := 1) ?_ (fun _ h => h)).weaken
    hSelf (fun _ _ h => h)
  intro found
  apply (sync.asks_fetchAnalyzerReferences
    (fun _ _ => trivial)).bind (m := 1)
  intro references
  split
  · next identity text _ =>
      have hFrozen :
          Run.Asks (fun _ => True) (fun _ => True)
            (some <$> sync.fetchFrozen identity text) (1 + 0)
            (fun _ _ => True) := by
        rw [map_eq_pure_bind]
        apply (sync.asks_fetchFrozen (fun _ _ => trivial)).bind
        intro _
        exact Run.Asks.of_pure (fun _ _ => trivial)
      apply hFrozen.bind (m := 0)
      intro frozen
      exact Run.Asks.of_pure (fun _ _ => trivial)
  · refine Run.Asks.le ?_ (Nat.zero_le 1)
    exact Run.Asks.of_pure (fun _ _ => trivial)

end Steps

/-
  A build from scratch makes at most seven requests, whatever
  comes of it.  In every session that upholds what the fetch of
  the projects has cached, a project is collected without any
  request, unless its node names the null checksum as its
  attributes: that may be asked for, and the build fails.
-/
theorem createSolution_asks_seven
    {sync : Synchronizer}
    {session : Session}
    (hVerifies : sync.link.verifies = true)
    (hGiven :
      sync.link.source.GivesOnly
        {entry | entry.2.checksum ≠ Checksum.null})
    (hCached :
      session.CachesOnly
        {entry |
          entry.2.checksum = entry.1 ∧
            entry.1 ≠ Checksum.null})
    (target : Checksum) :
    let after := ((sync.createSolution target).start session).2
    (∃ made,
        after.requests = session.requests ++ made ∧
          made.length ≤ 7) ∧
      after.counts.roundTrips ≤
          session.counts.roundTrips + 7 ∧
        ∀ (projects : List Checksum) (u v w : Session),
          (sync.link.fetchProjects projects).start u =
              (.ok (), v) →
            v.Upholds w →
              ∀ c ∈ projects,
                let result := (sync.collectProject c).start w
                result.2.requests = w.requests ∨
                  (∃ node : ProjectNode,
                    w.cache[c]? = some (.projectNode node) ∧
                      node.attributes = Checksum.null) ∧
                    result.2.requests =
                        w.requests ++ [[Checksum.null]] ∧
                      ∃ e, result.1 = .error e := by
  intro after
  have hSession : session.Upholds session := by
    refine ⟨.refl session, ?_⟩
    by_contra hNull
    rw [Bool.not_eq_false, Session.isCached_iff] at hNull
    rcases hNull with ⟨a, hA⟩
    exact (hCached _ a hA).2 rfl
  have hSeven :
      Run.Asks (fun _ => True) session.Upholds
        (sync.createSolution target) (7 + 0)
        (fun _ _ => True) := by
    apply (asks_collect hVerifies hGiven target).bind
    intro build
    exact asks_of_silent (silence.ofEdit _)
  rcases hSeven.holds session hSession with
    ⟨made, hMade, hFew, -, -⟩
  refine ⟨⟨made, hMade, hFew⟩, ?_, ?_⟩
  · exact (sync.tallies_createSolution target
      session).roundTrips_le hMade hFew
  · intro projects u v w hFetch hW c hC result
    have hStocks :=
      (sync.link.spec_fetchProjects projects).of_ok hFetch c hC
    rcases (asksInVain_collectProject hVerifies hGiven
        hStocks).holds w hW with
      ⟨hQuiet, -⟩ | ⟨_, ⟨node, hNode, hNull, rfl⟩, hAsked⟩
    · exact Or.inl hQuiet
    · exact Or.inr ⟨⟨node, hW.kept c _ hNode, hNull⟩, hAsked⟩

theorem small_asks_seven :
    let after :=
      ((toSmall.createSolution Solution.small.checksum).start
        {}).2
    after.requests.length ≤ 7 ∧ after.counts.roundTrips ≤ 7 := by
  have hAll :
      ∀ entry ∈ Solution.small.publication,
        entry.2.checksum ≠ Checksum.null := by
    decide +kernel
  have hGiven :
      toSmall.link.source.GivesOnly
        {entry | entry.2.checksum ≠ Checksum.null} := by
    intro earlier request found hFound entry hEntry
    rw [← Except.ok.inj hFound] at hEntry
    exact hAll entry (List.mem_filter.1 hEntry).1
  rcases createSolution_asks_seven rfl hGiven
      Session.CachesOnly.of_empty Solution.small.checksum with
    ⟨⟨made, hMade, hFew⟩, hTrips, -⟩
  refine ⟨?_, hTrips.trans_eq (Nat.zero_add 7)⟩
  rw [hMade]
  exact hFew

/- A project node that names nothing but empty collections. -/
def hollow : ProjectNode :=
  ProjectNode.sealed
    { checksum := Checksum.null
      attributes := Checksum.null
      compilationOptions := Checksum.null
      parseOptions := Checksum.null
      documents := .ofFn (fun kind => .of (.documents kind) [])
      projectReferences := .of .projectReferences []
      metadataReferences := .of .metadataReferences []
      analyzerReferences := .of .analyzerReferences [] }

/- A link to a source that holds nothing but this node. -/
def toHollow : Synchronizer where
  link :=
    { source :=
        .ofEntries [(hollow.checksum, .projectNode hollow)] }
  settings := {}

/-
  It is not so that collecting a project never asks once the
  tree of the project was fetched.
-/
theorem collectProject_hollow_asks :
    let fetched :=
      (toHollow.link.fetchProjects [hollow.checksum]).start {}
    fetched.1.isOk = true ∧
      ((toHollow.collectProject hollow.checksum).start
          fetched.2).2.requests =
        fetched.2.requests ++ [[Checksum.null]] := by
  decide +kernel

end Synchronizer

end SnapTree
