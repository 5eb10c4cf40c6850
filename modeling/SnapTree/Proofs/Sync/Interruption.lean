import SnapTree.Proofs.Exchange.Interruption
import SnapTree.Proofs.Sync.Agreement

/-
  This file proves that synchronizations which the caller gives
  up leave nothing behind that would show later.  Such a run
  makes no request after the one at which it was given up, no
  scratch set stays in use, all that is cached was published,
  and whoever tries again gets what a receiver gets who has
  tried nothing before.

  Key definitions include:
    * `Synchronizer.givingUp`
    * `Solution.published`
    * `Synchronizer.Attempt`

  Key theorems include:
    * `Synchronizer.cutShort_synchronizeWithReport`
    * `Synchronizer.balanced_of_attempts`
    * `Synchronizer.attempts_leave_nothing`
-/

namespace SnapTree

namespace Synchronizer

------------------------------------------------------------
-- Giving up
------------------------------------------------------------

/- The same, but the caller gives up at another time. -/
def givingUp
    (sync : Synchronizer)
    (cancellation : Cancellation) : Synchronizer :=
  { sync with link := sync.link.givingUp cancellation }

theorem settings_givingUp
    (sync : Synchronizer)
    (cancellation : Cancellation) :
    sync.settings = (sync.givingUp cancellation).settings :=
  rfl

/- A synchronization is cut short by giving up. -/
def interruption
    {sync : Synchronizer}
    (hNever : sync.link.cancellation = .never)
    (k : Nat) :
    sync.Comparison (sync.givingUp (.duringRequest k)) :=
  .ofSettings (sync.settings_givingUp _)
    (Link.interruption hNever)
    (Run.cutting k .cancelled)
    (Run.CutShort.failingAs SyncError.ofAsset)
    (fun _ _ => .of_quiet (fun _ => rfl) (fun _ _ => rfl))
    (fun _ => .of_quiet (fun _ => rfl) (fun _ _ => rfl))

theorem cutShort_synchronizeWithReport
    {sync : Synchronizer}
    (hNever : sync.link.cancellation = .never)
    (k : Nat)
    (baseline : Solution)
    (target : Checksum) :
    Run.CutShort k .cancelled
      (sync.synchronizeWithReport baseline target)
      ((sync.givingUp (.duringRequest k)).synchronizeWithReport
        baseline target) :=
  (interruption hNever k).synchronizeWithReport
    (.of_quiet (fun _ => rfl) (fun _ _ => rfl)) baseline target

/- Whoever has given up before asks for nothing. -/
theorem start_givingUp_before
    (sync : Synchronizer)
    (baseline : Solution)
    (target : Checksum)
    (s : Session) :
    ((sync.givingUp .before).synchronizeWithReport baseline
        target).start s =
      (.error .cancelled, s) :=
  rfl

end Synchronizer

------------------------------------------------------------
-- Histories of attempts
------------------------------------------------------------

/- All that publishing reachable solutions puts anywhere. -/
def Solution.published : Set (Checksum × Asset) :=
  {entry | ∃ u : Solution, u.Reachable ∧ entry ∈ u.publication}

/- A session in which the next call begins. -/
def Session.next
    (s : Session) : Session :=
  { s with requests := [] }

/- Links leave scratch sets alone. -/
theorem Link.carries_balanced
    (link : Link) :
    link.Carries (fun s t => s.pool.Balanced t.pool) where
  trans hFirst hSecond := hFirst.trans hSecond
  aside _ hPool := by
    rw [hPool]
    exact .refl _
  keep _ _ _ _ := .refl _

namespace Synchronizer

/-
  A synchronization leads along every relation that its link
  leads along, if taking differences does.
-/
theorem leads_synchronizeWithReport
    {sync : Synchronizer}
    {rel : Session → Session → Prop}
    (hCarries : sync.link.Carries rel)
    (hPool :
      ∀ (s : Session) (old new : List Checksum),
        rel s
          { s with
            pool :=
              (s.pool.diff old new).2.releaseDiff
                (s.pool.diff old new).1 })
    (baseline : Solution)
    (target : Checksum) :
    Run.Leads rel (sync.synchronizeWithReport baseline target) :=
  (carried hCarries hPool).synchronizeWithReport hCarries.refl
    baseline target

/- All scratch sets that a synchronization takes come back. -/
theorem balanced_synchronizeWithReport
    (sync : Synchronizer)
    (baseline : Solution)
    (target : Checksum) :
    Run.Leads (fun s t => s.pool.Balanced t.pool)
      (sync.synchronizeWithReport baseline target) :=
  leads_synchronizeWithReport sync.link.carries_balanced
    (fun s old new =>
      s.pool.balanced_releaseDiff_diff old new _)
    baseline target

/- All that is cached then was cached before or came in. -/
theorem cachesOnly_synchronizeWithReport
    {sync : Synchronizer}
    {entries : Set (Checksum × Asset)}
    (hSource : sync.link.source.GivesOnly entries)
    (baseline : Solution)
    (target : Checksum) :
    Run.Leads
      (fun s t => s.CachesOnly entries → t.CachesOnly entries)
      (sync.synchronizeWithReport baseline target) :=
  leads_synchronizeWithReport (Link.carries_cachesOnly hSource)
    (fun _ _ _ => id) baseline target

/-
  An attempt to synchronize leads from one session to another,
  however it ends.  Each attempt may find another source and be
  given up at any time, as long as sources give nothing but
  some entries.
-/
inductive Attempt
    (settings : SyncSettings)
    (entries : Set (Checksum × Asset)) :
    Session → Session → Prop where
  | made
      (s : Session)
      (link : Link)
      (hSource : link.source.GivesOnly entries)
      (baseline : Solution)
      (target : Checksum) :
      Attempt settings entries s
        ((synchronizeWithReport ⟨link, settings⟩ baseline
          target).start s.next).2

variable
  {settings : SyncSettings}
  {entries : Set (Checksum × Asset)}
  {s t : Session}

/- An attempt keeps the pool in balance. -/
theorem Attempt.balanced
    (hAttempt : Attempt settings entries s t) :
    s.pool.Balanced t.pool := by
  cases hAttempt with
  | made link hSource baseline target =>
      exact balanced_synchronizeWithReport ⟨link, settings⟩
        baseline target s.next

/- An attempt caches nothing but what its source may give. -/
theorem Attempt.cachesOnly
    (hAttempt : Attempt settings entries s t)
    (hCaches : s.CachesOnly entries) :
    t.CachesOnly entries := by
  cases hAttempt with
  | made link hSource baseline target =>
      have hLeads :
          Run.Leads
            (fun s t =>
              s.CachesOnly entries → t.CachesOnly entries)
            (synchronizeWithReport ⟨link, settings⟩ baseline
              target) :=
        cachesOnly_synchronizeWithReport hSource baseline target
      exact hLeads s.next hCaches

/- Nor does any number of them. -/
theorem cachesOnly_of_attempts
    (hAttempts :
      Relation.ReflTransGen (Attempt settings entries) s t)
    (hCaches : s.CachesOnly entries) :
    t.CachesOnly entries := by
  induction hAttempts with
  | refl => exact hCaches
  | tail _ hAttempt ih => exact hAttempt.cachesOnly ih

theorem balanced_of_attempts
    (hAttempts :
      Relation.ReflTransGen (Attempt settings entries) s t) :
    s.pool.Balanced t.pool := by
  induction hAttempts with
  | refl => exact .refl _
  | tail _ hAttempt ih => exact ih.trans hAttempt.balanced

------------------------------------------------------------
-- Trying again
------------------------------------------------------------

variable {sync : Synchronizer} {session : Session}

/- After any attempts, a target may be at hand. -/
theorem atHand_of_attempts
    {s t : Solution}
    (hNever : sync.link.cancellation = .never)
    (hHolds : sync.link.source.Holds t.publication)
    (hAttempts :
      Relation.ReflTransGen
        (Attempt sync.settings Solution.published) {} session)
    (hFaithful :
      Faithful
        {a | a ∈ s.assets ∨ a ∈ t.assets ∨
          ∃ c : Checksum, session.cache[c]? = some a}) :
    sync.AtHand s t session.next where
  never := hNever
  holds := hHolds
  cache := cachesOnly_of_attempts hAttempts .of_empty
  pool :=
    (balanced_of_attempts hAttempts).reachable
      (.ofMaxRetained _)
  faithful := hFaithful

/-
  After any attempts, with any sources that give nothing but
  what was published, whatever came of them: a run during which
  the caller gives up fails with the request at which this
  happens, and makes no other; no scratch set stays in use, and
  all that is cached suits its checksum; and a run that may
  take its course gives and reports what it gives and reports
  in a new session, apart from what was fetched.
-/
theorem attempts_leave_nothing
    (hNever : sync.link.cancellation = .never)
    (hAttempts :
      Relation.ReflTransGen
        (Attempt sync.settings Solution.published) {} session) :
    (∀ (baseline : Solution) (target : Checksum),
      let whole :=
        (sync.synchronizeWithReport baseline target).start
          session.next
      ((sync.givingUp .before).synchronizeWithReport baseline
          target).start session.next =
        (.error .cancelled, session.next) ∧
      ∀ k, 0 < k →
        let cut :=
          ((sync.givingUp (.duringRequest k)).synchronizeWithReport
            baseline target).start session.next
        (whole.2.requests.length < k → cut = whole) ∧
          (k ≤ whole.2.requests.length →
            cut.1 = .error .cancelled ∧
              cut.2.requests = whole.2.requests.take k)) ∧
    (∀ after,
      Attempt sync.settings Solution.published session after →
        after.pool.outstanding = session.pool.outstanding ∧
          ∀ (c : Checksum) (a : Asset),
            after.cache[c]? = some a → a.checksum = c) ∧
    ∀ s t : Solution,
      s.Reachable → t.Reachable → s.id = t.id →
        s.attributes.filePath = t.attributes.filePath →
          s.KeepsFields t →
            sync.link.source.Holds t.publication →
              Faithful
                {a | a ∈ s.assets ∨ a ∈ t.assets ∨
                  ∃ c : Checksum, session.cache[c]? = some a} →
                ∃ (o o' : SyncOutcome) (after after' : Session),
                  (sync.synchronizeWithReport s
                      t.checksum).start session.next =
                      (.ok o, after) ∧
                    (sync.synchronizeWithReport s
                        t.checksum).start {} =
                        (.ok o', after') ∧
                      o.solution = o'.solution ∧
                        { o.report with fetch := {} } =
                          { o'.report with fetch := {} } := by
  refine ⟨?_, ?_, ?_⟩
  · intro baseline target whole
    refine ⟨sync.start_givingUp_before baseline target _, ?_⟩
    intro k hSome cut
    have hCut :=
      cutShort_synchronizeWithReport hNever k baseline target
    exact ⟨hCut.same session.next, hCut.cut session.next hSome⟩
  · intro after hAttempt
    refine ⟨hAttempt.balanced.outstanding, ?_⟩
    intro c a hCached
    have hCaches :=
      cachesOnly_of_attempts (hAttempts.tail hAttempt) .of_empty
    rcases hCaches c a hCached with ⟨u, -, hMem⟩
    exact (Solution.mem_of_mem_publication hMem).2
  · intro s t hS hT hId hPath hKeeps hHolds hFaithful
    have hLineage : s.sameLineage t.attributes = true :=
      Solution.sameLineage_eq_true_iff.2 ⟨hId, hPath⟩
    have hAtHand :=
      atHand_of_attempts hNever hHolds hAttempts hFaithful
    have hFresh : sync.AtHand s t {} := by
      apply atHand_of_attempts hNever hHolds .refl
      apply hFaithful.mono
      rintro a (hA | hA | ⟨c, hCached⟩)
      · exact Or.inl hA
      · exact Or.inr (Or.inl hA)
      · rw [Std.ExtTreeMap.getElem?_empty] at hCached
        cases hCached
    rcases hAtHand.exists_run hS hT hLineage hKeeps with
      ⟨f, after, hRun⟩
    rcases hFresh.exists_run hS hT hLineage hKeeps with
      ⟨f', after', hRun'⟩
    exact ⟨_, _, after, after', hRun, hRun', rfl, rfl⟩

/- After a run that was given up at its second request. -/
theorem bare_retries_small :
    let interrupted :=
      (((toSmall.givingUp (.duringRequest 2)).synchronizeWithReport
        Solution.bare Solution.small.checksum).start {}).2
    ∃ (o o' : SyncOutcome) (after after' : Session),
      (toSmall.synchronizeWithReport Solution.bare
          Solution.small.checksum).start interrupted.next =
          (.ok o, after) ∧
        (toSmall.synchronizeWithReport Solution.bare
            Solution.small.checksum).start {} =
            (.ok o', after') ∧
          o.solution = o'.solution := by
  intro interrupted
  have hGives :
      (toSmall.link.givingUp (.duringRequest 2)).source.GivesOnly
        {entry | entry ∈ Solution.small.publication} :=
    Source.givesOnly_ofEntries _
  have hPublished :
      {entry | entry ∈ Solution.small.publication} ⊆
        Solution.published :=
    fun entry hEntry =>
      ⟨Solution.small, Solution.reachable_small, hEntry⟩
  have hAttempt :
      ∀ {entries : Set (Checksum × Asset)},
        (toSmall.link.givingUp
          (.duringRequest 2)).source.GivesOnly entries →
          Attempt toSmall.settings entries {} interrupted :=
    fun hSource =>
      .made {} _ hSource Solution.bare Solution.small.checksum
  have hCaches := (hAttempt hGives).cachesOnly .of_empty
  have hFaithful :
      Faithful
        {a | a ∈ Solution.bare.assets ∨
          a ∈ Solution.small.assets ∨
            ∃ c : Checksum, interrupted.cache[c]? = some a} := by
    apply Solution.faithful_small.mono
    rintro a (hA | hA | ⟨c, hCached⟩)
    · exact Or.inl hA
    · exact Or.inr hA
    · exact Or.inr (Solution.mem_of_mem_publication
        (hCaches c a hCached)).1
  have hNever : toSmall.link.cancellation = .never := rfl
  rcases (attempts_leave_nothing hNever
      (.single (hAttempt (hGives.mono hPublished)))).2.2
      Solution.bare Solution.small Solution.reachable_bare
      Solution.reachable_small (by decide +kernel)
      (by decide +kernel) keepsFields_small
      (Source.holds_ofEntries _) hFaithful
    with ⟨o, o', after, after', hRun, hRun', hSame, -⟩
  exact ⟨o, o', after, after', hRun, hRun', hSame⟩

end Synchronizer

end SnapTree
