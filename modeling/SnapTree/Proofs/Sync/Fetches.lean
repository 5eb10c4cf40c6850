import SnapTree.Proofs.Exchange.Journal
import SnapTree.Proofs.Sync.Convergence

/-
  This file proves what a synchronization asks its source for,
  and what comes of it if the source does not hold everything.
  Only what the baseline needs is asked for, and at most once;
  if some of it is not there, the synchronization says so or
  ends as if it were.

  Key definitions include:
    * `Synchronizer.askingOf`

  Key theorems include:
    * `Synchronizer.synchronize_requests`
    * `Synchronizer.synchronize_incomplete`
-/

namespace SnapTree

namespace Synchronizer

variable
  {sync : Synchronizer}
  {s t : Solution}
  {session : Session}

------------------------------------------------------------
-- Requests
------------------------------------------------------------

/-
  A synchronization with a target at hand asks for assets that
  the baseline needs, each of them once, and for none that was
  cached at first or given before.
-/
theorem synchronize_requests
    (hS : s.Reachable)
    (hT : t.Reachable)
    (hId : s.id = t.id)
    (hPath : s.attributes.filePath = t.attributes.filePath)
    (hKeeps : s.KeepsFields t)
    (hAtHand : sync.AtHand s t session)
    (hNone : session.requests = []) :
    ∃ (x : Solution) (after : Session),
      (sync.synchronize s t.checksum).start session =
          (.ok x, after) ∧
        (∀ c : Checksum,
          after.isCached c = true ↔
            session.HoldsAfter sync.link.source after.requests
              c) ∧
          ∀ (done : List Request) (request : Request)
            (rest : List Request),
            after.requests = done ++ request :: rest →
              request.Nodup ∧
                ∀ c ∈ request,
                  ¬session.HoldsAfter sync.link.source done c ∧
                    c ∉ done.flatten ∧
                      ∃ a, s.Needs t a ∧ a.checksum = c := by
  have hLineage : s.sameLineage t.attributes = true :=
    Solution.sameLineage_eq_true_iff.2 ⟨hId, hPath⟩
  let S : Supply sync.link :=
    (hAtHand.serving.narrowed {a | s.Needs t a}
      (fun _ hA => hA.mem_assets)).supply.journaled session
  have hBring :=
    S.gives_bring_or_lacks (K := ∅) hS hT
      (hAtHand.comparable hS hT) (fun _ hA => hA)
  have hRun :=
    (Synchronizer.spec_synchronize hBring).holds session
      ⟨hAtHand.knows, .of_start hNone⟩
  revert hRun
  cases (sync.synchronize s t.checksum).start session with
  | mk result after =>
      cases result with
      | ok x =>
          rintro ⟨o, ⟨-, -, hJournal⟩, -⟩
          exact ⟨x, after, rfl, hJournal.accounts,
            hJournal.fresh⟩
      | error e =>
          rintro (hRefuses | ⟨cause, ⟨a, hA, hNot, -⟩, -⟩)
          · exact absurd hRefuses
              (Solution.not_refuses hLineage hKeeps e)
          · exact absurd hA.mem_assets hNot

/- The root of the target is cached at first. -/
theorem small_requests_edited :
    ∃ (x : Solution) (after : Session),
      (toEdited.synchronize Solution.small
          Solution.edited.checksum).start rooted =
        (.ok x, after) ∧
        ∀ c ∈ after.requests.flatten,
          c ≠ Solution.edited.checksum ∧
            ∃ a, Solution.small.Needs Solution.edited a ∧
              a.checksum = c := by
  rcases synchronize_requests Solution.reachable_small
      Solution.reachable_edited (by decide +kernel)
      (by decide +kernel) keepsFields_edited atHand_rooted rfl
    with ⟨x, after, hRun, -, hRequests⟩
  refine ⟨x, after, hRun, ?_⟩
  intro c hC
  rcases List.mem_flatten.1 hC with ⟨request, hMem, hIn⟩
  rcases List.append_of_mem hMem with ⟨done, rest, hSplit⟩
  rcases (hRequests done request rest hSplit).2 c hIn with
    ⟨hNew, -, hNeeded⟩
  refine ⟨?_, hNeeded⟩
  rintro rfl
  exact hNew (Or.inl
    ((Session.isCached_keep _ _ _ _).2 (Or.inr rfl)))

------------------------------------------------------------
-- Incomplete sources
------------------------------------------------------------

/- The same with another source. -/
def askingOf
    (sync : Synchronizer)
    (source : Source) : Synchronizer :=
  { sync with link := { sync.link with source } }

/-
  A source that holds some of what was published can be asked
  for all of it.
-/
def AtHand.incomplete
    (hAtHand : sync.AtHand s t session)
    {held : List (Checksum × Asset)}
    (hHeld : ∀ entry ∈ held, entry ∈ t.publication)
    {source : Source}
    (hServes :
      source.Serves {c | ∃ a, (c, a) ∈ t.publication}
        {entry | entry ∈ held}) :
    Serving (sync.askingOf source).link where
  assets := hAtHand.serving.assets
  wanted := {a | a ∈ t.assets}
  held := {a | (a.checksum, a) ∈ held}
  faithful := hAtHand.faithful
  wanted_mem := hAtHand.serving.wanted_mem
  held_mem a hA :=
    hAtHand.serving.held_mem a
      (Solution.mem_of_mem_publication (hHeld _ hA)).1
  never := hAtHand.never
  serves := by
    intro earlier request hRequest
    rcases hServes earlier request (by
        intro c hC
        rcases hRequest c hC with ⟨a, hA, hChecksum⟩
        exact ⟨a, (Solution.mem_publication_iff
          hAtHand.faithful (fun _ hA => Or.inr (Or.inl hA))).2
            ⟨hA, hChecksum⟩⟩)
      with ⟨found, hSource, hFound⟩
    refine ⟨found, hSource, ?_⟩
    rintro ⟨c, a⟩
    rw [hFound]
    apply and_congr_left
    intro _
    constructor
    · intro hMem
      rcases Solution.mem_of_mem_publication (hHeld _ hMem) with
        ⟨-, hChecksum⟩
      refine ⟨?_, hChecksum⟩
      change (a.checksum, a) ∈ held
      rw [hChecksum]
      exact hMem
    · rintro ⟨hMem, hChecksum⟩
      dsimp only at hMem hChecksum
      rw [← hChecksum]
      exact hMem

/-
  Over a source that holds only some of what was published, a
  synchronization has the result that it has over a complete
  one, or it tells an asset of the target that is missing.
-/
theorem synchronize_incomplete
    (hS : s.Reachable)
    (hT : t.Reachable)
    (hId : s.id = t.id)
    (hPath : s.attributes.filePath = t.attributes.filePath)
    (hKeeps : s.KeepsFields t)
    (hAtHand : sync.AtHand s t session)
    {held : List (Checksum × Asset)}
    (hHeld : ∀ entry ∈ held, entry ∈ t.publication)
    {source : Source}
    (hServes :
      source.Serves {c | ∃ a, (c, a) ∈ t.publication}
        {entry | entry ∈ held}) :
    let whole := ((sync.synchronize s t.checksum).start session).1
    let result :=
      (((sync.askingOf source).synchronize s t.checksum).start
        session).1
    (result = whole ∧ ∃ x, whole = .ok x) ∨
      ∃ (c : Checksum) (a : Asset),
        (c, a) ∈ t.publication ∧ (∀ b, (c, b) ∉ held) ∧
          result =
            .error
              (.protocolViolation (.unsatisfied (.missing c))) := by
  intro whole result
  have hLineage : s.sameLineage t.attributes = true :=
    Solution.sameLineage_eq_true_iff.2 ⟨hId, hPath⟩
  have hWhole : whole = .ok (sync.attained s t) := by
    rcases hAtHand.exists_run hS hT hLineage hKeeps with
      ⟨f, after, hRun⟩
    simp only [whole, synchronize, Run.start_bind, hRun]
    rfl
  have hBring :=
    (hAtHand.incomplete hHeld hServes).supply.gives_bring_or_lacks
      (K := ∅) hS hT (hAtHand.comparable hS hT)
      (fun _ hA => hA.mem_assets)
  have hRun :=
    (Synchronizer.spec_synchronize hBring).holds session
      hAtHand.knows
  have hResult :
      result =
        (((sync.askingOf source).synchronize s t.checksum).start
          session).1 :=
    rfl
  revert hRun hResult
  cases ((sync.askingOf source).synchronize s t.checksum).start
      session with
  | mk r after =>
      cases r with
      | ok x =>
          rintro ⟨o, ⟨⟨-, rfl⟩, -⟩, rfl⟩ hResult
          exact Or.inl ⟨hResult.trans hWhole.symm, _, hWhole⟩
      | error e =>
          rintro (hRefuses | ⟨cause, ⟨a, hA, hNot, rfl⟩, rfl⟩)
            hResult
          · exact absurd hRefuses
              (Solution.not_refuses hLineage hKeeps e)
          · have hMem := (Solution.mem_publication_iff
              hAtHand.faithful
              (fun _ hA => Or.inr (Or.inl hA))).2 ⟨hA, rfl⟩
            refine Or.inr ⟨a.checksum, a, hMem, ?_, hResult⟩
            intro b hB
            have hSame := List.inj_on_of_nodup_map
              t.nodup_publication hMem (hHeld _ hB) rfl
            rw [← hSame] at hB
            exact hNot hB

/- A store that has lost the new text of the document. -/
theorem small_incomplete_edited :
    let lost := AssetValue.checksum "class B;"
    let held :=
      Solution.edited.publication.filter
        (fun entry => entry.1 ≠ lost)
    (((toEdited.askingOf (.ofEntries held)).synchronize
        Solution.small Solution.edited.checksum).start {}).1 =
      .error (.protocolViolation (.unsatisfied (.missing lost))) := by
  intro lost held
  have hFails :
      (((toEdited.askingOf (.ofEntries held)).synchronize
        Solution.small
        Solution.edited.checksum).start {}).1.isOk = false := by
    decide +kernel
  rcases synchronize_incomplete Solution.reachable_small
      Solution.reachable_edited (by decide +kernel)
      (by decide +kernel) keepsFields_edited atHand_edited
      (fun _ hMem => List.mem_of_mem_filter hMem)
      (Source.serves_ofEntries held _) with
    ⟨hSame, x, hOk⟩ | ⟨c, a, hMem, hNone, hResult⟩
  · rw [hSame, hOk] at hFails
    cases hFails
  · have hLost : c = lost := by
      by_contra hOther
      exact hNone a (List.mem_filter.2
        ⟨hMem, decide_eq_true hOther⟩)
    rw [hResult, hLost]

end Synchronizer

end SnapTree
