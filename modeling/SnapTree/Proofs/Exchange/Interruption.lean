import SnapTree.Proofs.Exchange.Leads
import SnapTree.Proofs.Exchange.RoundTrip

/-
  This file proves what becomes of a computation if the caller
  gives up during some request: up to this request all goes as
  it would have gone, and with it all ends.

  Key definitions include:
    * `Run.CutShort`
    * `Link.givingUp`
    * `Link.interruption`

  Key theorems include:
    * `Run.CutShort.bind`
    * `Link.cutShort_fetchMissing`
-/

namespace SnapTree

------------------------------------------------------------
-- Runs that are cut short
------------------------------------------------------------

/- Computations that ask for nothing are made up of such. -/
def Run.quiet
    (ε : Type) : Run.Congruence ε :=
  @Run.leading ε (fun s t => t.requests = s.requests)
    (fun _ => rfl) (fun _ _ _ hST hTU => hTU.trans hST)

/-
  One run is another that is cut short at some number of
  requests: they are the same if fewer are made, and otherwise
  the one fails when so many are made.
-/
structure Run.CutShort
    {ε α : Type}
    (k : Nat)
    (e : ε)
    (r r' : Run ε α) : Prop where
  onward : ∀ s, s.requests <+: (r.start s).2.requests
  same :
    ∀ s, (r.start s).2.requests.length < k →
      r'.start s = r.start s
  cut :
    ∀ s, s.requests.length < k →
      k ≤ (r.start s).2.requests.length →
        (r'.start s).1 = .error e ∧
          (r'.start s).2.requests =
            (r.start s).2.requests.take k

namespace Run.CutShort

variable {ε δ α β : Type} {k : Nat} {e : ε}

/- Where nothing is asked for, nothing is cut short. -/
theorem of_quiet
    {r r' : Run ε α}
    (hQuiet : ∀ s, (r.start s).2.requests = s.requests)
    (hSame :
      ∀ s, s.requests.length < k → r'.start s = r.start s) :
    Run.CutShort k e r r' where
  onward s := ⟨[], by simp [hQuiet s]⟩
  same s hFew := hSame s (by rwa [hQuiet] at hFew)
  cut s hFew hMany := by
    rw [hQuiet] at hMany
    exact absurd hFew (Nat.not_lt.2 hMany)

/- What follows is done alike, or it is not done any more. -/
theorem bind
    {r r' : Run ε α}
    {f f' : α → Run ε β}
    (hFirst : Run.CutShort k e r r')
    (hThen : ∀ a, Run.CutShort k e (f a) (f' a)) :
    Run.CutShort k e (r >>= f) (r' >>= f') := by
  constructor
  · intro s
    have hHead := hFirst.onward s
    cases hRun : r.start s with
    | mk result t =>
        rw [hRun] at hHead
        cases result with
        | ok a =>
            rw [Run.start_bind_of_ok hRun]
            exact hHead.trans ((hThen a).onward t)
        | error d =>
            rw [Run.start_bind, hRun]
            exact hHead
  · intro s hFew
    have hHead := hFirst.same s
    cases hRun : r.start s with
    | mk result t =>
        rw [hRun] at hHead
        cases result with
        | ok a =>
            rw [Run.start_bind_of_ok hRun] at hFew ⊢
            have hShort : t.requests.length < k :=
              Nat.lt_of_le_of_lt ((hThen a).onward t).length_le
                hFew
            rw [Run.start_bind_of_ok (hHead hShort)]
            exact (hThen a).same t hFew
        | error d =>
            rw [Run.start_bind, hRun] at hFew
            rw [Run.start_bind, Run.start_bind, hHead hFew,
              hRun]
  · intro s hFew hMany
    have hHead := hFirst.same s
    have hCut := hFirst.cut s hFew
    cases hRun : r.start s with
    | mk result t =>
        rw [hRun] at hHead hCut
        cases result with
        | error d =>
            have hWhole : (r >>= f).start s = (.error d, t) := by
              rw [Run.start_bind, hRun]
            rw [hWhole] at hMany ⊢
            rcases hCut hMany with ⟨hError, hRequests⟩
            rw [Run.start_bind_of_error hError]
            exact ⟨rfl, hRequests⟩
        | ok a =>
            rw [Run.start_bind_of_ok hRun] at hMany ⊢
            by_cases hShort : t.requests.length < k
            · rw [Run.start_bind_of_ok (hHead hShort)]
              exact (hThen a).cut t hShort hMany
            · -- The first step was the one that was cut short.
              have hLong := Nat.not_lt.1 hShort
              rcases hCut hLong with ⟨hError, hRequests⟩
              rcases (hThen a).onward t with ⟨more, hMore⟩
              rw [Run.start_bind_of_error hError, ← hMore,
                List.take_append_of_le_length hLong]
              exact ⟨rfl, hRequests⟩

theorem failingAs
    {r r' : Run ε α}
    (f : ε → δ)
    (hCut : Run.CutShort k e r r') :
    Run.CutShort k (f e) (r.failingAs f) (r'.failingAs f) where
  onward := hCut.onward
  same s hFew := by
    rw [Run.start_failingAs, Run.start_failingAs,
      hCut.same s hFew]
  cut s hFew hMany := by
    rcases hCut.cut s hFew hMany with ⟨hError, hRequests⟩
    rw [Run.start_failingAs, hError]
    exact ⟨rfl, hRequests⟩

end Run.CutShort

/- Runs are cut short as a whole if they are step by step. -/
def Run.cutting
    (k : Nat)
    {ε : Type}
    (e : ε) : Run.Congruence ε where
  Alike := Run.CutShort k e
  of_pure _ := .of_quiet (fun _ => rfl) (fun _ _ => rfl)
  of_throw _ := .of_quiet (fun _ => rfl) (fun _ _ => rfl)
  bind := Run.CutShort.bind

------------------------------------------------------------
-- Round trips that are cut short
------------------------------------------------------------

/- Before its request, a cancellation is not noticed. -/
theorem Cancellation.not_isReached
    {k made : Nat}
    (hFew : made < k) :
    isReached (.duringRequest k) made = false := by
  simp only [isReached, Bool.and_eq_false_iff,
    decide_eq_false_iff_not]
  exact Or.inr (Nat.not_le.2 hFew)

theorem Cancellation.isReached_of_le
    {k made : Nat}
    (hSome : 0 < k)
    (hMany : k ≤ made) :
    isReached (.duringRequest k) made = true := by
  simp only [isReached, Bool.and_eq_true, decide_eq_true_eq]
  exact ⟨hSome, hMany⟩

/- The same link, but the caller gives up at another time. -/
def Link.givingUp
    (link : Link)
    (cancellation : Cancellation) : Link :=
  { link with cancellation }

namespace Link

/-
  To receive an answer is not to ask for anything, and it does
  not count as a round trip.
-/
theorem leads_receive
    (link : Link)
    (earlier : List Request)
    (request : Request) :
    Run.Leads
      (fun s t =>
        t.requests = s.requests ∧
          t.counts.roundTrips = s.counts.roundTrips)
      (link.receive earlier request) := by
  let G : Run.Congruence AssetError :=
    @Run.leading AssetError
      (fun s t =>
        t.requests = s.requests ∧
          t.counts.roundTrips = s.counts.roundTrips)
      (fun _ => ⟨rfl, rfl⟩)
      (fun _ _ _ hST hTU =>
        ⟨hTU.1.trans hST.1, hTU.2.trans hST.2⟩)
  change G.Alike (link.receive earlier request)
    (link.receive earlier request)
  unfold receive
  apply G.bind (G.ofExcept _)
  intro found
  apply G.bind
  · exact fun _ => ⟨rfl, rfl⟩
  intro _
  apply G.bind
  · apply G.forM
    intro answer _
    unfold accept
    dsimp only
    split
    · exact fun _ => ⟨rfl, rfl⟩
    · exact fun _ => ⟨rfl, rfl⟩
  intro _
  apply G.bind
  · exact fun _ => ⟨rfl, rfl⟩
  intro t
  split
  · exact fun _ => ⟨rfl, rfl⟩
  · exact fun _ => ⟨rfl, rfl⟩

theorem quiet_receive
    (link : Link)
    (earlier : List Request)
    (request : Request) :
    (Run.quiet AssetError).Alike (link.receive earlier request)
      (link.receive earlier request) :=
  fun s => (link.leads_receive earlier request s).1

variable {link : Link} {k : Nat}

/- A round trip in whose course the caller gives up. -/
theorem cutShort_fetchMissing
    (hNever : link.cancellation = .never)
    (request : Request) :
    Run.CutShort k .cancelled (link.fetchMissing request)
      ((link.givingUp (.duringRequest k)).fetchMissing
        request) := by
  have hWhole :
      ∀ s, (link.fetchMissing request).start s =
        (link.receive s.requests request).start
          (s.asking request) := by
    intro s
    rw [start_fetchMissing, hNever]
    rfl
  have hMade :
      ∀ s, ((link.fetchMissing request).start s).2.requests =
        s.requests ++ [request] := by
    intro s
    rw [hWhole]
    exact link.quiet_receive s.requests request _
  constructor
  · intro s
    rw [hMade]
    exact List.prefix_append _ _
  · intro s hFew
    rw [hMade, List.length_append, List.length_singleton] at hFew
    have hFirst := Cancellation.not_isReached (Nat.lt_of_succ_lt hFew)
    have hThen := Cancellation.not_isReached hFew
    rw [hWhole, start_fetchMissing]
    simp only [givingUp, hFirst, hThen]
    rfl
  · intro s hFew hMany
    rw [hMade, List.length_append, List.length_singleton] at hMany
    have hFirst := Cancellation.not_isReached hFew
    have hThen :=
      Cancellation.isReached_of_le
        (Nat.lt_of_le_of_lt (Nat.zero_le _) hFew) hMany
    have hAll :
        (s.requests ++ [request]).take k =
          s.requests ++ [request] := by
      apply List.take_of_length_le
      rw [List.length_append, List.length_singleton]
      exact hFew
    rw [hMade, hAll, start_fetchMissing]
    simp only [givingUp, hFirst, hThen]
    exact ⟨rfl, rfl⟩

theorem cutShort_checkCancelled
    (hNever : link.cancellation = .never) :
    Run.CutShort k .cancelled link.checkCancelled
      (link.givingUp (.duringRequest k)).checkCancelled := by
  have hWhole :
      ∀ s, link.checkCancelled.start s = (.ok (), s) := by
    intro s
    rw [start_checkCancelled, hNever]
    rfl
  apply Run.CutShort.of_quiet
  · intro s
    rw [hWhole]
  · intro s hFew
    rw [hWhole, start_checkCancelled]
    simp only [givingUp, Cancellation.not_isReached hFew]
    rfl

/- All ways of asking are cut short by giving up. -/
def interruption
    (hNever : link.cancellation = .never) :
    link.Comparison (link.givingUp (.duringRequest k)) :=
  .ofRoundTrips (Run.cutting k .cancelled)
    (.of_quiet (fun _ => rfl) (fun _ _ => rfl))
    (cutShort_fetchMissing hNever)
    (fun _ _ => .of_quiet (fun _ => rfl) (fun _ _ => rfl))
    (cutShort_checkCancelled hNever)

end Link

end SnapTree
