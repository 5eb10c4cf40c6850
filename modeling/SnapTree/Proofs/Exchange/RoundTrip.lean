import SnapTree.Exchange.Provider
import SnapTree.Proofs.Exchange.RunSpec

/-
  This file takes a round trip apart: the caller may give up
  before it or in the course of it, and otherwise an answer is
  received, of which nothing is kept but what is accepted.

  Key theorems include:
    * `Link.start_fetchMissing`
    * `Link.spec_roundTrip`
-/

namespace SnapTree

/- One asset kept is one more asset cached. -/
theorem Session.isCached_keep
    (s : Session)
    (c d : Checksum)
    (a : Asset) :
    (s.keep c a).isCached d = true ↔
      s.isCached d = true ∨ d = c := by
  unfold isCached keep
  rw [Std.ExtTreeMap.contains_insertIfNew, Bool.or_eq_true,
    beq_iff_eq, Std.LawfulEqOrd.compare_eq_iff_eq, or_comm,
    @eq_comm _ c d]

namespace Link

theorem start_checkCancelled
    (link : Link)
    (s : Session) :
    link.checkCancelled.start s =
      if link.cancellation.isReached s.requests.length then
        (.error .cancelled, s)
      else (.ok (), s) := by
  unfold checkCancelled
  rw [Run.start_bind, Run.start_get]
  dsimp only
  split
  · rfl
  · rfl

/- A round trip asks, unless the caller gives up, and receives. -/
theorem start_fetchMissing
    (link : Link)
    (request : Request)
    (s : Session) :
    (link.fetchMissing request).start s =
      if link.cancellation.isReached s.requests.length then
        (.error .cancelled, s)
      else if
        link.cancellation.isReached
          (s.requests.length + 1) then
        (.error .cancelled, s.asking request)
      else
        (link.receive s.requests request).start
          (s.asking request) := by
  unfold fetchMissing
  cases hNow :
      link.cancellation.isReached s.requests.length with
  | true =>
      rw [Run.start_bind, start_checkCancelled, hNow]
      rfl
  | false =>
      have hFirst : link.checkCancelled.start s = (.ok (), s) := by
        rw [start_checkCancelled, hNow]
        rfl
      rw [Run.start_bind_of_ok hFirst,
        Run.start_bind_of_ok (Run.start_get s)]
      dsimp only
      rw [Run.start_bind_of_ok (Run.start_modify _ s)]
      change ((link.checkCancelled >>= fun _ =>
        link.receive s.requests request).start
          (s.asking request)) = _
      have hLength :
          (s.asking request).requests.length =
            s.requests.length + 1 :=
        List.length_append
      rw [Run.start_bind, start_checkCancelled, hLength]
      cases link.cancellation.isReached
          (s.requests.length + 1) with
      | true => rfl
      | false => rfl

/- Whether the caller has given up is found out in passing. -/
theorem spec_checkCancelled
    (link : Link)
    (kept : Session → Prop) :
    Run.Spec kept link.checkCancelled (fun _ => kept)
      (fun _ => True) := by
  unfold checkCancelled
  apply Run.Spec.of_get.bind
  intro s
  split
  · exact Run.Spec.of_throw trivial
  · apply Run.Spec.of_pure
    rintro t ⟨rfl, hKept⟩
    exact hKept

/- Answers that are all accepted are cached, and no others. -/
theorem spec_forM_accept
    (link : Link)
    (s : Session)
    (found : List (Checksum × Asset)) :
    Run.Spec (fun t => t = s) (found.forM link.accept)
      (fun _ t =>
        t.requests = s.requests ∧
          ∀ c,
            t.isCached c = true ↔
              s.isCached c = true ∨ c ∈ found.map Prod.fst)
      (fun _ => True) := by
  apply (Run.Spec.forM
    (fun done t =>
      t.requests = s.requests ∧
        ∀ c,
          t.isCached c = true ↔
            s.isCached c = true ∨ c ∈ done.map Prod.fst)
    ?_).conseq ?_ (fun _ _ h => h) (fun _ h => h)
  · intro done answer rest _
    unfold accept
    dsimp only
    split
    · exact ⟨fun _ _ => trivial⟩
    · apply Run.Spec.of_modify
      rintro t ⟨hRequests, hCached⟩
      refine ⟨hRequests, ?_⟩
      intro c
      rw [Session.isCached_keep, hCached, List.map_append,
        List.mem_append, or_assoc]
      simp
  · rintro t rfl
    exact ⟨rfl, by simp⟩

/- What is received is cached from then on. -/
theorem spec_receive
    (link : Link)
    (s : Session)
    (earlier : List Request)
    (request : Request) :
    Run.Spec (fun t => t = s) (link.receive earlier request)
      (fun _ t =>
        t.requests = s.requests ∧
          ∃ found,
            link.source earlier request = .ok found ∧
              ∀ c,
                t.isCached c = true ↔
                  s.isCached c = true ∨
                    c ∈ found.map Prod.fst)
      (fun _ => True) := by
  unfold receive
  cases hSource : link.source earlier request with
  | error e => exact Run.Spec.of_error trivial
  | ok found =>
      rw [Run.ofExcept, pure_bind]
      apply Run.Spec.modify_bind
      apply Run.Spec.of_each
      rintro _ ⟨_, rfl, rfl⟩
      apply (link.spec_forM_accept _ found).bind
      intro _
      apply Run.Spec.of_get.bind
      intro t
      cases request.find? (fun c => !t.isCached c) with
      | some c => exact Run.Spec.of_throw trivial
      | none =>
          apply Run.Spec.of_pure
          rintro _ ⟨rfl, hRequests, hCached⟩
          exact ⟨hRequests, found, rfl, hCached⟩

/-
  A round trip that ends well has made one request, and what
  the source answered is cached from then on.
-/
theorem spec_roundTrip
    (link : Link)
    (s : Session)
    (request : Request) :
    Run.Spec (fun t => t = s) (link.fetchMissing request)
      (fun _ t =>
        t.requests = s.requests ++ [request] ∧
          ∃ found,
            link.source s.requests request = .ok found ∧
              ∀ c,
                t.isCached c = true ↔
                  s.isCached c = true ∨
                    c ∈ found.map Prod.fst)
      (fun _ => True) := by
  constructor
  rintro _ rfl
  rw [start_fetchMissing]
  cases link.cancellation.isReached _ with
  | true => trivial
  | false =>
      cases link.cancellation.isReached _ with
      | true => trivial
      | false => exact (link.spec_receive _ _ request).holds _ rfl

end Link

end SnapTree
