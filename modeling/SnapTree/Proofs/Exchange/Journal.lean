import SnapTree.Proofs.Exchange.Integrity
import SnapTree.Proofs.Exchange.RoundTrip
import SnapTree.Proofs.Exchange.Serving

/-
  This file proves what a receiver has asked for at any time:
  nothing that was cached when it asked, nothing twice, and
  nothing but what was wanted.

  Key definitions include:
    * `Supply.guarded`
    * `Source.Gave`
    * `Session.HoldsAfter`
    * `Session.Journal`
    * `Supply.journaled`

  Key theorems include:
    * `Source.gave_append_iff`
    * `Session.Journal.extend`
-/

namespace SnapTree

------------------------------------------------------------
-- Journals
------------------------------------------------------------

/- The last request of some, or one before it. -/
theorem eq_or_exists_of_append_singleton
    {α : Type}
    {xs ys zs : List α}
    {x y : α}
    (hSplit : xs ++ [x] = ys ++ y :: zs) :
    (ys = xs ∧ y = x) ∨ ∃ rest, xs = ys ++ y :: rest := by
  rcases zs.eq_nil_or_concat with rfl | ⟨rest, z, rfl⟩
  · rcases List.append_inj' hSplit rfl with ⟨rfl, hLast⟩
    exact Or.inl ⟨rfl, (List.singleton_inj.1 hLast).symm⟩
  · rw [List.concat_eq_append, ← List.cons_append,
      ← List.append_assoc] at hSplit
    exact Or.inr ⟨rest, (List.append_inj' hSplit rfl).1⟩

/- What a source gave in answer to some requests. -/
def Source.Gave
    (source : Source)
    (done : List Request)
    (c : Checksum) : Prop :=
  ∃ earlier request later found,
    done = earlier ++ request :: later ∧
      source earlier request = .ok found ∧
        c ∈ found.map Prod.fst

/- One answer more. -/
theorem Source.gave_append_iff
    {source : Source}
    {done : List Request}
    {request : Request}
    {found : List (Checksum × Asset)}
    (hSource : source done request = .ok found)
    (c : Checksum) :
    source.Gave (done ++ [request]) c ↔
      source.Gave done c ∨ c ∈ found.map Prod.fst := by
  constructor
  · rintro ⟨earlier, r, later, answer, hSplit, hAnswer, hC⟩
    rcases eq_or_exists_of_append_singleton hSplit with
      ⟨rfl, rfl⟩ | ⟨rest, hRest⟩
    · rw [hSource] at hAnswer
      rw [Except.ok.inj hAnswer]
      exact Or.inr hC
    · exact Or.inl ⟨earlier, r, rest, answer, hRest, hAnswer, hC⟩
  · rintro (⟨earlier, r, later, answer, rfl, hAnswer, hC⟩ | hC)
    · exact ⟨earlier, r, later ++ [request], answer, by simp,
        hAnswer, hC⟩
    · exact ⟨done, request, [], found, rfl, hSource, hC⟩

namespace Session

/-
  What a session holds that started with some assets and whose
  source has answered some requests since.
-/
def HoldsAfter
    (first : Session)
    (source : Source)
    (done : List Request)
    (c : Checksum) : Prop :=
  first.isCached c = true ∨ source.Gave done c

/-
  The requests of a session since it started: what was cached
  at first or given since is cached, all that was asked for
  is, and each request asked once for each of some wanted
  assets that were not held then.
-/
structure Journal
    (first : Session)
    (source : Source)
    (wanted : Set Asset)
    (s : Session) : Prop where
  accounts :
    ∀ c : Checksum,
      s.isCached c = true ↔
        first.HoldsAfter source s.requests c
  asked : ∀ c ∈ s.requests.flatten, s.isCached c = true
  fresh :
    ∀ (done : List Request) (request : Request)
      (rest : List Request),
      s.requests = done ++ request :: rest →
        request.Nodup ∧
          ∀ c ∈ request,
            ¬first.HoldsAfter source done c ∧
              c ∉ done.flatten ∧
                ∃ a ∈ wanted, a.checksum = c

namespace Journal

variable {first s t : Session} {source : Source} {wanted : Set Asset}

/- Before anything is asked for, the journal is empty. -/
theorem of_start
    (hNone : first.requests = []) :
    first.Journal source wanted first where
  accounts c := by
    rw [HoldsAfter, hNone]
    constructor
    · exact Or.inl
    · rintro (hCached | ⟨earlier, r, later, -, hSplit, -⟩)
      · exact hCached
      · exact absurd hSplit.symm (by simp)
  asked c hC := by
    rw [hNone] at hC
    cases hC
  fresh done request rest hSplit := by
    rw [hNone] at hSplit
    exact absurd hSplit.symm (by simp)

/- Cache and requests are all that a journal speaks of. -/
theorem of_eq
    (hJournal : first.Journal source wanted s)
    (hCache : t.cache = s.cache)
    (hRequests : t.requests = s.requests) :
    first.Journal source wanted t where
  accounts c := by
    rw [isCached, hCache, hRequests]
    exact hJournal.accounts c
  asked c hC := by
    rw [isCached, hCache]
    rw [hRequests] at hC
    exact hJournal.asked c hC
  fresh done request rest hSplit := by
    rw [hRequests] at hSplit
    exact hJournal.fresh done request rest hSplit

/- A round trip for what is wanted and not cached is entered. -/
theorem extend
    (hJournal : first.Journal source wanted s)
    {request : Request}
    (hNodup : request.Nodup)
    (hNew : ∀ c ∈ request, s.isCached c = false)
    (hWanted : ∀ c ∈ request, ∃ a ∈ wanted, a.checksum = c)
    (hRequests : t.requests = s.requests ++ [request])
    {found : List (Checksum × Asset)}
    (hSource : source s.requests request = .ok found)
    (hCached :
      ∀ c,
        t.isCached c = true ↔
          s.isCached c = true ∨ c ∈ found.map Prod.fst)
    (hAsked : ∀ c ∈ request, t.isCached c = true) :
    first.Journal source wanted t where
  accounts c := by
    rw [hCached, hJournal.accounts, hRequests, HoldsAfter,
      HoldsAfter, Source.gave_append_iff hSource, or_assoc]
  asked c hC := by
    rw [hRequests, List.flatten_append, List.mem_append] at hC
    rcases hC with hOld | hNow
    · exact (hCached c).2 (Or.inl (hJournal.asked c hOld))
    · exact hAsked c (by simpa using hNow)
  fresh done r rest hSplit := by
    rw [hRequests] at hSplit
    rcases eq_or_exists_of_append_singleton hSplit with
      ⟨rfl, rfl⟩ | ⟨later, hOld⟩
    · refine ⟨hNodup, ?_⟩
      intro c hC
      have hMissing : ¬s.isCached c = true := by
        rw [hNew c hC]
        exact Bool.false_ne_true
      exact
        ⟨fun hHeld => hMissing ((hJournal.accounts c).2 hHeld),
          fun hOnce => hMissing (hJournal.asked c hOnce),
          hWanted c hC⟩
    · exact hJournal.fresh done r later hOld

end Journal

end Session

------------------------------------------------------------
-- Supplies that keep a journal
------------------------------------------------------------

namespace Supply

variable {link : Link} (S : Supply link)

/-
  A supply still is one if its sessions keep something else
  that is up to cache and requests, and that a round trip for
  wanted assets carries over.
-/
def guarded
    (kept : Session → Prop)
    (hAside :
      ∀ {s t : Session},
        kept s → t.cache = s.cache →
          t.requests = s.requests → kept t)
    (hTrip :
      ∀ as : List Asset,
        (∀ a ∈ as, a ∈ S.wanted) →
          (as.map Asset.checksum).Nodup →
            Run.Spec
              (fun s =>
                kept s ∧ ∀ a ∈ as, s.isCached a.checksum = false)
              (link.fetchMissing (as.map Asset.checksum))
              (fun _ => kept) (fun _ => True)) :
    Supply link where
  wanted := S.wanted
  knows K s := S.knows K s ∧ kept s
  lack := S.lack
  notNull := S.notNull
  mono hSubset hKnows := ⟨S.mono hSubset hKnows.1, hKnows.2⟩
  cached hKnows := S.cached hKnows.1
  knows_cached hKnows hWanted hCached :=
    ⟨S.knows_cached hKnows.1 hWanted hCached, hKnows.2⟩
  references r hKnows :=
    ⟨S.references r hKnows.1, hAside hKnows.2 rfl rfl⟩
  counts c hKnows :=
    ⟨S.counts c hKnows.1, hAside hKnows.2 rfl rfl⟩
  isClean hKnows := S.isClean hKnows.1
  pool p hClean hKnows :=
    ⟨S.pool p hClean hKnows.1, hAside hKnows.2 rfl rfl⟩
  checkCancelled K :=
    (S.checkCancelled K).also (link.spec_checkCancelled kept)
  fetchMissing K as hWanted hSome hNodup := by
    apply ((S.fetchMissing K as hWanted hSome hNodup).also
      (hTrip as hWanted hNodup)).conseq ?_ (fun _ _ h => h)
      (fun _ h => h)
    rintro s ⟨⟨hKnows, hKept⟩, hNew⟩
    exact ⟨⟨hKnows, hNew⟩, ⟨hKept, hNew⟩⟩

/- The same supply, with a journal since some session. -/
def journaled
    (first : Session) : Supply link :=
  S.guarded (first.Journal link.source S.wanted)
    Session.Journal.of_eq
    (by
      intro as hWanted hNodup
      apply Run.Spec.of_each
      rintro s ⟨hJournal, hNew⟩
      apply ((link.spec_roundTrip s _).also
        (link.spec_fetchMissing _)).conseq
        (fun _ h => ⟨h, trivial⟩) ?_ (fun _ h => h)
      rintro _ t ⟨⟨hRequests, found, hSource, hCached⟩, hAsked⟩
      apply hJournal.extend hNodup ?_ ?_ hRequests hSource
        hCached hAsked
      · intro c hC
        rcases List.mem_map.1 hC with ⟨a, hA, rfl⟩
        exact hNew a hA
      · intro c hC
        rcases List.mem_map.1 hC with ⟨a, hA, rfl⟩
        exact ⟨a, hWanted a hA, rfl⟩)

end Supply

end SnapTree
