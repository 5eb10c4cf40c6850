import SnapTree.Proofs.Exchange.Leads
import SnapTree.Proofs.Exchange.RoundTrip
import SnapTree.Proofs.Exchange.Supply

/-
  This file proves that a source which answers with what it
  holds is a supply, as long as checksums tell assets apart.
  What the source does not hold may be missing, and nothing
  else can go wrong.

  Key definitions include:
    * `Session.Knows`
    * `Source.Serves`
    * `Serving`
    * `Serving.supply`

  Key theorems include:
    * `Session.Knows.keep`
    * `Serving.spec_receive`
    * `Serving.spec_fetchMissing`
-/

namespace SnapTree

------------------------------------------------------------
-- What a session knows
------------------------------------------------------------

/-
  Everything cached stands under its checksum and is one of
  some sealed assets, those of `K` are cached, and no scratch
  set holds anything.
-/
structure Session.Knows
    (assets K : Set Asset)
    (s : Session) : Prop where
  entry :
    ∀ (c : Checksum) (a : Asset),
      s.cache[c]? = some a →
        a.checksum = c ∧ a ∈ assets ∧ a.IsSealed
  known : ∀ a ∈ K, s.cache[a.checksum]? = some a
  clean : s.pool.IsClean

namespace Session.Knows

variable
  {assets K : Set Asset}
  (hFaithful : Faithful assets)
  {s : Session}

include hFaithful

/- What is cached under the checksum of an asset is that asset. -/
theorem eq_of_isCached
    (hKnows : s.Knows assets K)
    {a : Asset}
    (hA : a ∈ assets)
    (hSealed : a.IsSealed)
    (hCached : s.isCached a.checksum = true) :
    s.cache[a.checksum]? = some a := by
  rcases Session.isCached_iff.1 hCached with ⟨b, hB⟩
  rcases hKnows.entry _ b hB with ⟨hChecksum, hMem, hSealedB⟩
  rw [hFaithful.eq_of_checksum hA hMem hSealed hSealedB
    hChecksum.symm]
  rw [hChecksum]
  exact hB

/- Keeping an asset under its checksum makes it known. -/
theorem keep
    (hKnows : s.Knows assets K)
    {a : Asset}
    (hA : a ∈ assets)
    (hSealed : a.IsSealed) :
    (s.keep a.checksum a).Knows assets (K ∪ {a}) := by
  have hOld : s.Extends (s.keep a.checksum a) :=
    .keep s a.checksum a
  refine ⟨?_, ?_, hKnows.clean⟩
  · intro c b hB
    rcases Session.eq_or_of_keep hB with ⟨rfl, rfl⟩ | hB
    · exact ⟨rfl, hA, hSealed⟩
    · exact hKnows.entry c b hB
  · rintro b (hB | rfl)
    · exact hOld _ _ (hKnows.known b hB)
    · by_cases hCached : s.isCached b.checksum = true
      · exact hOld _ _
          (hKnows.eq_of_isCached hFaithful hA hSealed hCached)
      · unfold Session.keep
        rw [Std.ExtTreeMap.getElem?_insertIfNew, if_pos]
        refine ⟨Std.ReflOrd.compare_self, ?_⟩
        rw [← Std.ExtTreeMap.contains_iff_mem]
        exact hCached

end Session.Knows

------------------------------------------------------------
-- Sources that answer with what they hold
------------------------------------------------------------

/-
  Asked for some of the keys, a source answers with the entries
  that it holds under them, in any order.
-/
def Source.Serves
    (source : Source)
    (keys : Set Checksum)
    (held : Set (Checksum × Asset)) : Prop :=
  ∀ (earlier : List Request) (request : Request),
    (∀ c ∈ request, c ∈ keys) →
      ∃ found, source earlier request = .ok found ∧
        ∀ entry, entry ∈ found ↔ entry ∈ held ∧ entry.1 ∈ request

/-
  A link to a source that holds some assets, which can be asked
  for the wanted ones, where checksums tell assets apart.
-/
structure Serving (link : Link) where
  assets : Set Asset
  wanted : Set Asset
  held : Set Asset
  faithful : Faithful assets
  wanted_mem : ∀ a ∈ wanted, a ∈ assets ∧ a.IsSealed
  held_mem : ∀ a ∈ held, a ∈ assets ∧ a.IsSealed
  never : link.cancellation = .never
  serves :
    link.source.Serves {c | ∃ a ∈ wanted, a.checksum = c}
      {entry | entry.2 ∈ held ∧ entry.2.checksum = entry.1}

namespace Serving

variable {link : Link} (S : Serving link)

/- A wanted asset that is not held may be missing. -/
def lack
    (e : AssetError) : Prop :=
  ∃ a ∈ S.wanted, a ∉ S.held ∧ e = .missing a.checksum

include S in
theorem start_checkCancelled
    (s : Session) :
    link.checkCancelled.start s = (.ok (), s) := by
  unfold Link.checkCancelled
  rw [S.never]
  rfl

/- An answer that is held is accepted and known from then on. -/
theorem spec_accept
    (K : Set Asset)
    {answer : Checksum × Asset}
    (hHeld : answer.2 ∈ S.held)
    (hChecksum : answer.2.checksum = answer.1)
    (fail : AssetError → Prop) :
    Run.Spec (Session.Knows S.assets K) (link.accept answer)
      (fun _ => Session.Knows S.assets (K ∪ {answer.2}))
      fail := by
  rcases S.held_mem _ hHeld with ⟨hMem, hSealed⟩
  rcases answer with ⟨c, a⟩
  dsimp only at hChecksum hMem hSealed ⊢
  subst hChecksum
  constructor
  intro s hKnows
  unfold Link.accept
  have hFits :
      (link.verifies && a.checksum != a.checksum) = false := by
    simp
  dsimp only
  rw [hFits]
  exact hKnows.keep S.faithful hMem hSealed

/- Answers that are held are all accepted. -/
theorem spec_forM_accept
    (K : Set Asset)
    {found : List (Checksum × Asset)}
    (hFound :
      ∀ entry ∈ found,
        entry.2 ∈ S.held ∧ entry.2.checksum = entry.1)
    (fail : AssetError → Prop) :
    Run.Spec (Session.Knows S.assets K)
      (found.forM link.accept)
      (fun _ =>
        Session.Knows S.assets
          (K ∪ {a | ∃ c, (c, a) ∈ found})) fail := by
  have hAll :
      Run.Spec
        (Session.Knows S.assets
          (K ∪ {a | ∃ c, (c, a) ∈ ([] : List (Checksum × Asset))}))
        (found.forM link.accept)
        (fun _ =>
          Session.Knows S.assets
            (K ∪ {a | ∃ c, (c, a) ∈ found})) fail := by
    apply Run.Spec.forM
      (fun done => Session.Knows S.assets
        (K ∪ {a | ∃ c, (c, a) ∈ done}))
    intro done entry rest hSplit
    rcases hFound entry (by simp [hSplit]) with ⟨hHeld, hChecksum⟩
    apply (S.spec_accept _ hHeld hChecksum fail).conseq
      (fun _ h => h) ?_ (fun _ h => h)
    intro _ s hKnows
    refine ⟨hKnows.entry, ?_, hKnows.clean⟩
    rintro a (hA | ⟨c, hA⟩)
    · exact hKnows.known a (Or.inl (Or.inl hA))
    · rcases List.mem_append.1 hA with hA | hA
      · exact hKnows.known a (Or.inl (Or.inr ⟨c, hA⟩))
      · rw [← List.mem_singleton.1 hA] at hKnows
        exact hKnows.known a (Or.inr rfl)
  apply hAll.conseq ?_ (fun _ _ h => h) (fun _ h => h)
  intro s hKnows
  refine ⟨hKnows.entry, ?_, hKnows.clean⟩
  rintro a (hA | ⟨c, hA⟩)
  · exact hKnows.known a hA
  · cases hA

/-
  Wanted assets are known once the answer to a request for them
  was received.  If one is missing then, it is not held.
-/
theorem spec_receive
    (K : Set Asset)
    (earlier : List Request)
    (as : List Asset)
    (hWanted : ∀ a ∈ as, a ∈ S.wanted) :
    Run.Spec (Session.Knows S.assets K)
      (link.receive earlier (as.map Asset.checksum))
      (fun _ => Session.Knows S.assets (K ∪ {a | a ∈ as}))
      S.lack := by
  have hAsked :
      ∀ c ∈ as.map Asset.checksum,
        ∃ a ∈ S.wanted, a.checksum = c := by
    intro c hC
    rcases List.mem_map.1 hC with ⟨a, hA, rfl⟩
    exact ⟨a, hWanted a hA, rfl⟩
  rcases S.serves earlier (as.map Asset.checksum) hAsked with
    ⟨found, hSource, hFound⟩
  have hCount :
      Run.Spec (Session.Knows S.assets K)
        (modify (fun s =>
          { s with
            counts :=
              { s.counts with
                assetsFetched :=
                  s.counts.assetsFetched + found.length } }) :
          Run AssetError PUnit)
        (fun _ => Session.Knows S.assets K) S.lack :=
    Run.Spec.of_modify
      (fun _ hS => ⟨hS.entry, hS.known, hS.clean⟩)
  unfold Link.receive
  rw [hSource, Run.ofExcept, pure_bind]
  apply hCount.bind
  intro _
  apply (S.spec_forM_accept K
    (fun entry hEntry => ((hFound entry).1 hEntry).1)
    S.lack).bind
  intro _
  apply Run.Spec.of_get.bind
  intro t
  cases hFind : (as.map Asset.checksum).find?
      (fun c => !t.isCached c) with
  | some c =>
      apply Run.Spec.of_each
      rintro _ ⟨rfl, hT⟩
      apply Run.Spec.of_throw
      have hMem := List.mem_of_find?_eq_some hFind
      have hNew := List.find?_some hFind
      rcases List.mem_map.1 hMem with ⟨a, hA, rfl⟩
      refine ⟨a, hWanted a hA, ?_, rfl⟩
      intro hHeld
      have hAnswer : (a.checksum, a) ∈ found :=
        (hFound _).2 ⟨⟨hHeld, rfl⟩, hMem⟩
      have hCached := hT.known a (Or.inr ⟨_, hAnswer⟩)
      rw [Session.isCached_of_eq_some hCached] at hNew
      cases hNew
  | none =>
      apply Run.Spec.of_pure
      rintro _ ⟨rfl, hT⟩
      refine ⟨hT.entry, ?_, hT.clean⟩
      rintro a (hA | hA)
      · exact hT.known a (Or.inl hA)
      · rcases S.wanted_mem a (hWanted a hA) with
          ⟨hMem, hSealed⟩
        apply hT.eq_of_isCached S.faithful hMem hSealed
        have hCached := List.find?_eq_none.1 hFind
          a.checksum (List.mem_map_of_mem hA)
        simpa using hCached

/- A round trip is the answer received, as nobody gives up. -/
theorem spec_fetchMissing
    (K : Set Asset)
    (as : List Asset)
    (hWanted : ∀ a ∈ as, a ∈ S.wanted) :
    Run.Spec (Session.Knows S.assets K)
      (link.fetchMissing (as.map Asset.checksum))
      (fun _ => Session.Knows S.assets (K ∪ {a | a ∈ as}))
      S.lack := by
  constructor
  intro s hKnows
  rw [Link.start_fetchMissing, S.never]
  exact (S.spec_receive K s.requests as hWanted).holds
    (s.asking _) ⟨hKnows.entry, hKnows.known, hKnows.clean⟩

/- A source that answers with what it holds is a supply. -/
def supply
    (S : Serving link) : Supply link where
  wanted := S.wanted
  knows := Session.Knows S.assets
  lack := S.lack
  notNull a hA :=
    S.faithful.checksum_ne_null (S.wanted_mem a hA).1
  mono hSubset hKnows :=
    ⟨hKnows.entry, fun a hA => hKnows.known a (hSubset hA),
      hKnows.clean⟩
  cached hKnows hA := hKnows.known _ hA
  knows_cached := by
    intro K s a hKnows hWanted hCached
    rcases S.wanted_mem a hWanted with ⟨hMem, hSealed⟩
    refine ⟨hKnows.entry, ?_, hKnows.clean⟩
    rintro b (rfl | hB)
    · exact hKnows.eq_of_isCached S.faithful hMem hSealed hCached
    · exact hKnows.known b hB
  references _ hKnows :=
    ⟨hKnows.entry, hKnows.known, hKnows.clean⟩
  counts _ hKnows := ⟨hKnows.entry, hKnows.known, hKnows.clean⟩
  isClean hKnows := hKnows.clean
  pool _ hClean hKnows := ⟨hKnows.entry, hKnows.known, hClean⟩
  checkCancelled K := by
    constructor
    intro s hKnows
    rw [S.start_checkCancelled]
    exact hKnows
  fetchMissing K as hWanted _ _ :=
    (S.spec_fetchMissing K as hWanted).conseq
      (fun _ hPre => hPre.1) (fun _ _ h => h) (fun _ h => h)

/- Less may be wanted. -/
def narrowed
    (wanted : Set Asset)
    (hSubset : wanted ⊆ S.wanted) : Serving link where
  assets := S.assets
  wanted := wanted
  held := S.held
  faithful := S.faithful
  wanted_mem a hA := S.wanted_mem a (hSubset hA)
  held_mem := S.held_mem
  never := S.never
  serves earlier request hRequest :=
    S.serves earlier request (by
      intro c hC
      rcases hRequest c hC with ⟨a, hA, hChecksum⟩
      exact ⟨a, hSubset hA, hChecksum⟩)

end Serving

end SnapTree
