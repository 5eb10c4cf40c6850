import SnapTree.Proofs.Data.Keyed
import SnapTree.Proofs.Exchange.Leads
import SnapTree.Proofs.Merkle.Views
import Mathlib.Logic.Relation

/-
  This file proves what a receiver that hashes all answers can
  rely on, whatever its sources do and however its calls end:
  what is cached suits its checksum and stays as it is, and
  what a call returns is what is cached.

  Key definitions include:
    * `Session.Grows`
    * `Run.Grows`
    * `Session.Call`
    * `Session.Settles`

  Key theorems include:
    * `Link.carries_grows`
    * `Session.Call.grows`
    * `Session.cache_integrity`
-/

namespace SnapTree

------------------------------------------------------------
-- Sessions that grow
------------------------------------------------------------

/-
  One session may come after another: what was cached still
  is, and what is cached since then suits its checksum.
-/
structure Session.Grows
    (s t : Session) : Prop where
  kept :
    ∀ (c : Checksum) (a : Asset),
      s.cache[c]? = some a → t.cache[c]? = some a
  suits :
    ∀ (c : Checksum) (a : Asset),
      t.cache[c]? = some a →
        s.cache[c]? = some a ∨ a.checksum = c

namespace Session.Grows

variable {s t u : Session}

/- Nothing else but the cache matters. -/
theorem of_cache_eq
    (hSame : t.cache = s.cache) :
    s.Grows t where
  kept c a hCached := by
    rw [hSame]
    exact hCached
  suits c a hCached := by
    rw [← hSame]
    exact Or.inl hCached

theorem refl
    (s : Session) :
    s.Grows s :=
  of_cache_eq rfl

theorem trans
    (hFirst : s.Grows t)
    (hSecond : t.Grows u) :
    s.Grows u where
  kept c a hCached := hSecond.kept c a (hFirst.kept c a hCached)
  suits c a hCached := by
    rcases hSecond.suits c a hCached with hOld | hSuits
    · exact hFirst.suits c a hOld
    · exact Or.inr hSuits

/- An asset kept under its checksum replaces no other. -/
theorem keep
    (s : Session)
    {c : Checksum}
    {a : Asset}
    (hSuits : a.checksum = c) :
    s.Grows (s.keep c a) where
  kept := Session.Extends.keep s c a
  suits d b hCached := by
    rcases Session.eq_or_of_keep hCached with ⟨rfl, rfl⟩ | hOld
    · exact Or.inr hSuits
    · exact Or.inl hOld

end Session.Grows

/-
  A computation makes the session grow, whether it ends well
  or fails half way.
-/
def Run.Grows
    {ε α : Type}
    (r : Run ε α) : Prop :=
  ∀ s : Session, s.Grows (r.start s).2

------------------------------------------------------------
-- What calls do to the cache
------------------------------------------------------------

theorem Run.grows_cached
    {α : Type}
    [AssetValue α]
    (c : Checksum) :
    Run.Grows (Run.cached c : Run AssetError α) :=
  (Run.leading AssetError Session.Grows.refl
    (fun _ _ _ => Session.Grows.trans)).cached
      Session.Grows.refl c

namespace Link

variable {link : Link} (hVerifies : link.verifies = true)

include hVerifies

/- An answer is only kept if it hashes to its key. -/
theorem carries_grows :
    link.Carries Session.Grows where
  trans hFirst hSecond := hFirst.trans hSecond
  aside hCache _ := .of_cache_eq hCache
  keep s _ _ hFits := .keep s (hFits hVerifies)

theorem grows_get
    {α : Type}
    [AssetValue α]
    (c : Checksum) :
    Run.Grows (link.get c : Run AssetError α) :=
  (carries_grows hVerifies).comparison.get c

theorem grows_prefetch
    (cs : List Checksum) :
    Run.Grows (link.prefetch cs) :=
  (carries_grows hVerifies).leads_prefetch cs

theorem grows_getMany
    {α : Type}
    [AssetValue α]
    (cs : List Checksum) :
    Run.Grows
      (link.getMany cs : Run AssetError (List (Checksum × α))) :=
  (carries_grows hVerifies).comparison.getMany cs

theorem grows_fetchDocuments
    (documents : List Checksum) :
    Run.Grows (link.fetchDocuments documents) :=
  (carries_grows hVerifies).comparison.fetchDocuments documents

theorem grows_fetchProjects
    (projects : List Checksum) :
    Run.Grows (link.fetchProjects projects) :=
  (carries_grows hVerifies).comparison.fetchProjects projects

end Link

------------------------------------------------------------
-- What calls return
------------------------------------------------------------

/- What a look-up finds is what is cached. -/
theorem Session.lookup_eq_some_iff
    {α : Type}
    [AssetValue α]
    [LawfulValue α]
    {s : Session}
    {c : Checksum}
    {v : α} :
    s.lookup c = .ok (some v) ↔
      s.cache[c]? = some (AssetValue.toAsset v) := by
  unfold Session.lookup
  cases s.cache[c]? with
  | none => simp
  | some a =>
      dsimp only
      rw [Option.some.injEq, ← Asset.value_eq_ok_iff (c := c)]
      cases (a.value c : Except AssetError α) with
      | error e => simp
      | ok w => simp

namespace Run

variable {ε α : Type}

variable [AssetValue α] [LawfulValue α]

/- What is returned from the cache is what is cached. -/
theorem spec_cached
    (pre : Session → Prop)
    (c : Checksum) :
    Run.Spec pre (Run.cached c : Run AssetError α)
      (fun v s =>
        s.cache[c]? = some (AssetValue.toAsset v) ∧ pre s)
      (fun _ => True) :=
  (Run.spec_cached_lookup pre c).conseq (fun _ hPre => hPre)
    (fun _ _ hFound =>
      ⟨Session.lookup_eq_some_iff.1 hFound.1, hFound.2⟩)
    (fun _ hFail => hFail)

end Run

namespace Link

variable {link : Link}

/- Once an answer is received, all that was asked for is cached. -/
theorem spec_receive_isCached
    (earlier : List Request)
    (request : Request) :
    Run.Spec (fun _ => True) (link.receive earlier request)
      (fun _ s => ∀ c ∈ request, s.isCached c = true)
      (fun _ => True) := by
  unfold receive
  apply (Run.Spec.anything _).bind
  intro found
  apply (Run.Spec.anything _).bind
  intro _
  apply (Run.Spec.anything _).bind
  intro _
  apply Run.Spec.of_get.bind
  intro t
  cases hFind : request.find? (fun c => !t.isCached c) with
  | some c => exact Run.Spec.of_throw trivial
  | none =>
      apply Run.Spec.of_pure
      rintro u ⟨rfl, -⟩ c hC
      simpa using List.find?_eq_none.1 hFind c hC

/- After a round trip, everything asked for is cached. -/
theorem spec_fetchMissing
    (request : Request) :
    Run.Spec (fun _ => True) (link.fetchMissing request)
      (fun _ s => ∀ c ∈ request, s.isCached c = true)
      (fun _ => True) := by
  unfold fetchMissing
  apply (Run.Spec.anything _).bind
  intro _
  apply (Run.Spec.anything _).bind
  intro s
  apply (Run.Spec.anything _).bind
  intro _
  apply (Run.Spec.anything _).bind
  intro _
  exact link.spec_receive_isCached s.requests request

variable
  {α : Type}
  [AssetValue α]
  [LawfulValue α]

/- What is returned is what is cached from then on. -/
theorem spec_get
    (c : Checksum) :
    Run.Spec (fun _ => True) (link.get c : Run AssetError α)
      (fun v s => s.cache[c]? = some (AssetValue.toAsset v))
      (fun _ => True) := by
  have hLookup :
      Run.Spec (fun _ => True) (link.get c : Run AssetError α)
        (fun v s => s.lookup c = .ok (some v) ∧ True)
        (fun _ => True) :=
    Link.spec_get_lookup (fun _ _ _ => trivial)
      (Run.Spec.anything (link.fetchMissing [c]))
  exact hLookup.conseq (fun _ hS => hS)
    (fun _ _ hFound => Session.lookup_eq_some_iff.1 hFound.1)
    (fun _ hFail => hFail)

/- After a prefetch, all but null checksums are cached. -/
theorem spec_prefetch_isCached
    (link : Link)
    (cs : List Checksum) :
    Run.Spec (fun _ => True) (link.prefetch cs)
      (fun _ s =>
        ∀ c ∈ cs, c.isNull = false → s.isCached c = true)
      (fun _ => True) := by
  unfold prefetch
  apply Run.Spec.of_get.bind
  intro s
  apply Run.Spec.of_each
  rintro _ ⟨rfl, -⟩
  have hAsked :
      ∀ c ∈ cs, c.isNull = false → s.isCached c = false →
        c ∈ s.missing cs :=
    fun c hC hNull hNew =>
      Session.mem_missing.2 ⟨hC, hNull, hNew⟩
  dsimp only
  split
  · next hNone =>
      apply Run.Spec.of_pure
      rintro _ rfl c hC hNull
      by_contra hNew
      rw [Bool.not_eq_true] at hNew
      have hMem := hAsked c hC hNull hNew
      rw [List.isEmpty_iff.1 hNone] at hMem
      cases hMem
  · apply ((link.carries_extends.leads_fetchMissing _).post
      (spec_fetchMissing _)).bind
    intro _
    apply Run.Spec.of_pure
    rintro u ⟨hExtends, hAll⟩ c hC hNull
    cases hOld : s.isCached c with
    | true => exact hExtends.isCached hOld
    | false => exact hAll c (hAsked c hC hNull hOld)

/- Each checksum is listed once, with what is cached for it. -/
theorem spec_getMany
    (cs : List Checksum) :
    Run.Spec (fun _ => True)
      (link.getMany cs : Run AssetError (List (Checksum × α)))
      (fun found s =>
        found.map Prod.fst = cs.eraseDups ∧
          ∀ entry ∈ found,
            s.cache[entry.1]? =
              some (AssetValue.toAsset entry.2))
      (fun _ => True) := by
  unfold getMany
  apply (Run.Spec.anything _).bind
  intro _
  apply Run.Spec.of_each
  intro s _
  have hEach :
      ∀ c ∈ cs.eraseDups,
        Run.Spec (fun t => t = s)
          (do return (c, ← Run.cached c) :
            Run AssetError (Checksum × α))
          (fun entry t =>
            (entry.1 = c ∧
              s.cache[entry.1]? =
                some (AssetValue.toAsset entry.2)) ∧ t = s)
          (fun _ => True) := by
    intro c _
    apply (Run.spec_cached _ c).bind
    intro v
    apply Run.Spec.of_pure
    rintro t ⟨hCached, rfl⟩
    exact ⟨⟨rfl, hCached⟩, rfl⟩
  apply (Run.Spec.mapM hEach).conseq (fun _ h => h) ?_
    (fun _ h => h)
  rintro found t ⟨hFound, rfl⟩
  generalize cs.eraseDups = unique at hFound
  induction hFound with
  | nil => exact ⟨rfl, fun _ h => nomatch h⟩
  | cons hEntry _ ih =>
      rcases ih with ⟨hKeys, hCached⟩
      refine ⟨?_, ?_⟩
      · rw [List.map_cons, hEntry.1, hKeys]
      · intro entry hMem
        rcases List.mem_cons.1 hMem with rfl | hMem
        · exact hEntry.2
        · exact hCached entry hMem

end Link

------------------------------------------------------------
-- Histories of calls
------------------------------------------------------------

/-
  One call leads from a session to another, however it ends.
  Each call may find a source that has changed its ways, as
  long as its answers are hashed.
-/
inductive Session.Call : Session → Session → Prop where
  | insert
      (s : Session)
      {α : Type}
      [AssetValue α]
      (v : α) :
      Call s (s.insert v)
  | get
      (s : Session)
      (α : Type)
      [AssetValue α]
      {link : Link}
      (hVerifies : link.verifies = true)
      (c : Checksum) :
      Call s ((link.get c : Run AssetError α).start s).2
  | getMany
      (s : Session)
      (α : Type)
      [AssetValue α]
      {link : Link}
      (hVerifies : link.verifies = true)
      (cs : List Checksum) :
      Call s
        ((link.getMany cs :
          Run AssetError (List (Checksum × α))).start s).2
  | cached
      (s : Session)
      (α : Type)
      [AssetValue α]
      (c : Checksum) :
      Call s ((Run.cached c : Run AssetError α).start s).2
  | prefetch
      (s : Session)
      {link : Link}
      (hVerifies : link.verifies = true)
      (cs : List Checksum) :
      Call s ((link.prefetch cs).start s).2
  | fetchProjects
      (s : Session)
      {link : Link}
      (hVerifies : link.verifies = true)
      (projects : List Checksum) :
      Call s ((link.fetchProjects projects).start s).2
  | fetchDocuments
      (s : Session)
      {link : Link}
      (hVerifies : link.verifies = true)
      (documents : List Checksum) :
      Call s ((link.fetchDocuments documents).start s).2
  | next
      (s : Session) :
      Call s { s with requests := [] }

namespace Session

variable {s t : Session}

/- No call takes away or changes anything cached. -/
theorem Call.grows
    (hCall : s.Call t) :
    s.Grows t := by
  cases hCall with
  | insert v => exact Session.Grows.keep s rfl
  | get α hVerifies c => exact Link.grows_get hVerifies c s
  | getMany α hVerifies cs => exact Link.grows_getMany hVerifies cs s
  | cached α c => exact Run.grows_cached c s
  | prefetch hVerifies cs => exact Link.grows_prefetch hVerifies cs s
  | fetchProjects hVerifies projects =>
      exact Link.grows_fetchProjects hVerifies projects s
  | fetchDocuments hVerifies documents =>
      exact Link.grows_fetchDocuments hVerifies documents s
  | next => exact Session.Grows.of_cache_eq rfl

/- Nor do any number of them. -/
theorem grows_of_calls
    (hCalls : Relation.ReflTransGen Call s t) :
    s.Grows t := by
  induction hCalls with
  | refl => exact Grows.refl s
  | tail _ hCall ih => exact ih.trans hCall.grows

/-
  A value belongs to a checksum for good: it has this checksum,
  and it is found under it whatever is called later.
-/
def Settles
    {α : Type}
    [AssetValue α]
    (s : Session)
    (c : Checksum)
    (v : α) : Prop :=
  AssetValue.checksum v = c ∧
    ∀ t, Relation.ReflTransGen Call s t →
      t.lookup c = .ok (some v)

/- After calls on an empty cache, everything in it suits. -/
theorem suits_of_calls
    (hEmpty : s.cache = ∅)
    (hCalls : Relation.ReflTransGen Call s t)
    {c : Checksum}
    {a : Asset}
    (hCached : t.cache[c]? = some a) :
    a.checksum = c := by
  rcases (grows_of_calls hCalls).suits c a hCached with
    hOld | hSuits
  · rw [hEmpty, Std.ExtTreeMap.getElem?_empty] at hOld
    cases hOld
  · exact hSuits

/- A value that is cached belongs to its checksum for good. -/
theorem settles_of_calls
    {α : Type}
    [AssetValue α]
    [LawfulValue α]
    (hEmpty : s.cache = ∅)
    (hCalls : Relation.ReflTransGen Call s t)
    {c : Checksum}
    {v : α}
    (hCached : t.cache[c]? = some (AssetValue.toAsset v)) :
    t.Settles c v := by
  refine ⟨suits_of_calls hEmpty hCalls hCached, ?_⟩
  intro u hLater
  rw [lookup_eq_some_iff]
  exact (grows_of_calls hLater).kept c _ hCached

end Session

/-
  Whatever was called before on a cache that was empty at
  first, and whatever the sources did: everything cached suits
  its checksum and stays, what a call returns belongs to its
  checksum for good, a prefetch that ends well leaves nothing
  out, and a list of values names each checksum once, in the
  order in which they came first.
-/
theorem Session.cache_integrity
    {start s : Session}
    (hEmpty : start.cache = ∅)
    (hCalls : Relation.ReflTransGen Call start s) :
    (∀ (c : Checksum) (a : Asset),
      s.cache[c]? = some a →
        a.checksum = c ∧
          ∀ t, Relation.ReflTransGen Call s t →
            t.cache[c]? = some a) ∧
    ∀ link : Link, link.verifies = true →
      (∀ (α : Type) [AssetValue α] [LawfulValue α]
          (c : Checksum) (v : α) (t : Session),
        (link.get c : Run AssetError α).start s = (.ok v, t) ∨
            (Run.cached c : Run AssetError α).start s =
              (.ok v, t) →
          t.Settles c v) ∧
      (∀ (cs : List Checksum) (n : Nat) (t : Session),
        (link.prefetch cs).start s = (.ok n, t) →
          ∀ c ∈ cs, c.isNull = false → t.isCached c = true) ∧
      ∀ (α : Type) [AssetValue α] [LawfulValue α]
          (cs : List Checksum) (found : List (Checksum × α))
          (t : Session),
        (link.getMany cs :
            Run AssetError (List (Checksum × α))).start s =
              (.ok found, t) →
          (∀ c, c ∈ found.map Prod.fst ↔ c ∈ cs) ∧
            (found.map Prod.fst).Pairwise
              (fun a b => cs.idxOf a < cs.idxOf b) ∧
            ∀ entry ∈ found, t.Settles entry.1 entry.2 := by
  refine ⟨?_, ?_⟩
  · intro c a hCached
    refine ⟨suits_of_calls hEmpty hCalls hCached, ?_⟩
    intro t hLater
    exact (grows_of_calls hLater).kept c a hCached
  · intro link hVerifies
    refine ⟨?_, ?_, ?_⟩
    · intro α _ _ c v t hRun
      rcases hRun with hGet | hCached
      · have hCall : s.Call t := by
          have hLeft := Call.get s α hVerifies c
          rw [hGet] at hLeft
          exact hLeft
        exact settles_of_calls hEmpty (hCalls.tail hCall)
          ((Link.spec_get c).of_ok hGet)
      · have hCall : s.Call t := by
          have hLeft := Call.cached s α c
          rw [hCached] at hLeft
          exact hLeft
        exact settles_of_calls hEmpty (hCalls.tail hCall)
          ((Run.spec_cached _ c).of_ok hCached).1
    · intro cs n t hRun
      exact (link.spec_prefetch_isCached cs).of_ok hRun
    · intro α _ _ cs found t hRun
      have hCall : s.Call t := by
        have hLeft := Call.getMany s α hVerifies cs
        rw [hRun] at hLeft
        exact hLeft
      rcases (Link.spec_getMany cs).of_ok hRun with
        ⟨hKeys, hCached⟩
      rw [hKeys]
      refine ⟨fun c => List.mem_eraseDups,
        pairwise_idxOf_eraseDups cs, ?_⟩
      intro entry hEntry
      exact settles_of_calls hEmpty (hCalls.tail hCall)
        (hCached entry hEntry)

/-
  A text that the caller held is cached for good, also after a
  source gave a wrong answer to a call for another.
-/
theorem Session.cache_integrity_of_wrong_answer :
    let held := ({} : Session).insert "class A;"
    let link : Link :=
      { source := fun _ _ => .ok [(Checksum.null, .text "")] }
    let s :=
      ((link.get Checksum.null : Run AssetError String).start
        held).2
    ∀ (c : Checksum) (a : Asset),
      s.cache[c]? = some a →
        a.checksum = c ∧
          ∀ t, Relation.ReflTransGen Call s t →
            t.cache[c]? = some a := by
  intro held link s
  have hCalls : Relation.ReflTransGen Call {} s :=
    (Relation.ReflTransGen.single (.insert {} "class A;")).tail
      (.get held String rfl Checksum.null)
  exact (cache_integrity rfl hCalls).1

end SnapTree
