import SnapTree.Exchange.Provider
import SnapTree.Proofs.Data.Keyed
import SnapTree.Proofs.Exchange.RunSpec
import SnapTree.Proofs.Exchange.ScratchPool
import SnapTree.Proofs.Workspace.Tree
import Mathlib.Data.Set.Insert

/-
  This file defines what can be relied upon when a link is
  asked for assets, and proves what the ways of asking give on
  that ground.  A step either gives the one value it should
  give, with more assets known than before, or it fails for a
  reason that is accounted for.

  Key definitions include:
    * `Supply`
    * `Supply.Gives`

  Key theorems include:
    * `Supply.Gives.bind`
    * `Supply.gives_get`
    * `Supply.gives_prefetch`
    * `Supply.gives_getMany`
-/

namespace SnapTree

/-
  What a link can be relied upon for.  A session that knows
  some assets has each of them cached under its checksum, and
  a wanted asset whose checksum is cached is known.  Wanted
  assets can be asked for, and `lack` says how this may fail.
-/
structure Supply (link : Link) where
  wanted : Set Asset
  knows : Set Asset → Session → Prop
  lack : AssetError → Prop
  notNull : ∀ a ∈ wanted, a.checksum ≠ Checksum.null
  mono :
    ∀ {K K' : Set Asset} {s : Session},
      K ⊆ K' → knows K' s → knows K s
  cached :
    ∀ {K : Set Asset} {s : Session} {a : Asset},
      knows K s → a ∈ K → s.cache[a.checksum]? = some a
  knows_cached :
    ∀ {K : Set Asset} {s : Session} {a : Asset},
      knows K s → a ∈ wanted → s.isCached a.checksum = true →
        knows (insert a K) s
  references :
    ∀ {K : Set Asset} {s : Session} (r : ReferenceCache),
      knows K s → knows K { s with references := r }
  counts :
    ∀ {K : Set Asset} {s : Session} (c : FetchCounts),
      knows K s → knows K { s with counts := c }
  isClean :
    ∀ {K : Set Asset} {s : Session},
      knows K s → s.pool.IsClean
  pool :
    ∀ {K : Set Asset} {s : Session} (p : ScratchPool),
      p.IsClean → knows K s → knows K { s with pool := p }
  checkCancelled :
    ∀ K : Set Asset,
      Run.Spec (knows K) link.checkCancelled
        (fun _ => knows K) lack
  fetchMissing :
    ∀ (K : Set Asset) (as : List Asset),
      (∀ a ∈ as, a ∈ wanted) → as ≠ [] →
        (as.map Asset.checksum).Nodup →
          Run.Spec
            (fun s =>
              knows K s ∧
                ∀ a ∈ as, s.isCached a.checksum = false)
            (link.fetchMissing (as.map Asset.checksum))
            (fun _ => knows (K ∪ {a | a ∈ as})) lack

namespace Supply

variable {link : Link} (S : Supply link)
variable {ε δ α β : Type}

------------------------------------------------------------
-- Steps with one outcome
------------------------------------------------------------

/-
  Where the assets of `K` are known, a step succeeds only if
  `c` holds; it then gives `v` and leaves those of `K'` known.
-/
def Gives
    (K : Set Asset)
    (r : Run ε α)
    (c : Prop)
    (v : α)
    (K' : Set Asset)
    (fail : ε → Prop) : Prop :=
  Run.Spec (S.knows K) r
    (fun a s => (c ∧ a = v) ∧ S.knows K' s) fail

namespace Gives

variable {S} {K K₁ K₂ : Set Asset} {fail : ε → Prop}

theorem of_pure
    (v : α) :
    S.Gives K (pure v : Run ε α) True v K fail :=
  Run.Spec.of_pure (fun _ hKnows => ⟨⟨trivial, rfl⟩, hKnows⟩)

/- Nothing follows a failure. -/
theorem of_throw_bind
    {e : ε}
    {f : α → Run ε β}
    {c : Prop}
    {v : β}
    (hFail : fail e) :
    S.Gives K (throw e >>= f) c v K₁ fail := by
  have hThrow :
      Run.Spec (S.knows K) (throw e : Run ε α)
        (fun _ _ => False) fail :=
    Run.Spec.of_throw hFail
  apply hThrow.bind
  intro _
  exact ⟨fun _ hNever => hNever.elim⟩

/- Less may be known afterwards, and more beforehand. -/
theorem conseq
    {r : Run ε α}
    {c c' : Prop}
    {v : α}
    {K' : Set Asset}
    {fail' : ε → Prop}
    (hGives : S.Gives K r c v K₁ fail)
    (hBefore : K ⊆ K')
    (hHolds : c → c')
    (hAfter : K₂ ⊆ K₁)
    (hFail : ∀ e, fail e → fail' e) :
    S.Gives K' r c' v K₂ fail' :=
  Run.Spec.conseq hGives (fun _ => S.mono hBefore)
    (fun _ _ hPost =>
      ⟨⟨hHolds hPost.1.1, hPost.1.2⟩, S.mono hAfter hPost.2⟩)
    hFail

/- Less may be known afterwards. -/
theorem keep
    {r : Run ε α}
    {c : Prop}
    {v : α}
    (hGives : S.Gives K r c v K₁ fail)
    (hAfter : K₂ ⊆ K₁) :
    S.Gives K r c v K₂ fail :=
  hGives.conseq subset_rfl id hAfter (fun _ h => h)

/- A step that nothing can make fail has its one outcome. -/
theorem start_eq
    {r : Run ε α}
    {c : Prop}
    {v : α}
    (hGives : S.Gives K r c v K₁ fail)
    (hNever : ∀ e, ¬fail e)
    {s : Session}
    (hKnows : S.knows K s) :
    (r.start s).1 = .ok v := by
  have hRun := Run.Spec.holds hGives s hKnows
  revert hRun
  cases r.start s with
  | mk result after =>
      cases result with
      | error e => exact fun hFail => absurd hFail (hNever e)
      | ok a => exact fun hPost => congrArg Except.ok hPost.1.2

/- What holds anyway may be asked for. -/
theorem anyway
    {r : Run ε α}
    {c : Prop}
    {v : α}
    (hHolds : c)
    (hGives : S.Gives K r True v K₁ fail) :
    S.Gives K r c v K₁ fail :=
  hGives.conseq subset_rfl (fun _ => hHolds) subset_rfl
    (fun _ h => h)

/- A step that may go either way, and what follows it. -/
theorem bindIf
    {r : Run ε α}
    {f : α → Run ε β}
    {c d : Prop}
    {v : α}
    {w : β}
    (hFirst : S.Gives K r c v K₁ fail)
    (hThen : c → S.Gives K₁ (f v) d w K₂ fail) :
    S.Gives K (r >>= f) (c ∧ d) w K₂ fail := by
  apply Run.Spec.bind hFirst
  intro a
  apply Run.Spec.assuming
  rintro ⟨hC, rfl⟩
  apply Run.Spec.conseq (hThen hC) (fun _ h => h) ?_
    (fun _ h => h)
  rintro b s ⟨⟨hD, rfl⟩, hKnows⟩
  exact ⟨⟨⟨hC, hD⟩, rfl⟩, hKnows⟩

/- A step whose success says nothing, and what follows it. -/
theorem bind
    {r : Run ε α}
    {f : α → Run ε β}
    {d : Prop}
    {v : α}
    {w : β}
    (hFirst : S.Gives K r True v K₁ fail)
    (hThen : S.Gives K₁ (f v) d w K₂ fail) :
    S.Gives K (r >>= f) d w K₂ fail :=
  (hFirst.bindIf (fun _ => hThen)).conseq subset_rfl And.right
    subset_rfl (fun _ h => h)

/- A step that may go either way, and what always follows it. -/
theorem bindAlways
    {r : Run ε α}
    {f : α → Run ε β}
    {c : Prop}
    {v : α}
    {w : β}
    (hFirst : S.Gives K r c v K₁ fail)
    (hThen : S.Gives K₁ (f v) True w K₂ fail) :
    S.Gives K (r >>= f) c w K₂ fail :=
  (hFirst.bindIf (fun _ => hThen)).conseq subset_rfl And.left
    subset_rfl (fun _ h => h)

/-
  A change that is made only where it is due, and what follows
  it.
-/
theorem bindChange
    {γ : Type}
    {r : Run ε α}
    {change : α → Run ε β}
    {f : β → Run ε γ}
    {p d : Prop}
    [Decidable p]
    {old : β}
    (new : β)
    {w : γ}
    (hDue : p → S.Gives K (r >>= change) True new K fail)
    (hSame : ¬p → old = new)
    (hThen : S.Gives K (f new) d w K₂ fail) :
    S.Gives K
      (if p then r >>= (fun a => change a >>= f)
        else pure old >>= f)
      d w K₂ fail := by
  split
  · next hP =>
      rw [← bind_assoc]
      exact (hDue hP).bind hThen
  · next hP =>
      rw [hSame hP]
      exact (of_pure new).bind hThen

/- One of two steps to the same end, and what follows it. -/
theorem bindEither
    {r t : Run ε α}
    {f : α → Run ε β}
    {p d : Prop}
    [Decidable p]
    {v : α}
    {w : β}
    (hLeft : p → S.Gives K r True v K fail)
    (hRight : ¬p → S.Gives K t True v K fail)
    (hThen : S.Gives K (f v) d w K₂ fail) :
    S.Gives K (if p then r >>= f else t >>= f) d w K₂ fail := by
  split
  · next hP => exact (hLeft hP).bind hThen
  · next hP => exact (hRight hP).bind hThen

/- One of two steps that may go either way to the same end. -/
theorem bindEitherAlways
    {r t : Run ε α}
    {f : α → Run ε β}
    {p c : Prop}
    [Decidable p]
    {v : α}
    {w : β}
    (hLeft : p → S.Gives K r c v K fail)
    (hRight : ¬p → S.Gives K t c v K fail)
    (hThen : S.Gives K (f v) True w K₂ fail) :
    S.Gives K (if p then r >>= f else t >>= f) c w K₂ fail := by
  split
  · next hP => exact (hLeft hP).bindAlways hThen
  · next hP => exact (hRight hP).bindAlways hThen

theorem failingAs
    {r : Run ε α}
    {f : ε → δ}
    {c : Prop}
    {v : α}
    {fail' : δ → Prop}
    (hGives : S.Gives K r c v K₁ fail)
    (hFail : ∀ e, fail e → fail' (f e)) :
    S.Gives K (r.failingAs f) c v K₁ fail' :=
  Run.Spec.failingAs hGives hFail

/- A step for each item, in order, for the values they give. -/
theorem mapM
    {xs : List α}
    {f : α → Run ε β}
    {g : α → β}
    (hStep :
      ∀ x ∈ xs, S.Gives K (f x) True (g x) K fail) :
    S.Gives K (xs.mapM f) True (xs.map g) K fail := by
  have hSteps :
      Run.Spec (S.knows K) (xs.mapM f)
        (fun bs s =>
          List.Forall₂ (fun x b => b = g x) xs bs ∧
            S.knows K s) fail := by
    apply Run.Spec.mapM
    intro x hX
    exact Run.Spec.conseq (hStep x hX) (fun _ h => h)
      (fun _ _ hPost => ⟨hPost.1.2, hPost.2⟩) (fun _ h => h)
  apply Run.Spec.conseq hSteps (fun _ h => h) ?_ (fun _ h => h)
  clear hStep hSteps
  rintro bs s ⟨hValues, hKnows⟩
  refine ⟨⟨trivial, ?_⟩, hKnows⟩
  induction hValues with
  | nil => rfl
  | cons hHead _ ih => rw [hHead, List.map_cons, ih]

/-
  A fold succeeds only if every step of it may; `v` tells what
  has come of the items that it is done with.
-/
theorem foldlM
    {xs : List α}
    {f : β → α → Run ε β}
    {c : α → Prop}
    (v : List α → β)
    (hStep :
      ∀ done x rest, xs = done ++ x :: rest →
        (∀ y ∈ done, c y) →
          S.Gives K (f (v done) x) (c x) (v (done ++ [x])) K
            fail) :
    S.Gives K (xs.foldlM f (v [])) (∀ x ∈ xs, c x) (v xs) K
      fail := by
  refine Run.Spec.conseq
    (Run.Spec.foldlM
      (fun done b s =>
        ((∀ y ∈ done, c y) ∧ b = v done) ∧ S.knows K s)
      ?_)
    ?_ (fun _ _ h => h) (fun _ h => h)
  · intro done x rest hSplit b
    apply Run.Spec.assuming
    rintro ⟨hDone, rfl⟩
    apply Run.Spec.conseq (hStep done x rest hSplit hDone)
      (fun _ h => h) ?_ (fun _ h => h)
    rintro b s ⟨⟨hX, rfl⟩, hKnows⟩
    refine ⟨⟨?_, rfl⟩, hKnows⟩
    intro y hY
    rcases List.mem_append.1 hY with hOld | hNew
    · exact hDone y hOld
    · rw [List.mem_singleton.1 hNew]
      exact hX
  · intro s hKnows
    exact ⟨⟨by simp, rfl⟩, hKnows⟩

/- A fold succeeds if every step of it does. -/
theorem foldlM_always
    {xs : List α}
    {f : β → α → Run ε β}
    {b : β}
    (v : List α → β)
    (hStart : v [] = b)
    (hStep :
      ∀ done x rest, xs = done ++ x :: rest →
        S.Gives K (f (v done) x) True (v (done ++ [x])) K
          fail) :
    S.Gives K (xs.foldlM f b) True (v xs) K fail := by
  subst hStart
  have hAll :
      S.Gives K (xs.foldlM f (v [])) (∀ x ∈ xs, True) (v xs) K
        fail :=
    foldlM v (fun done x rest hSplit _ =>
      hStep done x rest hSplit)
  exact hAll.conseq subset_rfl (fun _ => trivial) subset_rfl
    (fun _ h => h)

/- Items are entered under keys that no two of them share. -/
theorem foldlM_entering
    {κ : Type}
    {cmp : κ → κ → Ordering}
    [Std.TransCmp cmp]
    [Std.LawfulEqCmp cmp]
    {key : α → κ}
    {value : α → β}
    {xs : List α}
    {enter :
      Std.ExtTreeMap κ β cmp → α →
        Run ε (Std.ExtTreeMap κ β cmp)}
    (hKeys : (xs.map key).Nodup)
    (hEnter :
      ∀ x ∈ xs, ∀ m, key x ∉ m →
        S.Gives K (enter m x) True (m.insert (key x) (value x))
          K fail) :
    S.Gives K (xs.foldlM enter ∅) True (entering key value ∅ xs)
      K fail := by
  apply foldlM_always
    (entering key value (∅ : Std.ExtTreeMap κ β cmp)) rfl
  intro done x rest hSplit
  rw [entering_concat]
  apply hEnter x (mem_of_later hSplit)
  rw [mem_entering]
  rintro (hOld | hNone)
  · exact notMem_map_of_later hKeys hSplit hOld
  · simp at hNone

end Gives

------------------------------------------------------------
-- Values
------------------------------------------------------------

section Values

variable [AssetValue α] [LawfulValue α]
variable {K : Set Asset}

/- A known asset is found when it is looked up. -/
theorem lookup_eq
    {s : Session}
    (hKnows : S.knows K s)
    {v : α}
    (hKnown : AssetValue.toAsset v ∈ K) :
    s.lookup (AssetValue.checksum v) = .ok (some v) := by
  have hCached := S.cached hKnows hKnown
  unfold Session.lookup Asset.value AssetValue.checksum
  rw [hCached]
  dsimp only
  rw [LawfulValue.ofAsset?_toAsset]

theorem gives_cached
    {v : α}
    (hKnown : AssetValue.toAsset v ∈ K) :
    S.Gives K (Run.cached (AssetValue.checksum v)) True v K
      S.lack := by
  constructor
  intro s hKnows
  unfold Run.cached
  simp only [Run.start_bind, Run.start_get,
    S.lookup_eq hKnows hKnown, Run.ofExcept, Run.start_pure]
  exact ⟨⟨trivial, trivial⟩, hKnows⟩

/- A known value is found, and any other wanted one fetched. -/
theorem gives_get
    {v : α}
    (hWanted : AssetValue.toAsset v ∈ S.wanted) :
    S.Gives K (link.get (AssetValue.checksum v)) True v
      (insert (AssetValue.toAsset v) K) S.lack := by
  have hFetch :
      S.Gives (insert (AssetValue.toAsset v) K)
        (Run.cached (AssetValue.checksum v)) True v
        (insert (AssetValue.toAsset v) K) S.lack :=
    S.gives_cached (Set.mem_insert _ _)
  constructor
  intro s hKnows
  by_cases hCached :
      s.isCached (AssetValue.checksum v) = true
  · have hKnown := S.knows_cached hKnows hWanted hCached
    unfold Link.get
    simp only [Run.start_bind, Run.start_get,
      S.lookup_eq hKnown (Set.mem_insert _ _), Run.ofExcept,
      Run.start_pure, Run.start_modify]
    exact ⟨⟨trivial, trivial⟩, S.counts _ hKnown⟩
  · rw [Bool.not_eq_true] at hCached
    have hMissing : s.cache[AssetValue.checksum v]? = none := by
      rw [← Option.isNone_iff_eq_none,
        ← Option.not_isSome, Bool.not_eq_true',
        ← Std.ExtTreeMap.contains_eq_isSome_getElem?]
      exact hCached
    have hLookup :
        (s.lookup (AssetValue.checksum v) :
          Except AssetError (Option α)) = .ok none := by
      unfold Session.lookup
      rw [hMissing]
    have hAsk :
        Run.Spec
          (fun t =>
            S.knows K t ∧
              ∀ a ∈ [AssetValue.toAsset v],
                t.isCached a.checksum = false)
          (link.fetchMissing [AssetValue.checksum v] >>=
            fun _ => Run.cached (AssetValue.checksum v))
          (fun (a : α) t =>
            (True ∧ a = v) ∧
              S.knows (insert (AssetValue.toAsset v) K) t)
          S.lack := by
      have hMissing := S.fetchMissing K
        [AssetValue.toAsset v] (by simpa using hWanted)
        (by simp) (by simp)
      apply hMissing.bind
      intro _
      apply Run.Spec.conseq hFetch ?_ (fun _ _ h => h)
        (fun _ h => h)
      intro t hT
      apply S.mono ?_ hT
      rintro a (rfl | hA)
      · exact Or.inr (by simp)
      · exact Or.inl hA
    have hNew :
        ∀ a ∈ [AssetValue.toAsset v],
          s.isCached a.checksum = false := by
      intro a hA
      rw [List.mem_singleton.1 hA]
      exact hCached
    have hAnswer := hAsk.holds s ⟨hKnows, hNew⟩
    unfold Link.get
    simp only [Run.start_bind, Run.start_get, hLookup,
      Run.ofExcept, Run.start_pure] at hAnswer ⊢
    exact hAnswer

end Values

------------------------------------------------------------
-- Many assets together
------------------------------------------------------------

section Assets

variable {K : Set Asset} {as : List Asset}

/- Wanted assets that are all cached are all known. -/
theorem knows_union
    {s : Session}
    (hKnows : S.knows K s)
    (hWanted : ∀ a ∈ as, a ∈ S.wanted)
    (hCached : ∀ a ∈ as, s.isCached a.checksum = true) :
    S.knows (K ∪ {a | a ∈ as}) s := by
  induction as with
  | nil =>
      apply S.mono ?_ hKnows
      rintro a (hA | hA)
      · exact hA
      · cases hA
  | cons b as ih =>
      have hRest := ih
        (fun a hA => hWanted a (List.mem_cons_of_mem _ hA))
        (fun a hA => hCached a (List.mem_cons_of_mem _ hA))
      have hHead := S.knows_cached hRest
        (hWanted b List.mem_cons_self)
        (hCached b List.mem_cons_self)
      apply S.mono ?_ hHead
      rintro a (hA | hA)
      · exact Or.inr (Or.inl hA)
      · rcases List.mem_cons.1 hA with rfl | hTail
        · exact Or.inl rfl
        · exact Or.inr (Or.inr hTail)

theorem isCached_of_mem
    {s : Session}
    (hKnows : S.knows K s)
    {a : Asset}
    (hKnown : a ∈ K) :
    s.isCached a.checksum = true :=
  Session.isCached_of_eq_some (S.cached hKnows hKnown)

/- Assets whose checksums are among those of known ones. -/
theorem knows_union_of_checksums
    {known : List Asset}
    {s : Session}
    (hKnows : S.knows (K ∪ {a | a ∈ known}) s)
    (hWanted : ∀ a ∈ as, a ∈ S.wanted)
    (hListed : ∀ a ∈ as, ∃ b ∈ known, b.checksum = a.checksum) :
    S.knows (K ∪ {a | a ∈ as}) s := by
  have hAll := S.knows_union hKnows hWanted
    (by
      intro a hA
      rcases hListed a hA with ⟨b, hB, hSame⟩
      rw [← hSame]
      exact S.isCached_of_mem hKnows (Or.inr hB))
  apply S.mono ?_ hAll
  rintro a (hA | hA)
  · exact Or.inl (Or.inl hA)
  · exact Or.inr hA

/- Of wanted assets, those that are not cached are missing. -/
theorem mem_missing_iff
    {s : Session}
    (hWanted : ∀ a ∈ as, a ∈ S.wanted)
    {c : Checksum} :
    c ∈ s.missing (as.map Asset.checksum) ↔
      (∃ a ∈ as, a.checksum = c) ∧ s.isCached c = false := by
  rw [Session.mem_missing, List.mem_map]
  constructor
  · rintro ⟨hListed, -, hNew⟩
    exact ⟨hListed, hNew⟩
  · rintro ⟨⟨a, hA, rfl⟩, hNew⟩
    refine ⟨⟨a, hA, rfl⟩, ?_, hNew⟩
    simpa [Checksum.isNull] using S.notNull a (hWanted a hA)

/-
  Where those assets are known that were cached, and those that
  were missing, all are known.
-/
theorem knows_union_of_missing
    {s t : Session}
    {asked : List Asset}
    (hWanted : ∀ a ∈ as, a ∈ S.wanted)
    (hAsked :
      asked.map Asset.checksum =
        s.missing (as.map Asset.checksum))
    (hKnows :
      S.knows
        (K ∪ {a | a ∈ as.filter (fun a => s.isCached a.checksum)} ∪
          {a | a ∈ asked}) t) :
    S.knows (K ∪ {a | a ∈ as}) t := by
  let here := as.filter (fun a => s.isCached a.checksum)
  have hBoth : S.knows (K ∪ {a | a ∈ here ++ asked}) t := by
    apply S.mono ?_ hKnows
    rintro a (hA | hA)
    · exact Or.inl (Or.inl hA)
    · rcases List.mem_append.1 hA with hA | hA
      · exact Or.inl (Or.inr hA)
      · exact Or.inr hA
  apply S.knows_union_of_checksums hBoth hWanted
  intro a hA
  by_cases hCached : s.isCached a.checksum = true
  · exact ⟨a, List.mem_append_left _
      (List.mem_filter.2 ⟨hA, hCached⟩), rfl⟩
  · have hMem : a.checksum ∈ s.missing (as.map Asset.checksum) :=
      (S.mem_missing_iff hWanted).2
        ⟨⟨a, hA, rfl⟩, by simpa using hCached⟩
    rw [← hAsked] at hMem
    rcases List.mem_map.1 hMem with ⟨b, hB, hSame⟩
    exact ⟨b, List.mem_append_right _ hB, hSame⟩

/- Wanted assets are known once they were asked for together. -/
theorem spec_prefetch
    (hWanted : ∀ a ∈ as, a ∈ S.wanted) :
    Run.Spec (S.knows K)
      (link.prefetch (as.map Asset.checksum))
      (fun _ => S.knows (K ∪ {a | a ∈ as})) S.lack := by
  unfold Link.prefetch
  apply Run.Spec.of_get.bind
  intro s
  apply Run.Spec.of_each
  rintro _ ⟨rfl, hKnows⟩
  -- Those cached already are known, the others are missing.
  let here := as.filter (fun a => s.isCached a.checksum)
  have hHere : S.knows (K ∪ {a | a ∈ here}) s := by
    apply S.knows_union hKnows
    · intro a hA
      exact hWanted a (List.mem_of_mem_filter hA)
    · intro a hA
      exact (List.mem_filter.1 hA).2
  have hMissing :
      ∀ c ∈ s.missing (as.map Asset.checksum),
        (∃ a ∈ as, a.checksum = c) ∧ s.isCached c = false :=
    fun _ hC => (S.mem_missing_iff hWanted).1 hC
  rcases exists_map_eq (fun c hC => (hMissing c hC).1) with
    ⟨asked, hAsked, hSubset⟩
  dsimp only
  split
  · next hNone =>
      apply Run.Spec.of_pure
      rintro _ rfl
      apply S.knows_union_of_missing hWanted hAsked
      apply S.mono ?_ hHere
      rw [List.isEmpty_iff.1 hNone, List.map_eq_nil_iff] at hAsked
      rw [hAsked]
      rintro a (hA | hA)
      · exact hA
      · cases hA
  · next hSome =>
      have hFetch := S.fetchMissing (K ∪ {a | a ∈ here}) asked
        (fun a hA => hWanted a (hSubset a hA))
        (by
          rintro rfl
          exact hSome (List.isEmpty_iff.2 hAsked.symm))
        (by
          rw [hAsked]
          exact (nodup_eraseDups _).filter _)
      rw [hAsked] at hFetch
      have hKnown :
          Run.Spec (fun t => t = s)
            (link.fetchMissing
              (s.missing (as.map Asset.checksum)))
            (fun _ => S.knows (K ∪ {a | a ∈ as})) S.lack := by
        apply hFetch.conseq ?_ ?_ (fun _ h => h)
        · rintro _ rfl
          refine ⟨hHere, fun a hA => (hMissing _ ?_).2⟩
          rw [← hAsked]
          exact List.mem_map_of_mem hA
        · intro _ t hT
          exact S.knows_union_of_missing hWanted hAsked hT
      apply hKnown.bind
      intro _
      exact Run.Spec.of_pure (fun _ h => h)

theorem gives_prefetch
    (hWanted : ∀ a ∈ as, a ∈ S.wanted) :
    S.Gives K (discard (link.prefetch (as.map Asset.checksum)))
      True () (K ∪ {a | a ∈ as}) S.lack := by
  apply Run.Spec.bind (S.spec_prefetch hWanted)
  intro _
  exact Run.Spec.of_pure (fun _ h => ⟨⟨trivial, rfl⟩, h⟩)

/- Differences are exact, whatever was done before. -/
theorem gives_difference
    (old new : List Checksum)
    (fail : ε → Prop) :
    S.Gives K (Run.difference old new) True (.between old new) K
      fail := by
  constructor
  intro s hKnows
  have hClean := S.isClean hKnows
  have hKnows' := S.pool _
    (hClean.releaseDiff_diff old new (s.pool.diff old new).1)
    hKnows
  exact ⟨⟨trivial, hClean.diff_eq old new⟩, hKnows'⟩

end Assets

omit S in
/- What values link to that were asked for together. -/
theorem map_linked
    {N : Type}
    [AssetValue N]
    {node : α → N}
    {link : N → Checksum}
    {target : α → Checksum}
    (hLink : ∀ x, link (node x) = target x)
    (xs : List α) :
    ((xs.map node).map (fun n => (AssetValue.checksum n, n))).map
        (fun entry => link entry.2) =
      xs.map target := by
  rw [List.map_map, List.map_map]
  apply List.map_congr_left
  intro x _
  exact hLink x

/- Wanted values are known once they were asked for together. -/
theorem gives_getMany
    [AssetValue α]
    [LawfulValue α]
    {K : Set Asset}
    {vs : List α}
    (hWanted : ∀ v ∈ vs, AssetValue.toAsset v ∈ S.wanted)
    (hNodup : (vs.map AssetValue.checksum).Nodup) :
    S.Gives K (link.getMany (vs.map AssetValue.checksum)) True
      (vs.map (fun v => (AssetValue.checksum v, v)))
      (K ∪ {a | a ∈ vs.map AssetValue.toAsset}) S.lack := by
  have hChecksums :
      vs.map AssetValue.checksum =
        (vs.map AssetValue.toAsset).map Asset.checksum := by
    rw [List.map_map]
    rfl
  have hAssets :
      ∀ a ∈ vs.map AssetValue.toAsset, a ∈ S.wanted := by
    intro a hA
    rcases List.mem_map.1 hA with ⟨v, hV, rfl⟩
    exact hWanted v hV
  have hFetch := S.spec_prefetch (K := K) hAssets
  unfold Link.getMany
  rw [eraseDups_eq_self hNodup]
  dsimp only
  rw [← hChecksums] at hFetch
  apply Run.Spec.bind hFetch
  intro _
  have hRead :
      S.Gives (K ∪ {a | a ∈ vs.map AssetValue.toAsset})
        ((vs.map AssetValue.checksum).mapM
          (fun c => do
            return (c, ← (Run.cached c : Run AssetError α))))
        True (vs.map (fun v => (AssetValue.checksum v, v)))
        (K ∪ {a | a ∈ vs.map AssetValue.toAsset}) S.lack := by
    rw [List.mapM_map]
    apply Gives.mapM
    intro v hV
    have hKnown :
        AssetValue.toAsset v ∈
          K ∪ {a | a ∈ vs.map AssetValue.toAsset} :=
      Or.inr (List.mem_map_of_mem hV)
    exact (S.gives_cached hKnown).bind
      (Gives.of_pure (AssetValue.checksum v, v))
  exact hRead

end Supply

end SnapTree
