import SnapTree.Exchange.Provider
import Mathlib.Data.List.Forall2

/-
  This file defines what it means that a computation in a
  session keeps a promise, and proves how promises of parts
  make up the promise of a whole.

  Key definitions include:
    * `Run.Spec`

  Key theorems include:
    * `Session.isCached_iff`
    * `Session.eq_or_of_keep`
    * `Run.start_bind_cases`
    * `Run.Spec.bind`
    * `Run.Spec.conseq`
    * `Run.Spec.mapM`
    * `Run.Spec.foldlM`
    * `Run.spec_cached_lookup`
    * `Link.spec_get_lookup`
-/

namespace SnapTree

------------------------------------------------------------
-- What is cached and what is missing
------------------------------------------------------------

/- A checksum is cached if something is found under it. -/
theorem Session.isCached_iff
    {s : Session}
    {c : Checksum} :
    s.isCached c = true ↔ ∃ a, s.cache[c]? = some a := by
  unfold isCached
  rw [Std.ExtTreeMap.contains_eq_isSome_getElem?,
    Option.isSome_iff_exists]

theorem Session.isCached_of_eq_some
    {s : Session}
    {c : Checksum}
    {a : Asset}
    (hA : s.cache[c]? = some a) :
    s.isCached c = true :=
  isCached_iff.2 ⟨a, hA⟩

/- What is cached is what was just kept, or was so before. -/
theorem Session.eq_or_of_keep
    {s : Session}
    {c d : Checksum}
    {a b : Asset}
    (hCached : (s.keep c a).cache[d]? = some b) :
    (d = c ∧ b = a) ∨ s.cache[d]? = some b := by
  unfold keep at hCached
  rw [Std.ExtTreeMap.getElem?_insertIfNew] at hCached
  split at hCached
  · next hNew =>
      exact Or.inl
        ⟨(Std.LawfulEqOrd.eq_of_compare hNew.1).symm,
          (Option.some.inj hCached).symm⟩
  · exact Or.inr hCached

theorem Session.mem_missing
    {s : Session}
    {cs : List Checksum}
    {c : Checksum} :
    c ∈ s.missing cs ↔
      c ∈ cs ∧ c.isNull = false ∧ s.isCached c = false := by
  unfold missing
  rw [List.mem_filter, List.mem_eraseDups, List.mem_filter,
    Bool.not_eq_true', Bool.not_eq_true', and_assoc]

theorem Session.missing_eq_nil
    {s : Session}
    {cs : List Checksum}
    (hCached :
      ∀ c ∈ cs, c.isNull = false → s.isCached c = true) :
    s.missing cs = [] := by
  rw [List.eq_nil_iff_forall_not_mem]
  intro c hC
  rcases mem_missing.1 hC with ⟨hMem, hNull, hNew⟩
  rw [hCached c hMem hNull] at hNew
  cases hNew

namespace Run

variable {ε δ α β : Type}

/-
  From a session with `pre`, a computation gives a value that
  leaves a session with `post`, or it fails with `fail`.
-/
structure Spec
    (pre : Session → Prop)
    (r : Run ε α)
    (post : α → Session → Prop)
    (fail : ε → Prop) : Prop where
  holds :
    ∀ s, pre s →
      match r.start s with
      | (.ok a, t) => post a t
      | (.error e, _) => fail e

------------------------------------------------------------
-- How computations run
------------------------------------------------------------

@[simp]
theorem start_pure
    (a : α)
    (s : Session) :
    (pure a : Run ε α).start s = (.ok a, s) :=
  rfl

@[simp]
theorem start_throw
    (e : ε)
    (s : Session) :
    (throw e : Run ε α).start s = (.error e, s) :=
  rfl

@[simp]
theorem start_get
    (s : Session) :
    (get : Run ε Session).start s = (.ok s, s) :=
  rfl

@[simp]
theorem start_modify
    (f : Session → Session)
    (s : Session) :
    (modify f : Run ε PUnit).start s = (.ok ⟨⟩, f s) :=
  rfl

theorem start_bind
    (r : Run ε α)
    (f : α → Run ε β)
    (s : Session) :
    (r >>= f).start s =
      match r.start s with
      | (.ok a, t) => (f a).start t
      | (.error e, t) => (.error e, t) := by
  change (ExceptT.bindCont f (r.start s).1).run (r.start s).2 = _
  cases hRun : r.start s with
  | mk result t =>
      cases result <;> rfl

theorem start_bind_of_ok
    {r : Run ε α}
    {f : α → Run ε β}
    {s t : Session}
    {a : α}
    (hRun : r.start s = (.ok a, t)) :
    (r >>= f).start s = (f a).start t := by
  rw [start_bind, hRun]

theorem start_bind_of_error
    {r : Run ε α}
    {f : α → Run ε β}
    {s : Session}
    {e : ε}
    (hRun : (r.start s).1 = .error e) :
    (r >>= f).start s = (.error e, (r.start s).2) := by
  rw [start_bind]
  revert hRun
  cases r.start s with
  | mk result t =>
      rintro rfl
      rfl

/- Two steps end where the first fails, or as the second does. -/
theorem start_bind_cases
    (r : Run ε α)
    (f : α → Run ε β)
    (s : Session) :
    (∃ e t, r.start s = (.error e, t) ∧
      (r >>= f).start s = (.error e, t)) ∨
    ∃ a t, r.start s = (.ok a, t) ∧
      (r >>= f).start s = (f a).start t := by
  rw [start_bind]
  cases r.start s with
  | mk result t =>
      cases result with
      | error e => exact Or.inl ⟨e, t, rfl, rfl⟩
      | ok a => exact Or.inr ⟨a, t, rfl, rfl⟩

/- Two steps end well if the first does and then the second. -/
theorem start_bind_eq_ok_iff
    {r : Run ε α}
    {f : α → Run ε β}
    {s u : Session}
    {b : β} :
    (r >>= f).start s = (.ok b, u) ↔
      ∃ a t, r.start s = (.ok a, t) ∧ (f a).start t = (.ok b, u) := by
  rw [start_bind]
  cases r.start s with
  | mk result t => cases result <;> simp

theorem start_failingAs
    (f : ε → δ)
    (r : Run ε α)
    (s : Session) :
    (r.failingAs f).start s =
      ((r.start s).1.mapError f, (r.start s).2) :=
  rfl

namespace Spec

variable {pre : Session → Prop} {fail : ε → Prop}

------------------------------------------------------------
-- Single steps
------------------------------------------------------------

theorem of_pure
    {a : α}
    {post : α → Session → Prop}
    (hPost : ∀ s, pre s → post a s) :
    Spec pre (pure a : Run ε α) post fail :=
  ⟨fun s hPre => hPost s hPre⟩

theorem of_throw
    {e : ε}
    {post : α → Session → Prop}
    (hFail : fail e) :
    Spec pre (throw e : Run ε α) post fail :=
  ⟨fun _ _ => hFail⟩

theorem of_get :
    Spec pre (get : Run ε Session)
      (fun s t => s = t ∧ pre t) fail :=
  ⟨fun _ hPre => ⟨rfl, hPre⟩⟩

theorem of_modify
    {f : Session → Session}
    {post : PUnit → Session → Prop}
    (hPost : ∀ s, pre s → post ⟨⟩ (f s)) :
    Spec pre (modify f : Run ε PUnit) post fail :=
  ⟨fun s hPre => hPost s hPre⟩

/- Nothing is promised. -/
theorem anything
    (r : Run ε α) :
    Spec pre r (fun _ _ => True) (fun _ => True) := by
  constructor
  intro s _
  cases r.start s with
  | mk result t => cases result <;> trivial

/- After a failure nothing is promised. -/
theorem of_error
    {e : ε}
    {f : α → Run ε β}
    {post : β → Session → Prop}
    (hFail : fail e) :
    Spec pre (ofExcept (.error e) >>= f) post fail :=
  ⟨fun _ _ => hFail⟩

/- A computation that ends well keeps what it promises. -/
theorem of_ok
    {r : Run ε α}
    {post : α → Session → Prop}
    (hSpec : Spec (fun _ => True) r post fail)
    {s t : Session}
    {a : α}
    (hRun : r.start s = (.ok a, t)) :
    post a t := by
  have hResult := hSpec.holds s trivial
  rw [hRun] at hResult
  exact hResult

------------------------------------------------------------
-- Promises made up of promises
------------------------------------------------------------

/- What is promised from each session is promised. -/
theorem of_each
    {r : Run ε α}
    {post : α → Session → Prop}
    (hEach : ∀ s, pre s → Spec (fun t => t = s) r post fail) :
    Spec pre r post fail :=
  ⟨fun s hPre => (hEach s hPre).holds s rfl⟩

/- Whoever asks for less and promises more promises this. -/
theorem conseq
    {r : Run ε α}
    {pre' : Session → Prop}
    {post post' : α → Session → Prop}
    {fail' : ε → Prop}
    (hSpec : Spec pre r post fail)
    (hPre : ∀ s, pre' s → pre s)
    (hPost : ∀ a s, post a s → post' a s)
    (hFail : ∀ e, fail e → fail' e) :
    Spec pre' r post' fail' := by
  constructor
  intro s hS
  have hResult := hSpec.holds s (hPre s hS)
  revert hResult
  cases r.start s with
  | mk result t =>
      cases result with
      | ok a => exact hPost a t
      | error e => exact hFail e

theorem bind
    {r : Run ε α}
    {f : α → Run ε β}
    {mid : α → Session → Prop}
    {post : β → Session → Prop}
    (hFirst : Spec pre r mid fail)
    (hThen : ∀ a, Spec (mid a) (f a) post fail) :
    Spec pre (r >>= f) post fail := by
  constructor
  intro s hPre
  have hResult := hFirst.holds s hPre
  rw [start_bind]
  revert hResult
  cases r.start s with
  | mk result t =>
      cases result with
      | ok a => exact (hThen a).holds t
      | error e => exact id

/- Two promises are kept together. -/
theorem also
    {r : Run ε α}
    {pre' : Session → Prop}
    {post post' : α → Session → Prop}
    (hSpec : Spec pre r post fail)
    (hOther : Spec pre' r post' (fun _ => True)) :
    Spec (fun s => pre s ∧ pre' s) r
      (fun a s => post a s ∧ post' a s) fail := by
  constructor
  rintro s ⟨hPre, hPre'⟩
  have hResult := hSpec.holds s hPre
  have hAlso := hOther.holds s hPre'
  revert hResult hAlso
  cases r.start s with
  | mk result t =>
      cases result with
      | ok a => exact fun hPost hPost' => ⟨hPost, hPost'⟩
      | error e => exact fun hFail _ => hFail

/- What follows a change starts from the changed session. -/
theorem modify_bind
    {change : Session → Session}
    {r : Run ε β}
    {post : β → Session → Prop}
    (hThen :
      Spec (fun t => ∃ s, pre s ∧ change s = t) r post fail) :
    Spec pre (modify change >>= fun _ => r) post fail :=
  (of_modify (fun s hPre => ⟨s, hPre, rfl⟩)).bind
    (fun _ => hThen)

/- What does not depend on the session can be had beforehand. -/
theorem assuming
    {r : Run ε α}
    {p : Prop}
    {post : α → Session → Prop}
    (hSpec : p → Spec pre r post fail) :
    Spec (fun s => p ∧ pre s) r post fail :=
  ⟨fun s hPre => (hSpec hPre.1).holds s hPre.2⟩

theorem failingAs
    {r : Run ε α}
    {f : ε → δ}
    {post : α → Session → Prop}
    {fail' : δ → Prop}
    (hSpec : Spec pre r post fail)
    (hFail : ∀ e, fail e → fail' (f e)) :
    Spec pre (r.failingAs f) post fail' := by
  constructor
  intro s hPre
  have hResult := hSpec.holds s hPre
  rw [start_failingAs]
  revert hResult
  cases r.start s with
  | mk result t =>
      cases result with
      | ok a => exact id
      | error e => exact hFail e

------------------------------------------------------------
-- Lists of steps
------------------------------------------------------------

/-
  A fold keeps what is said of the items that it is done with
  if every step carries it over to one item more.
-/
theorem foldlM
    {xs : List α}
    {f : β → α → Run ε β}
    {b : β}
    (kept : List α → β → Session → Prop)
    (hStep :
      ∀ done x rest, xs = done ++ x :: rest →
        ∀ b, Spec (kept done b) (f b x) (kept (done ++ [x]))
          fail) :
    Spec (kept [] b) (xs.foldlM f b) (kept xs) fail := by
  suffices hAll :
      ∀ todo done b, xs = done ++ todo →
        Spec (kept done b) (todo.foldlM f b) (kept xs) fail from
    hAll xs [] b rfl
  intro todo
  induction todo with
  | nil =>
      intro done b hSplit
      rw [List.append_nil] at hSplit
      rw [List.foldlM_nil, hSplit]
      exact of_pure (fun s hKept => hKept)
  | cons x rest ih =>
      intro done b hSplit
      rw [List.foldlM_cons]
      apply (hStep done x rest hSplit b).bind
      intro c
      apply ih
      rw [hSplit, List.append_assoc]
      rfl

/- A step for each item, in order, for what it does. -/
theorem forM
    {xs : List α}
    {f : α → Run ε PUnit}
    (kept : List α → Session → Prop)
    (hStep :
      ∀ done x rest, xs = done ++ x :: rest →
        Spec (kept done) (f x) (fun _ => kept (done ++ [x]))
          fail) :
    Spec (kept []) (xs.forM f) (fun _ => kept xs) fail := by
  suffices hAll :
      ∀ todo done, xs = done ++ todo →
        Spec (kept done) (todo.forM f) (fun _ => kept xs)
          fail from
    hAll xs [] rfl
  intro todo
  induction todo with
  | nil =>
      intro done hSplit
      rw [List.append_nil] at hSplit
      rw [hSplit]
      exact of_pure (fun s hKept => hKept)
  | cons x rest ih =>
      intro done hSplit
      apply (hStep done x rest hSplit).bind
      intro _
      apply ih
      rw [hSplit, List.append_assoc]
      rfl

/- A step for each item, in order, for the values they give. -/
theorem mapM
    {xs : List α}
    {f : α → Run ε β}
    {value : α → β → Prop}
    (hStep :
      ∀ x ∈ xs,
        Spec pre (f x) (fun b s => value x b ∧ pre s) fail) :
    Spec pre (xs.mapM f)
      (fun bs s => List.Forall₂ value xs bs ∧ pre s) fail := by
  induction xs with
  | nil => exact of_pure (fun s hPre => ⟨.nil, hPre⟩)
  | cons x xs ih =>
      rw [List.mapM_cons]
      apply (hStep x List.mem_cons_self).bind
      intro b
      apply assuming
      intro hB
      apply (ih (fun y hY =>
        hStep y (List.mem_cons_of_mem _ hY))).bind
      intro bs
      exact of_pure (fun s hBs => ⟨.cons hB hBs.1, hBs.2⟩)

end Spec

------------------------------------------------------------
-- Values that are looked up
------------------------------------------------------------

variable [AssetValue α]

/- What is returned from the cache is what is found there. -/
theorem spec_cached_lookup
    (pre : Session → Prop)
    (c : Checksum) :
    Run.Spec pre (Run.cached c : Run AssetError α)
      (fun v s => s.lookup c = .ok (some v) ∧ pre s)
      (fun _ => True) := by
  unfold Run.cached
  apply Run.Spec.of_get.bind
  intro s
  cases hFound : (s.lookup c : Except AssetError (Option α)) with
  | error e => exact Run.Spec.of_error trivial
  | ok found =>
      cases found with
      | none => exact Run.Spec.of_throw trivial
      | some v =>
          apply Run.Spec.of_pure
          rintro t ⟨rfl, hPre⟩
          exact ⟨hFound, hPre⟩

end Run

/-
  What is returned is what is found in the cache afterwards,
  whether it was there before or was fetched.
-/
theorem Link.spec_get_lookup
    {α : Type}
    [AssetValue α]
    {link : Link}
    {pre : Session → Prop}
    {c : Checksum}
    (hCounts :
      ∀ (s : Session) (counts : FetchCounts),
        pre s → pre { s with counts := counts })
    (hFetch :
      Run.Spec pre (link.fetchMissing [c]) (fun _ => pre)
        (fun _ => True)) :
    Run.Spec pre (link.get c : Run AssetError α)
      (fun v s => s.lookup c = .ok (some v) ∧ pre s)
      (fun _ => True) := by
  unfold Link.get
  apply Run.Spec.of_get.bind
  intro s
  cases hFound : (s.lookup c : Except AssetError (Option α)) with
  | error e => exact Run.Spec.of_error trivial
  | ok found =>
      cases found with
      | some v =>
          -- Only the count of cache hits changes.
          constructor
          rintro t ⟨rfl, hPre⟩
          exact ⟨hFound, hCounts _ _ hPre⟩
      | none =>
          have hMissing :
              Run.Spec (fun t => s = t ∧ pre t)
                (link.fetchMissing [c]) (fun _ => pre)
                (fun _ => True) :=
            hFetch.conseq (fun _ hS => hS.2) (fun _ _ hS => hS)
              (fun _ hFail => hFail)
          apply hMissing.bind
          intro _
          exact Run.spec_cached_lookup pre c

end SnapTree
