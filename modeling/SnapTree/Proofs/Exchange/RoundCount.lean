import SnapTree.Proofs.Exchange.Integrity
import SnapTree.Proofs.Exchange.Interruption
import Mathlib.Algebra.GroupWithZero.Nat

/-
  This file defines what it means that a computation asks its
  source no more than so many times, and proves how many times
  the ways of asking do: each round trip of a level is one,
  and what is cached is not asked for.

  Key definitions include:
    * `Run.Asks`
    * `Session.StocksDocument`
    * `Session.StocksProject`

  Key theorems include:
    * `Run.Asks.bind`
    * `Run.Asks.foldlM`
    * `Link.asks_prefetch`
    * `Link.asks_fetchDocuments_of_stocked`
    * `Link.spec_fetchProjects`
    * `Link.requests_fetchDocuments`
-/

namespace SnapTree

------------------------------------------------------------
-- Computations that ask so many times
------------------------------------------------------------

/-
  From a session with `pre`, a computation makes at most `n`
  requests, all of them with `P`, however it ends.  A value
  that it gives leaves a session with `post`.
-/
structure Run.Asks
    {ε α : Type}
    (P : Request → Prop)
    (pre : Session → Prop)
    (r : Run ε α)
    (n : Nat)
    (post : α → Session → Prop) : Prop where
  holds :
    ∀ s, pre s →
      ∃ made : List Request,
        (r.start s).2.requests = s.requests ++ made ∧
          made.length ≤ n ∧ (∀ request ∈ made, P request) ∧
            ∀ a, (r.start s).1 = .ok a → post a (r.start s).2

/- What is promised of a value that was given. -/
theorem Run.Spec.post_of_ok
    {ε α : Type}
    {pre : Session → Prop}
    {r : Run ε α}
    {post : α → Session → Prop}
    {fail : ε → Prop}
    (hSpec : Run.Spec pre r post fail)
    {s : Session}
    (hPre : pre s)
    {a : α}
    (hOk : (r.start s).1 = .ok a) :
    post a (r.start s).2 := by
  have hResult := hSpec.holds s hPre
  cases hRun : r.start s with
  | mk result t =>
      rw [hRun] at hResult hOk
      have hOk : result = .ok a := hOk
      subst hOk
      exact hResult

namespace Run.Asks

variable {ε δ α β : Type}
variable {P Q : Request → Prop} {pre : Session → Prop}
variable {n m : Nat}

------------------------------------------------------------
-- Single steps
------------------------------------------------------------

/- A promise of a computation that asks for nothing. -/
theorem of_quiet
    {r : Run ε α}
    {post : α → Session → Prop}
    {fail : ε → Prop}
    (hQuiet : ∀ s, (r.start s).2.requests = s.requests)
    (hSpec : Run.Spec pre r post fail) :
    Run.Asks P pre r 0 post := by
  constructor
  intro s hPre
  refine ⟨[], by rw [hQuiet, List.append_nil], Nat.le_refl 0,
    by simp, ?_⟩
  exact fun a hOk => hSpec.post_of_ok hPre hOk

theorem of_pure
    {a : α}
    {post : α → Session → Prop}
    (hPost : ∀ s, pre s → post a s) :
    Run.Asks P pre (pure a : Run ε α) 0 post := by
  have hSpec :
      Run.Spec pre (pure a : Run ε α) post (fun _ => True) :=
    Run.Spec.of_pure hPost
  exact of_quiet (fun _ => rfl) hSpec

theorem of_throw
    {e : ε}
    {post : α → Session → Prop} :
    Run.Asks P pre (throw e : Run ε α) 0 post := by
  have hSpec :
      Run.Spec pre (throw e : Run ε α) post (fun _ => True) :=
    Run.Spec.of_throw trivial
  exact of_quiet (fun _ => rfl) hSpec

theorem of_get :
    Run.Asks P pre (get : Run ε Session) 0
      (fun s t => s = t ∧ pre t) := by
  have hSpec :
      Run.Spec pre (get : Run ε Session)
        (fun s t => s = t ∧ pre t) (fun _ => True) :=
    Run.Spec.of_get
  exact of_quiet (fun _ => rfl) hSpec

/- After a failure nothing is asked for. -/
theorem of_throw_bind
    {e : ε}
    {f : α → Run ε β}
    {post : β → Session → Prop} :
    Run.Asks P pre ((throw e : Run ε α) >>= f) 0 post :=
  of_throw

------------------------------------------------------------
-- Steps made up of steps
------------------------------------------------------------

/- What is so from each session is so. -/
theorem of_each
    {r : Run ε α}
    {post : α → Session → Prop}
    (hEach :
      ∀ s, pre s → Run.Asks P (fun t => t = s) r n post) :
    Run.Asks P pre r n post :=
  ⟨fun s hPre => (hEach s hPre).holds s rfl⟩

theorem conseq
    {r : Run ε α}
    {pre' : Session → Prop}
    {post post' : α → Session → Prop}
    (hAsks : Run.Asks P pre r n post)
    (hPre : ∀ s, pre' s → pre s)
    (hPost : ∀ a s, post a s → post' a s)
    (hLimit : n ≤ m)
    (hAll : ∀ request, P request → Q request) :
    Run.Asks Q pre' r m post' := by
  constructor
  intro s hS
  rcases hAsks.holds s (hPre s hS) with
    ⟨made, hMade, hFew, hP, hOk⟩
  exact ⟨made, hMade, Nat.le_trans hFew hLimit,
    fun request hMem => hAll request (hP request hMem),
    fun a hA => hPost a _ (hOk a hA)⟩

/- The limit may be higher. -/
theorem le
    {r : Run ε α}
    {post : α → Session → Prop}
    (hAsks : Run.Asks P pre r n post)
    (hLimit : n ≤ m) :
    Run.Asks P pre r m post :=
  hAsks.conseq (fun _ h => h) (fun _ _ h => h) hLimit
    (fun _ h => h)

/- More may hold before, and less afterwards. -/
theorem weaken
    {r : Run ε α}
    {pre' : Session → Prop}
    {post post' : α → Session → Prop}
    (hAsks : Run.Asks P pre r n post)
    (hPre : ∀ s, pre' s → pre s)
    (hPost : ∀ a s, post a s → post' a s) :
    Run.Asks P pre' r n post' :=
  hAsks.conseq hPre hPost (Nat.le_refl n) (fun _ h => h)

/- A promise that is kept as well. -/
theorem also
    {r : Run ε α}
    {post post' : α → Session → Prop}
    {fail : ε → Prop}
    (hAsks : Run.Asks P pre r n post)
    (hSpec : Run.Spec pre r post' fail) :
    Run.Asks P pre r n (fun a s => post a s ∧ post' a s) := by
  constructor
  intro s hPre
  rcases hAsks.holds s hPre with ⟨made, hMade, hFew, hAll, hOk⟩
  refine ⟨made, hMade, hFew, hAll, ?_⟩
  intro a hA
  exact ⟨hOk a hA, hSpec.post_of_ok hPre hA⟩

/- One step after another, or the first one if it fails. -/
theorem bind
    {r : Run ε α}
    {f : α → Run ε β}
    {mid : α → Session → Prop}
    {post : β → Session → Prop}
    (hFirst : Run.Asks P pre r n mid)
    (hThen : ∀ a, Run.Asks P (mid a) (f a) m post) :
    Run.Asks P pre (r >>= f) (n + m) post := by
  constructor
  intro s hPre
  rcases hFirst.holds s hPre with ⟨made, hMade, hFew, hAll, hOk⟩
  rcases Run.start_bind_cases r f s with
    ⟨e, t, hRun, hWhole⟩ | ⟨a, t, hRun, hWhole⟩
  · rw [hRun] at hMade
    rw [hWhole]
    exact ⟨made, hMade, Nat.le_add_right_of_le hFew, hAll,
      fun _ hNot => nomatch hNot⟩
  · rw [hRun] at hMade hOk
    rcases (hThen a).holds t (hOk a rfl) with
      ⟨more, hMore, hFewMore, hAllMore, hPost⟩
    rw [hWhole]
    refine ⟨made ++ more, ?_, ?_, ?_, hPost⟩
    · rw [hMore, hMade, List.append_assoc]
    · rw [List.length_append]
      exact Nat.add_le_add hFew hFewMore
    · intro request hMem
      rcases List.mem_append.1 hMem with hMem | hMem
      · exact hAll request hMem
      · exact hAllMore request hMem

/- What does not depend on the session can be had beforehand. -/
theorem assuming
    {r : Run ε α}
    {p : Prop}
    {post : α → Session → Prop}
    (hAsks : p → Run.Asks P pre r n post) :
    Run.Asks P (fun s => p ∧ pre s) r n post :=
  ⟨fun s hPre => (hAsks hPre.1).holds s hPre.2⟩

/- A step with one value, and what follows it. -/
theorem bindValue
    {r : Run ε α}
    {f : α → Run ε β}
    {v : α}
    {mid : Session → Prop}
    {post : β → Session → Prop}
    (hFirst : Run.Asks P pre r n (fun a s => a = v ∧ mid s))
    (hThen : Run.Asks P mid (f v) m post) :
    Run.Asks P pre (r >>= f) (n + m) post := by
  apply hFirst.bind
  intro a
  apply assuming
  rintro rfl
  exact hThen

/- One of two steps to the same end, and what follows it. -/
theorem bindEither
    {p : Prop}
    [Decidable p]
    {r t : Run ε α}
    {f : α → Run ε β}
    {v : α}
    {mid : Session → Prop}
    {post : β → Session → Prop}
    (hLeft :
      p → Run.Asks P pre r n (fun a s => a = v ∧ mid s))
    (hRight :
      ¬p → Run.Asks P pre t n (fun a s => a = v ∧ mid s))
    (hThen : Run.Asks P mid (f v) m post) :
    Run.Asks P pre (if p then r >>= f else t >>= f) (n + m)
      post := by
  split
  · next hP => exact (hLeft hP).bindValue hThen
  · next hP => exact (hRight hP).bindValue hThen

/- A step that asks for nothing, and what follows it. -/
theorem bindQuiet
    {r : Run ε α}
    {f : α → Run ε β}
    {mid : α → Session → Prop}
    {post : β → Session → Prop}
    (hFirst : Run.Asks P pre r 0 mid)
    (hThen : ∀ a, Run.Asks P (mid a) (f a) n post) :
    Run.Asks P pre (r >>= f) n post :=
  (hFirst.bind hThen).le (Nat.le_of_eq (Nat.zero_add n))

/- After what asks for nothing the requests are what they were. -/
theorem requests_eq
    {r : Run ε α}
    {post : α → Session → Prop}
    (hAsks : Run.Asks P pre r 0 post)
    {s : Session}
    (hPre : pre s) :
    (r.start s).2.requests = s.requests := by
  rcases hAsks.holds s hPre with ⟨made, hMade, hNone, -, -⟩
  rw [List.length_eq_zero_iff.1 (Nat.le_zero.1 hNone),
    List.append_nil] at hMade
  exact hMade

/- What asks for nothing adds nothing to the requests. -/
theorem unmoved
    {r : Run ε α}
    {post : α → Session → Prop}
    (hAsks : Run.Asks P pre r 0 post)
    (base : List Request) :
    Run.Asks P (fun s => pre s ∧ s.requests = base) r 0
      (fun a s => post a s ∧ s.requests = base) := by
  constructor
  rintro s ⟨hPre, hBase⟩
  rcases hAsks.holds s hPre with ⟨made, hMade, hNone, hAll, hOk⟩
  refine ⟨made, hMade, hNone, hAll, ?_⟩
  intro a hA
  exact ⟨hOk a hA, (hAsks.requests_eq hPre).trans hBase⟩

/- What follows a step that may be left out. -/
theorem bindStep
    {p : Prop}
    [Decidable p]
    {r : Run ε α}
    {a : α}
    {f : α → Run ε β}
    {post : β → Session → Prop}
    (hStep : Run.Asks P pre r 0 (fun _ => pre))
    (hThen : ∀ a, Run.Asks P pre (f a) n post) :
    Run.Asks P pre (if p then r >>= f else pure a >>= f) n
      post := by
  split
  · exact hStep.bindQuiet hThen
  · exact hThen a

/-
  Two steps of which only one asks: the first says by its value
  that the limit is spent, or it has asked for nothing.
-/
theorem bindOnce
    {r : Run ε α}
    {f : α → Run ε β}
    {spent : α → Prop}
    {mid : α → Session → Prop}
    {post : β → Session → Prop}
    (hFirst :
      ∀ base,
        Run.Asks P (fun s => pre s ∧ s.requests = base) r n
          (fun a s => mid a s ∧ (spent a ∨ s.requests = base)))
    (hSpent : ∀ a, spent a → Run.Asks P (mid a) (f a) 0 post)
    (hThen : ∀ a, Run.Asks P (mid a) (f a) n post) :
    Run.Asks P pre (r >>= f) n post := by
  constructor
  intro s hPre
  rcases (hFirst s.requests).holds s ⟨hPre, rfl⟩ with
    ⟨made, hMade, hFew, hAll, hOk⟩
  rcases Run.start_bind_cases r f s with
    ⟨e, t, hRun, hWhole⟩ | ⟨a, t, hRun, hWhole⟩
  · rw [hRun] at hMade
    rw [hWhole]
    exact ⟨made, hMade, hFew, hAll, fun _ hNot => nomatch hNot⟩
  · rw [hRun] at hMade hOk
    rw [hWhole]
    rcases hOk a rfl with ⟨hMid, hIs | hBase⟩
    · rcases (hSpent a hIs).holds t hMid with
        ⟨-, -, -, -, hPost⟩
      have hSame := (hSpent a hIs).requests_eq hMid
      exact ⟨made, hSame.trans hMade, hFew, hAll, hPost⟩
    · rw [← hBase]
      exact (hThen a).holds t hMid

theorem failingAs
    {r : Run ε α}
    {f : ε → δ}
    {post : α → Session → Prop}
    (hAsks : Run.Asks P pre r n post) :
    Run.Asks P pre (r.failingAs f) n post := by
  constructor
  intro s hPre
  rcases hAsks.holds s hPre with ⟨made, hMade, hFew, hAll, hOk⟩
  rw [Run.start_failingAs]
  refine ⟨made, hMade, hFew, hAll, ?_⟩
  intro a hA
  cases hResult : (r.start s).1 with
  | error e =>
      rw [hResult] at hA
      cases hA
  | ok b =>
      rw [hResult] at hA
      rw [Except.ok.inj hA] at hResult
      exact hOk a hResult

/-
  A fold asks as often as its steps together, if every step
  carries over to one item more what is kept.
-/
theorem foldlM
    {xs : List α}
    {f : β → α → Run ε β}
    {b : β}
    {limit : α → Nat}
    (kept : List α → β → Session → Prop)
    (hStep :
      ∀ done x rest, xs = done ++ x :: rest →
        ∀ b, Run.Asks P (kept done b) (f b x) (limit x)
          (kept (done ++ [x]))) :
    Run.Asks P (kept [] b) (xs.foldlM f b) (xs.map limit).sum
      (kept xs) := by
  suffices hAll :
      ∀ todo done b, xs = done ++ todo →
        Run.Asks P (kept done b) (todo.foldlM f b)
          (todo.map limit).sum (kept xs) from
    hAll xs [] b rfl
  intro todo
  induction todo with
  | nil =>
      intro done b hSplit
      rw [List.append_nil] at hSplit
      rw [List.foldlM_nil, hSplit]
      exact of_pure (fun s hKept => hKept)
  | cons x rest ih =>
      intro done b hSplit
      rw [List.foldlM_cons, List.map_cons, List.sum_cons]
      apply (hStep done x rest hSplit b).bind
      intro c
      apply ih
      rw [hSplit, List.append_assoc]
      rfl

/- So does a list of steps; what was given so far is known. -/
theorem mapM
    {xs : List α}
    {f : α → Run ε β}
    {limit : α → Nat}
    (kept : List α → List β → Session → Prop)
    (hStep :
      ∀ done x rest, xs = done ++ x :: rest →
        ∀ bs, Run.Asks P (kept done bs) (f x) (limit x)
          (fun b => kept (done ++ [x]) (bs ++ [b]))) :
    Run.Asks P (kept [] []) (xs.mapM f) (xs.map limit).sum
      (kept xs) := by
  suffices hAll :
      ∀ todo done bs, xs = done ++ todo →
        Run.Asks P (kept done bs) (todo.mapM f)
          (todo.map limit).sum
          (fun more => kept xs (bs ++ more)) from
    hAll xs [] [] rfl
  intro todo
  induction todo with
  | nil =>
      intro done bs hSplit
      rw [List.append_nil] at hSplit
      rw [List.mapM_nil, hSplit]
      apply of_pure
      intro s hKept
      rw [List.append_nil]
      exact hKept
  | cons x rest ih =>
      intro done bs hSplit
      rw [List.mapM_cons, List.map_cons, List.sum_cons]
      apply (hStep done x rest hSplit bs).bind
      intro b
      have hRest :=
        ih (done ++ [x]) (bs ++ [b])
          (by rw [hSplit, List.append_assoc]; rfl)
      apply (hRest.bind (m := 0) ?_).le (Nat.le_refl _)
      intro more
      apply of_pure
      intro s hKept
      rwa [List.append_assoc] at hKept

/- Where every step keeps the same, nothing else matters. -/
theorem foldlM_each
    {xs : List α}
    {f : β → α → Run ε β}
    {limit : α → Nat}
    (hStep :
      ∀ x ∈ xs, ∀ b,
        Run.Asks P pre (f b x) (limit x) (fun _ => pre))
    (b : β) :
    Run.Asks P pre (xs.foldlM f b) (xs.map limit).sum
      (fun _ => pre) := by
  apply Run.Asks.foldlM (fun _ _ => pre)
  intro done x rest hSplit b
  exact hStep x (mem_of_later hSplit) b

theorem mapM_each
    {xs : List α}
    {f : α → Run ε β}
    {limit : α → Nat}
    (hStep :
      ∀ x ∈ xs, Run.Asks P pre (f x) (limit x) (fun _ => pre)) :
    Run.Asks P pre (xs.mapM f) (xs.map limit).sum
      (fun _ => pre) := by
  apply Run.Asks.mapM (fun _ _ => pre)
  intro done x rest hSplit bs
  exact hStep x (mem_of_later hSplit)

end Run.Asks

/- Whatever is on one side is related to something. -/
theorem exists_of_forall₂
    {α β : Type}
    {R : α → β → Prop}
    {xs : List α}
    {ys : List β}
    (hAll : List.Forall₂ R xs ys)
    {x : α}
    (hX : x ∈ xs) :
    ∃ y ∈ ys, R x y := by
  induction hAll with
  | nil => cases hX
  | cons hHead _ ih =>
      rcases List.mem_cons.1 hX with rfl | hX
      · exact ⟨_, List.mem_cons_self, hHead⟩
      · rcases ih hX with ⟨y, hY, hR⟩
        exact ⟨y, List.mem_cons_of_mem _ hY, hR⟩

------------------------------------------------------------
-- Ways of asking
------------------------------------------------------------

namespace Link

variable (link : Link)
variable {P : Request → Prop} {pre : Session → Prop}

theorem asks_checkCancelled :
    Run.Asks P pre link.checkCancelled 0 (fun _ => pre) := by
  refine .of_quiet ?_ (link.spec_checkCancelled pre)
  intro s
  rw [start_checkCancelled]
  split
  · rfl
  · rfl

/- A round trip is one request, or none if it is cancelled. -/
theorem asks_fetchMissing
    {request : Request}
    (hP : P request) :
    Run.Asks P pre (link.fetchMissing request) 1
      (fun _ _ => True) := by
  constructor
  intro s _
  rw [start_fetchMissing]
  split
  · exact ⟨[], (List.append_nil _).symm, Nat.zero_le 1,
      by simp, fun _ _ => trivial⟩
  · have hOne : ∀ r ∈ [request], P r := by
      intro r hR
      rw [List.mem_singleton.1 hR]
      exact hP
    split
    · exact ⟨[request], rfl, Nat.le_refl 1, hOne,
        fun _ _ => trivial⟩
    · exact ⟨[request],
        link.quiet_receive s.requests request (s.asking request),
        Nat.le_refl 1, hOne, fun _ _ => trivial⟩

/- What is missing is asked for in one request. -/
theorem asks_prefetch
    {cs : List Checksum}
    (hP :
      ∀ request : Request,
        (∀ c ∈ request, c ∈ cs ∧ c.isNull = false) →
          P request) :
    Run.Asks P pre (link.prefetch cs) 1 (fun _ _ => True) := by
  unfold prefetch
  apply Run.Asks.of_get.bindQuiet
  intro s
  dsimp only
  split
  · exact (Run.Asks.of_pure (fun _ _ => trivial)).le
      (Nat.zero_le 1)
  · apply (link.asks_fetchMissing (hP _ ?_)).bind (m := 0)
    · intro _
      exact Run.Asks.of_pure (fun _ _ => trivial)
    · intro c hC
      rcases Session.mem_missing.1 hC with ⟨hMem, hNull, -⟩
      exact ⟨hMem, hNull⟩

/- Nothing is asked for if nothing is missing. -/
theorem asks_prefetch_of_cached
    {cs : List Checksum}
    (hCached :
      ∀ s, pre s →
        ∀ c ∈ cs, c.isNull = false → s.isCached c = true) :
    Run.Asks P pre (link.prefetch cs) 0 (fun _ => pre) := by
  unfold prefetch
  apply Run.Asks.of_get.bindQuiet
  intro s
  apply Run.Asks.of_each
  rintro t ⟨rfl, hPre⟩
  dsimp only
  rw [Session.missing_eq_nil (hCached s hPre),
    if_pos List.isEmpty_nil]
  apply Run.Asks.of_pure
  rintro u rfl
  exact hPre

section Values

variable {α : Type} [AssetValue α]

theorem asks_get
    {c : Checksum}
    (hP : P [c]) :
    Run.Asks P pre (link.get c : Run AssetError α) 1
      (fun _ _ => True) := by
  unfold Link.get
  apply Run.Asks.of_get.bindQuiet
  intro s
  cases (s.lookup c : Except AssetError (Option α)) with
  | error e => exact (Run.Asks.of_throw_bind).le (Nat.zero_le 1)
  | ok found =>
      cases found with
      | some v =>
          exact (Run.Asks.of_quiet (fun _ => rfl)
            (Run.Spec.anything _)).le (Nat.zero_le 1)
      | none =>
          apply (link.asks_fetchMissing hP).bind (m := 0)
          intro _
          exact Run.Asks.of_quiet
            ((Run.quiet AssetError).cached (fun _ => rfl) c)
            (Run.Spec.anything _)

/- A value that is cached is not asked for. -/
theorem asks_get_of_cached
    {c : Checksum}
    (hCached : ∀ s, pre s → s.isCached c = true) :
    Run.Asks P pre (link.get c : Run AssetError α) 0
      (fun _ _ => True) := by
  unfold Link.get
  apply Run.Asks.of_get.bindQuiet
  intro s
  apply Run.Asks.of_each
  rintro t ⟨rfl, hPre⟩
  cases hFound : (s.lookup c : Except AssetError (Option α)) with
  | error e => exact Run.Asks.of_throw_bind
  | ok found =>
      cases found with
      | some v =>
          exact Run.Asks.of_quiet (fun _ => rfl)
            (Run.Spec.anything _)
      | none =>
          rcases Session.isCached_iff.1 (hCached s hPre) with
            ⟨a, hA⟩
          unfold Session.lookup at hFound
          rw [hA] at hFound
          dsimp only at hFound
          cases hValue : (a.value c : Except AssetError α) with
          | error e =>
              rw [hValue] at hFound
              cases hFound
          | ok v =>
              rw [hValue] at hFound
              cases hFound

variable [LawfulValue α]

omit link in
/- The values read are what is cached, one for each checksum. -/
theorem spec_mapM_cached
    (pre : Session → Prop)
    (cs : List Checksum) :
    Run.Spec pre
      (cs.mapM Run.cached : Run AssetError (List α))
      (fun vs s =>
        (∀ c ∈ cs, ∃ v ∈ vs,
          s.cache[c]? = some (AssetValue.toAsset v)) ∧
        (∀ v ∈ vs, ∃ c ∈ cs,
          s.cache[c]? = some (AssetValue.toAsset v)) ∧ pre s)
      (fun _ => True) := by
  apply Run.Spec.of_each
  intro s hPre
  have hEach :
      Run.Spec (fun t => t = s)
        (cs.mapM Run.cached : Run AssetError (List α))
        (fun vs t =>
          List.Forall₂
            (fun c v =>
              s.cache[c]? = some (AssetValue.toAsset v)) cs vs ∧
            t = s)
        (fun _ => True) := by
    apply Run.Spec.mapM
    intro c _
    apply (Run.spec_cached _ c).conseq (fun _ h => h) ?_
      (fun _ h => h)
    rintro v t ⟨hCached, rfl⟩
    exact ⟨hCached, rfl⟩
  apply hEach.conseq (fun _ h => h) ?_ (fun _ h => h)
  rintro vs t ⟨hCached, rfl⟩
  exact ⟨fun _ hC => exists_of_forall₂ hCached hC,
    fun _ hV => exists_of_forall₂ hCached.flip hV, hPre⟩

omit link in
theorem asks_mapM_cached
    (cs : List Checksum) :
    Run.Asks P pre
      (cs.mapM Run.cached : Run AssetError (List α)) 0
      (fun vs s =>
        (∀ c ∈ cs, ∃ v ∈ vs,
          s.cache[c]? = some (AssetValue.toAsset v)) ∧
        (∀ v ∈ vs, ∃ c ∈ cs,
          s.cache[c]? = some (AssetValue.toAsset v)) ∧
        pre s) :=
  .of_quiet
    ((Run.quiet AssetError).mapM
      (fun c => (Run.quiet AssetError).cached (fun _ => rfl) c))
    (spec_mapM_cached pre cs)

omit [LawfulValue α] in
theorem asks_getMany
    {cs : List Checksum}
    (hP :
      ∀ request : Request, (∀ c ∈ request, c ∈ cs) →
        P request) :
    Run.Asks P pre
      (link.getMany cs : Run AssetError (List (Checksum × α))) 1
      (fun _ _ => True) := by
  unfold getMany
  apply (link.asks_prefetch ?_).bind (m := 0)
  · intro _
    refine .of_quiet ?_ (Run.Spec.anything _)
    apply (Run.quiet AssetError).mapM
    intro c
    apply (Run.quiet AssetError).bind
    · exact (Run.quiet AssetError).cached (fun _ => rfl) c
    · intro v
      exact (Run.quiet AssetError).of_pure _
  · intro request hRequest
    apply hP
    intro c hC
    exact List.mem_eraseDups.1 (hRequest c hC).1

end Values

end Link

------------------------------------------------------------
-- Whole trees
------------------------------------------------------------

namespace Session

/-
  A document is stocked if it is cached with its attributes
  and its text; null checksums are never fetched in bulk.
-/
def StocksDocument
    (s : Session)
    (d : Checksum) : Prop :=
  s.isCached d = true ∧
    ∀ n : DocumentNode, s.cache[d]? = some (.documentNode n) →
      ∀ c ∈ [n.attributes, n.text], c.isNull = false →
        s.isCached c = true

/-
  A project is stocked if it is cached with its values, and
  all its documents are stocked.
-/
def StocksProject
    (s : Session)
    (p : Checksum) : Prop :=
  s.isCached p = true ∧
    ∀ n : ProjectNode, s.cache[p]? = some (.projectNode n) →
      (∀ c ∈ n.valueChildren, c.isNull = false →
        s.isCached c = true) ∧
      ∀ d ∈ n.allDocuments, s.StocksDocument d

variable {s t : Session}

/- What is stocked stays so. -/
theorem StocksDocument.later
    (hExtends : s.Extends t)
    {d : Checksum}
    (hStocks : s.StocksDocument d) :
    t.StocksDocument d := by
  refine ⟨hExtends.isCached hStocks.1, ?_⟩
  intro n hN c hC hNull
  exact hExtends.isCached
    (hStocks.2 n (hExtends.eq_of_isCached hStocks.1 hN) c hC hNull)

theorem StocksProject.later
    (hExtends : s.Extends t)
    {p : Checksum}
    (hStocks : s.StocksProject p) :
    t.StocksProject p := by
  refine ⟨hExtends.isCached hStocks.1, ?_⟩
  intro n hN
  rcases hStocks.2 n (hExtends.eq_of_isCached hStocks.1 hN) with
    ⟨hValues, hDocuments⟩
  exact ⟨fun c hC hNull => hExtends.isCached (hValues c hC hNull),
    fun d hD => (hDocuments d hD).later hExtends⟩

end Session

namespace Link

variable (link : Link)
variable {P : Request → Prop} {pre : Session → Prop}

/- The attributes and texts that are missing are one request. -/
theorem asks_fetchLeaves
    {documents : List Checksum}
    (hP :
      ∀ s, pre s → ∀ request : Request,
        (∀ c ∈ request, ∃ d ∈ documents, ∃ n : DocumentNode,
          s.cache[d]? = some (.documentNode n) ∧
            c ∈ [n.attributes, n.text]) →
          P request) :
    Run.Asks P pre (link.fetchLeaves documents) 1
      (fun _ _ => True) := by
  unfold fetchLeaves
  apply Run.Asks.of_each
  intro s hPre
  apply (asks_mapM_cached documents).bindQuiet
  intro nodes
  apply Run.Asks.of_each
  rintro _ ⟨-, hNodes, rfl⟩
  apply (link.asks_prefetch ?_).bind (m := 0)
  · intro _
    exact Run.Asks.of_pure (fun _ _ => trivial)
  · intro request hRequest
    apply hP _ hPre
    intro c hC
    rcases List.mem_flatMap.1 (hRequest c hC).1 with ⟨n, hN, hLeaf⟩
    rcases hNodes n hN with ⟨d, hD, hCached⟩
    exact ⟨d, hD, n, hCached, hLeaf⟩

theorem asks_fetchLeaves_of_stocked
    {documents : List Checksum}
    (hStocks :
      ∀ s, pre s → ∀ d ∈ documents, s.StocksDocument d) :
    Run.Asks P pre (link.fetchLeaves documents) 0
      (fun _ => pre) := by
  unfold fetchLeaves
  apply (asks_mapM_cached documents).bindQuiet
  intro nodes
  apply (link.asks_prefetch_of_cached ?_).bindQuiet
  · intro _
    exact Run.Asks.of_pure (fun _ h => h.2.2)
  · rintro s ⟨-, hNodes, hPre⟩ c hC hNull
    rcases List.mem_flatMap.1 hC with ⟨n, hN, hLeaf⟩
    rcases hNodes n hN with ⟨d, hD, hCached⟩
    exact (hStocks s hPre d hD).2 n hCached c hLeaf hNull

/- Documents whose nodes are cached need one request. -/
theorem asks_fetchDocuments_of_cached
    {documents : List Checksum}
    (hCached :
      ∀ s, pre s → ∀ d ∈ documents, s.isCached d = true)
    (hP :
      ∀ s, pre s → ∀ request : Request,
        (∀ c ∈ request, ∃ d ∈ documents, ∃ n : DocumentNode,
          s.cache[d]? = some (.documentNode n) ∧
            c ∈ [n.attributes, n.text]) →
          P request) :
    Run.Asks P pre (link.fetchDocuments documents) 1
      (fun _ _ => True) := by
  unfold fetchDocuments
  split
  · exact (Run.Asks.of_pure (fun _ _ => trivial)).le
      (Nat.zero_le 1)
  · apply (link.asks_prefetch_of_cached
      (fun s hPre d hD _ => hCached s hPre d hD)).bindQuiet
    intro _
    exact link.asks_fetchLeaves hP

/- Documents that are stocked need none. -/
theorem asks_fetchDocuments_of_stocked
    {documents : List Checksum}
    (hStocks :
      ∀ s, pre s → ∀ d ∈ documents, s.StocksDocument d) :
    Run.Asks P pre (link.fetchDocuments documents) 0
      (fun _ => pre) := by
  unfold fetchDocuments
  split
  · exact Run.Asks.of_pure (fun _ h => h)
  · apply (link.asks_prefetch_of_cached
      (fun s hPre d hD _ => (hStocks s hPre d hD).1)).bindQuiet
    intro _
    exact link.asks_fetchLeaves_of_stocked hStocks

/- Below the nodes of projects there are two levels. -/
theorem asks_fetchProjects
    {projects : List Checksum}
    {n : Nat}
    (hNodes :
      Run.Asks P pre (link.prefetch projects) n
        (fun _ _ => True))
    (hP : ∀ request : Request, P request) :
    Run.Asks P pre (link.fetchProjects projects) (n + 2)
      (fun _ _ => True) := by
  unfold fetchProjects
  split
  · exact (Run.Asks.of_pure (fun _ _ => trivial)).le
      (Nat.zero_le _)
  · apply hNodes.bind
    intro _
    apply (asks_mapM_cached projects).bindQuiet
    intro nodes
    apply (link.asks_prefetch (fun _ _ => hP _)).bind (m := 1)
    intro _
    exact link.asks_fetchLeaves (fun _ _ _ _ => hP _)

/- Projects that are stocked need nothing. -/
theorem asks_fetchProjects_of_stocked
    {projects : List Checksum}
    (hStocks :
      ∀ s, pre s → ∀ p ∈ projects, s.StocksProject p) :
    Run.Asks P pre (link.fetchProjects projects) 0
      (fun _ => pre) := by
  unfold fetchProjects
  split
  · exact Run.Asks.of_pure (fun _ h => h)
  · apply (link.asks_prefetch_of_cached
      (fun s hPre p hP _ => (hStocks s hPre p hP).1)).bindQuiet
    intro _
    apply (asks_mapM_cached projects).bindQuiet
    intro nodes
    -- Every node read is that of a project that is stocked.
    have hEach :
        ∀ s : Session, (∀ n ∈ nodes, ∃ p ∈ projects,
            s.cache[p]? = some (AssetValue.toAsset n)) →
          pre s → ∀ n ∈ nodes,
            (∀ c ∈ n.valueChildren, c.isNull = false →
              s.isCached c = true) ∧
            ∀ d ∈ n.allDocuments, s.StocksDocument d := by
      intro s hNodes hPre n hN
      rcases hNodes n hN with ⟨p, hP, hCached⟩
      exact (hStocks s hPre p hP).2 n hCached
    apply (link.asks_prefetch_of_cached ?_).bindQuiet
    · intro _
      refine (link.asks_fetchLeaves_of_stocked ?_).weaken
        (fun _ h => h) (fun _ _ h => h.2.2)
      rintro s ⟨-, hNodes, hPre⟩ d hD
      rcases List.mem_flatMap.1 hD with ⟨n, hN, hMem⟩
      exact (hEach s hNodes hPre n hN).2 d hMem
    · rintro s ⟨-, hNodes, hPre⟩ c hC hNull
      rcases List.mem_append.1 hC with hC | hC
      · rcases List.mem_flatMap.1 hC with ⟨n, hN, hMem⟩
        exact (hEach s hNodes hPre n hN).1 c hMem hNull
      · rcases List.mem_flatMap.1 hC with ⟨n, hN, hMem⟩
        exact ((hEach s hNodes hPre n hN).2 c hMem).1

/- Documents whose leaves were fetched are stocked. -/
theorem spec_fetchLeaves
    (documents : List Checksum) :
    Run.Spec (fun _ => True) (link.fetchLeaves documents)
      (fun _ t => ∀ d ∈ documents, t.StocksDocument d)
      (fun _ => True) := by
  unfold fetchLeaves
  apply (spec_mapM_cached _ documents).bind
  intro nodes
  apply Run.Spec.of_each
  rintro s ⟨hDocuments, -, -⟩
  apply ((link.carries_extends.leads_prefetch _).post
    (link.spec_prefetch_isCached _)).bind
  intro _
  apply Run.Spec.of_pure
  rintro t ⟨hLater, hLeaves⟩ d hD
  rcases hDocuments d hD with ⟨n, hN, hCached⟩
  have hThere := hLater d _ hCached
  refine ⟨Session.isCached_of_eq_some hThere, ?_⟩
  intro n' hN' c hC hNull
  rw [hThere] at hN'
  have hSame : n = n' := by
    simpa [AssetValue.toAsset] using hN'
  subst hSame
  exact hLeaves c (List.mem_flatMap.2 ⟨n, hN, hC⟩) hNull

/- So are documents whose trees were fetched. -/
theorem spec_fetchDocuments
    (documents : List Checksum) :
    Run.Spec (fun _ => True) (link.fetchDocuments documents)
      (fun _ t => ∀ d ∈ documents, t.StocksDocument d)
      (fun _ => True) := by
  unfold fetchDocuments
  split
  · next hNone =>
      apply Run.Spec.of_pure
      intro s _ d hD
      rw [List.isEmpty_iff.1 hNone] at hD
      cases hD
  · apply (Run.Spec.anything _).bind
    intro _
    exact (link.spec_fetchLeaves documents).conseq
      (fun _ _ => trivial) (fun _ _ h => h) (fun _ h => h)

/- Projects whose trees were fetched are stocked. -/
theorem spec_fetchProjects
    (projects : List Checksum) :
    Run.Spec (fun _ => True) (link.fetchProjects projects)
      (fun _ t => ∀ p ∈ projects, t.StocksProject p)
      (fun _ => True) := by
  unfold fetchProjects
  split
  · next hNone =>
      apply Run.Spec.of_pure
      intro s _ p hP
      rw [List.isEmpty_iff.1 hNone] at hP
      cases hP
  · apply (Run.Spec.anything _).bind
    intro _
    apply (spec_mapM_cached _ projects).bind
    intro nodes
    apply Run.Spec.of_each
    rintro s ⟨hProjects, -, -⟩
    apply ((link.carries_extends.leads_prefetch _).post
      (link.spec_prefetch_isCached _)).bind
    intro _
    apply Run.Spec.of_each
    rintro t ⟨hFirst, hValues⟩
    have hLeads :
        Run.Leads Session.Extends (link.fetchLeaves
          (nodes.flatMap ProjectNode.allDocuments)) :=
      link.carries_extends.comparison.fetchLeaves _
    apply (hLeads.post (link.spec_fetchLeaves _)).conseq
      (fun _ h => h) ?_ (fun _ h => h)
    rintro _ u ⟨hLater, hDocuments⟩ p hP
    rcases hProjects p hP with ⟨n, hN, hCached⟩
    have hThere := hLater p _ (hFirst p _ hCached)
    refine ⟨Session.isCached_of_eq_some hThere, ?_⟩
    intro n' hN'
    rw [hThere] at hN'
    have hSame : n = n' := by
      simpa [AssetValue.toAsset] using hN'
    subst hSame
    constructor
    · intro c hC hNull
      apply hLater.isCached
      exact hValues c
        (List.mem_append_left _ (List.mem_flatMap.2 ⟨n, hN, hC⟩))
        hNull
    · intro d hD
      exact hDocuments d (List.mem_flatMap.2 ⟨n, hN, hD⟩)

------------------------------------------------------------
-- What is asked for exactly
------------------------------------------------------------

section Exactly

variable {s : Session}

omit link in
/- A value that is cached is read. -/
theorem start_cached
    {α : Type}
    [AssetValue α]
    [LawfulValue α]
    {c : Checksum}
    {v : α}
    (hCached : s.cache[c]? = some (AssetValue.toAsset v)) :
    (Run.cached c : Run AssetError α).start s = (.ok v, s) := by
  unfold Run.cached
  simp only [Run.start_bind, Run.start_get,
    Session.lookup_eq_some_iff.2 hCached, Run.ofExcept,
    Run.start_pure]

omit link in
/- So are all values of a list. -/
theorem start_mapM_cached
    {α : Type}
    [AssetValue α]
    [LawfulValue α]
    {key : α → Checksum}
    {vs : List α}
    (hCached :
      ∀ v ∈ vs, s.cache[key v]? = some (AssetValue.toAsset v)) :
    ((vs.map key).mapM Run.cached : Run AssetError (List α)).start
        s = (.ok vs, s) := by
  induction vs with
  | nil => rfl
  | cons v vs ih =>
      have hRest :=
        ih (fun w hW => hCached w (List.mem_cons_of_mem _ hW))
      rw [List.map_cons, List.mapM_cons,
        Run.start_bind_of_ok
          (start_cached (hCached v List.mem_cons_self)),
        Run.start_bind_of_ok hRest]
      rfl

theorem start_prefetch_of_cached
    {cs : List Checksum}
    (hCached :
      ∀ c ∈ cs, c.isNull = false → s.isCached c = true) :
    (link.prefetch cs).start s = (.ok 0, s) := by
  unfold prefetch
  rw [Run.start_bind_of_ok (Run.start_get s),
    Session.missing_eq_nil hCached]
  rfl

variable {link} (hNever : link.cancellation = .never)

include hNever

/- Whoever never gives up asks for all that is missing. -/
theorem requests_prefetch
    (cs : List Checksum) :
    ((link.prefetch cs).start s).2.requests =
      s.requests ++
        (if s.missing cs = [] then [] else [s.missing cs]) := by
  split
  · next hNone =>
      unfold prefetch
      rw [Run.start_bind_of_ok (Run.start_get s), hNone,
        List.append_nil]
      rfl
  · next hSome =>
      have hTrip :
          ((link.fetchMissing (s.missing cs)).start
              s).2.requests =
            s.requests ++ [s.missing cs] := by
        rw [start_fetchMissing, hNever]
        exact link.quiet_receive s.requests _ _
      unfold prefetch
      rw [Run.start_bind_of_ok (Run.start_get s)]
      dsimp only
      rw [if_neg (fun h => hSome (List.isEmpty_iff.1 h)),
        Run.start_bind, ← hTrip]
      generalize (link.fetchMissing _).start s = fetched
      cases fetched with
      | mk result t => cases result <;> rfl

/-
  Documents whose nodes are cached are one request for all that
  is missing of what they name.
-/
theorem requests_fetchDocuments
    {ns : List DocumentNode}
    (hSome : ns ≠ [])
    (hCached :
      ∀ n ∈ ns,
        s.cache[n.checksum]? = some (.documentNode n)) :
    let missing :=
      s.missing (ns.flatMap (fun n => [n.attributes, n.text]))
    ((link.fetchDocuments (ns.map DocumentNode.checksum)).start
        s).2.requests =
      s.requests ++
        (if missing = [] then [] else [missing]) := by
  intro missing
  have hNodes :
      (link.prefetch (ns.map DocumentNode.checksum)).start s =
        (.ok 0, s) := by
    apply start_prefetch_of_cached
    intro c hC _
    rcases List.mem_map.1 hC with ⟨n, hN, rfl⟩
    exact Session.isCached_of_eq_some (hCached n hN)
  have hNotEmpty :
      (ns.map DocumentNode.checksum).isEmpty = false := by
    simpa using hSome
  have hPrefetch :=
    requests_prefetch hNever (s := s)
      (ns.flatMap (fun n => [n.attributes, n.text]))
  unfold fetchDocuments fetchLeaves
  rw [hNotEmpty]
  change ((link.prefetch (ns.map DocumentNode.checksum) >>=
    fun _ => _).start s).2.requests = _
  rw [Run.start_bind_of_ok hNodes,
    Run.start_bind_of_ok (start_mapM_cached hCached),
    Run.start_bind, ← hPrefetch]
  cases (link.prefetch
      (ns.flatMap (fun n => [n.attributes, n.text]))).start
        s with
  | mk result t => cases result <;> rfl

end Exactly

end Link

end SnapTree
