import SnapTree.Exchange.Provider
import SnapTree.Proofs.Exchange.RunSpec

/-
  This file defines when two links can be compared: what is
  done alike in each step is alike as a whole.  So whatever is
  to be said of two runs of one computation, or of one run and
  the sessions around it, has to be proved for single steps
  only.

  Key definitions include:
    * `Run.Congruence`
    * `Link.Comparison`

  Key theorems include:
    * `Run.Congruence.mapM`
    * `Run.Congruence.foldlM`
    * `Link.Comparison.fetchProjects`
    * `Link.Comparison.ofRoundTrips`
-/

namespace SnapTree

------------------------------------------------------------
-- Computations that are alike
------------------------------------------------------------

/-
  A relation that every value and every failure has to itself,
  and that computations have whose steps have it.
-/
structure Run.Congruence (ε : Type) where
  Alike : ∀ {α : Type}, Run ε α → Run ε α → Prop
  of_pure : ∀ {α : Type} (a : α), Alike (pure a) (pure a)
  of_throw :
    ∀ {α : Type} (e : ε), Alike (throw e : Run ε α) (throw e)
  bind :
    ∀ {α β : Type} {r r' : Run ε α} {f f' : α → Run ε β},
      Alike r r' → (∀ a, Alike (f a) (f' a)) →
        Alike (r >>= f) (r' >>= f')

namespace Run.Congruence

variable {ε α β : Type} (G : Run.Congruence ε)

theorem ofExcept
    (x : Except ε α) :
    G.Alike (Run.ofExcept x) (Run.ofExcept x) := by
  cases x with
  | ok a => exact G.of_pure a
  | error e => exact G.of_throw e

/- After a failure it does not matter what would follow. -/
theorem of_throw_bind
    (e : ε)
    (f f' : α → Run ε β) :
    G.Alike ((throw e : Run ε α) >>= f) (throw e >>= f') :=
  G.of_throw e

theorem discarding
    {r r' : Run ε α}
    (hAlike : G.Alike r r') :
    G.Alike (discard r) (discard r') :=
  G.bind hAlike (fun _ => G.of_pure ())

theorem mapping
    {r r' : Run ε α}
    (f : α → β)
    (hAlike : G.Alike r r') :
    G.Alike (f <$> r) (f <$> r') := by
  rw [map_eq_pure_bind, map_eq_pure_bind]
  exact G.bind hAlike (fun a => G.of_pure (f a))

/- What was given does not matter to what follows. -/
theorem bindDiscard
    {r r' : Run ε α}
    {f f' : Run ε β}
    (hAlike : G.Alike (discard r) (discard r'))
    (hThen : G.Alike f f') :
    G.Alike (r >>= fun _ => f) (r' >>= fun _ => f') := by
  have hSame :
      ∀ (r : Run ε α) (f : Run ε β),
        (r >>= fun _ => f) = (discard r >>= fun _ => f) := by
    intro r f
    simp [discard, Functor.discard, map_const]
  rw [hSame, hSame]
  exact G.bind hAlike (fun _ => hThen)

/- What follows a step that may be left out. -/
theorem bindWhen
    {p p' : Prop}
    [Decidable p]
    [Decidable p']
    {r r' : Run ε Unit}
    {f f' : Unit → Run ε β}
    (hStep :
      G.Alike (if p then r else pure ())
        (if p' then r' else pure ()))
    (hThen : G.Alike (f ()) (f' ())) :
    G.Alike (if p then r >>= f else f ())
      (if p' then r' >>= f' else f' ()) := by
  have hSame :
      ∀ (p : Prop) [Decidable p] (r : Run ε Unit)
        (f : Unit → Run ε β),
        (if p then r >>= f else f ()) =
          (if p then r else pure ()) >>= f := by
    intro p _ r f
    split
    · rfl
    · rw [pure_bind]
  rw [hSame, hSame]
  exact G.bind hStep (fun _ => hThen)

theorem of_check
    (p : Prop)
    [Decidable p]
    (e : ε) :
    G.Alike (if p then throw e else pure () : Run ε Unit)
      (if p then throw e else pure ()) := by
  split
  · exact G.of_throw e
  · exact G.of_pure ()

/- What follows a step in whose place a value may stand. -/
theorem bindStep
    {p : Prop}
    [Decidable p]
    {r r' : Run ε α}
    {a : α}
    {f f' : α → Run ε β}
    (hStep : G.Alike r r')
    (hThen : ∀ a, G.Alike (f a) (f' a)) :
    G.Alike (if p then r >>= f else pure a >>= f)
      (if p then r' >>= f' else pure a >>= f') := by
  split
  · exact G.bind hStep hThen
  · exact G.bind (G.of_pure a) hThen

/- What follows two steps in whose place a value may stand. -/
theorem bindChange
    {γ : Type}
    {p : Prop}
    [Decidable p]
    {r r' : Run ε α}
    {change change' : α → Run ε β}
    {b : β}
    {f f' : β → Run ε γ}
    (hFirst : G.Alike r r')
    (hChange : ∀ a, G.Alike (change a) (change' a))
    (hThen : ∀ b, G.Alike (f b) (f' b)) :
    G.Alike
      (if p then r >>= (fun a => change a >>= f)
        else pure b >>= f)
      (if p then r' >>= (fun a => change' a >>= f')
        else pure b >>= f') := by
  split
  · exact G.bind hFirst (fun a => G.bind (hChange a) hThen)
  · exact G.bind (G.of_pure b) hThen

theorem forM
    {xs : List α}
    {f f' : α → Run ε PUnit}
    (hStep : ∀ x ∈ xs, G.Alike (f x) (f' x)) :
    G.Alike (xs.forM f) (xs.forM f') := by
  induction xs with
  | nil => exact G.of_pure _
  | cons x xs ih =>
      apply G.bind (hStep x List.mem_cons_self)
      intro _
      exact ih (fun y hY => hStep y (List.mem_cons_of_mem _ hY))

theorem mapM
    {xs : List α}
    {f f' : α → Run ε β}
    (hStep : ∀ x, G.Alike (f x) (f' x)) :
    G.Alike (xs.mapM f) (xs.mapM f') := by
  induction xs with
  | nil => exact G.of_pure _
  | cons x xs ih =>
      rw [List.mapM_cons, List.mapM_cons]
      apply G.bind (hStep x)
      intro b
      apply G.bind ih
      intro bs
      exact G.of_pure _

theorem foldlM
    {xs : List α}
    {f f' : β → α → Run ε β}
    (b : β)
    (hStep : ∀ b x, G.Alike (f b x) (f' b x)) :
    G.Alike (xs.foldlM f b) (xs.foldlM f' b) := by
  induction xs generalizing b with
  | nil => exact G.of_pure b
  | cons x xs ih =>
      rw [List.foldlM_cons, List.foldlM_cons]
      exact G.bind (hStep b x) (fun c => ih c)

end Run.Congruence

------------------------------------------------------------
-- Links that are alike
------------------------------------------------------------

/-
  Two links can be compared if the single ways of asking them
  are alike, and the steps beside them.
-/
structure Link.Comparison (first second : Link) where
  assets : Run.Congruence AssetError
  checkCancelled :
    assets.Alike first.checkCancelled second.checkCancelled
  cached :
    ∀ {α : Type} [AssetValue α] (c : Checksum),
      assets.Alike (Run.cached c : Run AssetError α)
        (Run.cached c)
  get :
    ∀ {α : Type} [AssetValue α] (c : Checksum),
      assets.Alike (first.get c : Run AssetError α)
        (second.get c)
  prefetch :
    ∀ cs : List Checksum,
      assets.Alike (discard (first.prefetch cs))
        (discard (second.prefetch cs))

namespace Link.Comparison

variable {first second : Link} (C : first.Comparison second)

theorem getMany
    {α : Type}
    [AssetValue α]
    (cs : List Checksum) :
    C.assets.Alike
      (first.getMany cs : Run AssetError (List (Checksum × α)))
      (second.getMany cs) := by
  unfold Link.getMany
  apply C.assets.bindDiscard (C.prefetch _)
  apply C.assets.mapM
  intro c
  apply C.assets.bind (C.cached c)
  intro value
  exact C.assets.of_pure _

theorem fetchLeaves
    (documents : List Checksum) :
    C.assets.Alike (first.fetchLeaves documents)
      (second.fetchLeaves documents) := by
  unfold Link.fetchLeaves
  apply C.assets.bind
  · exact C.assets.mapM (fun c => C.cached c)
  · intro nodes
    apply C.assets.bindDiscard (C.prefetch _)
    exact C.assets.of_pure _

theorem fetchDocuments
    (documents : List Checksum) :
    C.assets.Alike (first.fetchDocuments documents)
      (second.fetchDocuments documents) := by
  unfold Link.fetchDocuments
  split
  · exact C.assets.of_pure _
  · apply C.assets.bindDiscard (C.prefetch _)
    exact C.fetchLeaves _

theorem fetchProjects
    (projects : List Checksum) :
    C.assets.Alike (first.fetchProjects projects)
      (second.fetchProjects projects) := by
  unfold Link.fetchProjects
  split
  · exact C.assets.of_pure _
  · apply C.assets.bindDiscard (C.prefetch _)
    apply C.assets.bind
    · exact C.assets.mapM (fun c => C.cached c)
    · intro nodes
      apply C.assets.bindDiscard (C.prefetch _)
      exact C.fetchLeaves _

end Link.Comparison

section RoundTrips

variable
  {first second : Link}
  (G : Run.Congruence AssetError)
  (hRead :
    G.Alike (MonadState.get : Run AssetError Session)
      MonadState.get)

include hRead

/- A look-up is alike if it is alike to look at the session. -/
theorem Run.Congruence.cached
    {α : Type}
    [AssetValue α]
    (c : Checksum) :
    G.Alike (Run.cached c : Run AssetError α)
      (Run.cached c) := by
  apply G.bind hRead
  intro s
  apply G.bind (G.ofExcept _)
  intro found
  cases found with
  | some v => exact G.of_pure v
  | none => exact G.of_throw _

variable
  (hTrip :
    ∀ request : Request,
      G.Alike (first.fetchMissing request)
        (second.fetchMissing request))

include hTrip

theorem Run.Congruence.prefetch
    (cs : List Checksum) :
    G.Alike (first.prefetch cs) (second.prefetch cs) := by
  apply G.bind hRead
  intro s
  dsimp only
  split
  · exact G.of_pure _
  · apply G.bind (hTrip _)
    intro _
    exact G.of_pure _

variable
  (hCount :
    ∀ f : Session → FetchCounts,
      (∀ s, (f s).roundTrips = s.counts.roundTrips) →
        G.Alike (modify (fun s => { s with counts := f s }))
          (modify (fun s => { s with counts := f s })))

include hCount

theorem Run.Congruence.get
    {α : Type}
    [AssetValue α]
    (c : Checksum) :
    G.Alike (first.get c : Run AssetError α)
      (second.get c) := by
  apply G.bind hRead
  intro s
  apply G.bind (G.ofExcept _)
  intro found
  cases found with
  | some v =>
      have hHit := hCount
        (fun s =>
          { s.counts with cacheHits := s.counts.cacheHits + 1 })
        (fun _ => rfl)
      exact G.bind hHit (fun _ => G.of_pure v)
  | none =>
      apply G.bind (hTrip [c])
      intro _
      exact G.cached hRead c

/-
  Links can be compared if single round trips are alike, and
  if it is alike to look at the session and to count whatever
  else there is to count.
-/
def Link.Comparison.ofRoundTrips
    (hCancel :
      G.Alike first.checkCancelled second.checkCancelled) :
    first.Comparison second where
  assets := G
  checkCancelled := hCancel
  cached := G.cached hRead
  get := G.get hRead hTrip hCount
  prefetch cs := G.discarding (G.prefetch hRead hTrip cs)

end RoundTrips

end SnapTree
