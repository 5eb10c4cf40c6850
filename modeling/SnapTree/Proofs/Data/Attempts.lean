import Mathlib.Tactic.Common

/-
  This file proves how attempts are carried out: computations
  that may fail, where what they did until then remains.

  Key definitions include:
    * `outcome`

  Key theorems include:
    * `outcome_bind`
    * `outcome_bind_eq_ok`
    * `outcome_bind_eq_error`
    * `outcome_forM_cons`
-/

namespace SnapTree

variable {σ ε α β : Type}

/- What an attempt results in, and the state it leaves. -/
def outcome
    (x : ExceptT ε (StateM σ) α)
    (u : σ) : Except ε α × σ :=
  (ExceptT.run x).run u

theorem outcome_bind
    (x : ExceptT ε (StateM σ) α)
    (f : α → ExceptT ε (StateM σ) β)
    (u : σ) :
    outcome (x >>= f) u =
      match outcome x u with
      | (.ok a, v) => outcome (f a) v
      | (.error e, v) => (.error e, v) := by
  change
    (ExceptT.bindCont f (outcome x u).1).run (outcome x u).2 = _
  cases outcome x u with
  | mk result v => cases result <;> rfl

/- Two attempts go well one after the other. -/
theorem outcome_bind_eq_ok
    {x : ExceptT ε (StateM σ) α}
    {f : α → ExceptT ε (StateM σ) β}
    {u w : σ}
    {b : β}
    (hOk : outcome (x >>= f) u = (.ok b, w)) :
    ∃ a v, outcome x u = (.ok a, v) ∧
      outcome (f a) v = (.ok b, w) := by
  rw [outcome_bind] at hOk
  cases hFirst : outcome x u with
  | mk result v =>
      rw [hFirst] at hOk
      cases result with
      | error e => cases congrArg Prod.fst hOk
      | ok a => exact ⟨a, v, rfl, hOk⟩

/- An attempt fails that goes on with one that always fails. -/
theorem outcome_bind_eq_error
    {f : α → ExceptT ε (StateM σ) β}
    (hFails : ∀ a v, ∃ e w, outcome (f a) v = (.error e, w))
    (x : ExceptT ε (StateM σ) α)
    (u : σ) :
    ∃ e w, outcome (x >>= f) u = (.error e, w) := by
  rw [outcome_bind]
  cases outcome x u with
  | mk result v =>
      cases result with
      | error e => exact ⟨e, v, rfl⟩
      | ok a => exact hFails a v

@[simp]
theorem outcome_pure
    (a : α)
    (u : σ) :
    outcome (pure a : ExceptT ε (StateM σ) α) u = (.ok a, u) :=
  rfl

@[simp]
theorem outcome_throw
    (e : ε)
    (u : σ) :
    outcome (throw e : ExceptT ε (StateM σ) α) u =
      (.error e, u) :=
  rfl

@[simp]
theorem outcome_get
    (u : σ) :
    outcome (get : ExceptT ε (StateM σ) σ) u = (.ok u, u) :=
  rfl

/- After a failure, no further item is tried. -/
theorem outcome_forM_cons
    (x : β)
    (xs : List β)
    (f : β → ExceptT ε (StateM σ) Unit)
    (u : σ) :
    outcome ((x :: xs).forM f) u =
      match outcome (f x) u with
      | (.ok _, v) => outcome (xs.forM f) v
      | (.error e, v) => (.error e, v) := by
  have hCons :
      (x :: xs).forM f = f x >>= fun _ => xs.forM f :=
    rfl
  rw [hCons, outcome_bind]
  cases outcome (f x) u with
  | mk result v => cases result <;> rfl

end SnapTree
