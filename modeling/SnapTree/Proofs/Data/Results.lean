import Mathlib.Logic.Basic

/-
  This file proves facts about chains of computations that may
  fail: a chain succeeds exactly if every link of it does.

  Key theorems include:
    * `bind_eq_ok_iff`
    * `ite_eq_ok_iff`
    * `mapError_eq_ok_iff`
    * `mapM_eq_ok`
    * `exists_of_mem_mapM`
-/

namespace SnapTree

variable {ε α β : Type}

/- Two steps succeed if the first does and then the second. -/
theorem bind_eq_ok_iff
    {x : Except ε α}
    {f : α → Except ε β}
    {b : β} :
    (x >>= f) = .ok b ↔ ∃ a, x = .ok a ∧ f a = .ok b := by
  cases x with
  | error e =>
      constructor
      · intro hOk
        cases hOk
      · rintro ⟨a, hA, -⟩
        cases hA
  | ok a =>
      constructor
      · intro hOk
        exact ⟨a, rfl, hOk⟩
      · rintro ⟨a', hA, hOk⟩
        rw [Except.ok.inj hA]
        exact hOk

/- What is given on a condition is given if the condition holds. -/
theorem ite_eq_ok_iff
    {p : Prop}
    [Decidable p]
    {a b : α}
    {e : ε} :
    (if p then .ok a else .error e : Except ε α) = .ok b ↔
      p ∧ b = a := by
  split
  · next hP =>
      constructor
      · intro hOk
        exact ⟨hP, (Except.ok.inj hOk).symm⟩
      · rintro ⟨-, rfl⟩
        rfl
  · next hNot =>
      constructor
      · intro hOk
        cases hOk
      · rintro ⟨hP, -⟩
        exact absurd hP hNot

/- It makes no difference to success how errors are shown. -/
theorem mapError_eq_ok_iff
    {ε' : Type}
    {f : ε → ε'}
    {x : Except ε α}
    {a : α} :
    x.mapError f = .ok a ↔ x = .ok a := by
  cases x with
  | error e => exact ⟨nofun, nofun⟩
  | ok b =>
      constructor
      · exact fun h => congrArg Except.ok (Except.ok.inj h)
      · exact fun h => congrArg Except.ok (Except.ok.inj h)

/- Items that all give what is expected give it in their order. -/
theorem mapM_eq_ok
    {f : α → Except ε β}
    {g : α → β}
    {xs : List α}
    (hEach : ∀ x ∈ xs, f x = .ok (g x)) :
    xs.mapM f = .ok (xs.map g) := by
  induction xs with
  | nil => rfl
  | cons x xs ih =>
      have hRest : xs.mapM f = .ok (xs.map g) :=
        ih (fun y hY => hEach y (List.mem_cons_of_mem _ hY))
      rw [List.mapM_cons, hEach x List.mem_cons_self, hRest]
      rfl

/- What items give is given by some of them. -/
theorem exists_of_mem_mapM
    {f : α → Except ε β}
    {xs : List α}
    {ys : List β}
    (hOk : xs.mapM f = .ok ys)
    {y : β}
    (hMem : y ∈ ys) :
    ∃ x ∈ xs, f x = .ok y := by
  induction xs generalizing ys with
  | nil =>
      rw [← Except.ok.inj hOk] at hMem
      cases hMem
  | cons x xs ih =>
      rw [List.mapM_cons] at hOk
      rcases bind_eq_ok_iff.1 hOk with ⟨first, hFirst, hOk⟩
      rcases bind_eq_ok_iff.1 hOk with ⟨rest, hRest, hOk⟩
      rw [← Except.ok.inj hOk] at hMem
      rcases List.mem_cons.1 hMem with hSame | hLater
      · rw [hSame]
        exact ⟨x, List.mem_cons_self, hFirst⟩
      · rcases ih hRest hLater with ⟨other, hOther, hGives⟩
        exact ⟨other, List.mem_cons_of_mem x hOther, hGives⟩

end SnapTree
