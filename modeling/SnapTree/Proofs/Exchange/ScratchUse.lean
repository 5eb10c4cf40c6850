import SnapTree.Proofs.Exchange.ScratchPool

/-
  This file follows a pool of scratch sets through all that its
  users do: they take sets out, put checksums into them, give
  them back, work out differences and drop these, all in any
  order.  The pool knows at any time how many sets are out, it
  keeps no more than it may, and no user ever meets what
  another one left behind.

  Key definitions include:
    * `ScratchUse`
    * `ScratchStep`
    * `ScratchUse.step`
    * `ScratchUse.run`
    * `ScratchUse.Orderly`

  Key theorems include:
    * `ScratchUse.Orderly.step`
    * `ScratchUse.Orderly.run`
    * `ScratchUse.run_leaks_nothing`
-/

namespace SnapTree

------------------------------------------------------------
-- A pool and its users
------------------------------------------------------------

/- A difference that is in use, and the lists that it is of. -/
structure LiveDiff where
  old : List Checksum
  new : List Checksum
  sets : CollectionDiff

/- A pool, the sets that are held and the differences in use. -/
structure ScratchUse where
  pool : ScratchPool
  held : List ChecksumSet
  diffs : List LiveDiff

/-
  What the users of a pool can do.  The sets held and the
  differences in use are told by their positions.
-/
inductive ScratchStep where
  | acquire
  | insert (position : Nat) (c : Checksum)
  | release (position : Nat)
  | diff (old new : List Checksum)
  | drop (position : Nat)

namespace ScratchUse

/- A new pool that nothing was taken out of. -/
def ofMaxRetained
    (maxRetained : Nat) : ScratchUse :=
  ⟨.ofMaxRetained maxRetained, [], []⟩

/- One thing is done; where nothing is, nothing happens. -/
def step
    (u : ScratchUse) : ScratchStep → ScratchUse
  | .acquire =>
      { u with
        pool := u.pool.acquire.2
        held := u.held ++ [u.pool.acquire.1] }
  | .insert position c =>
      { u with
        held := u.held.modify position (fun s => s.insert c) }
  | .release position =>
      match u.held[position]? with
      | none => u
      | some s =>
          { u with
            pool := u.pool.release s
            held := u.held.eraseIdx position }
  | .diff old new =>
      { u with
        pool := (u.pool.diff old new).2
        diffs := u.diffs ++ [⟨old, new, (u.pool.diff old new).1⟩] }
  | .drop position =>
      match u.diffs[position]? with
      | none => u
      | some d =>
          { u with
            pool := u.pool.releaseDiff d.sets
            diffs := u.diffs.eraseIdx position }

/- Any number of things are done, one after another. -/
def run
    (u : ScratchUse)
    (steps : List ScratchStep) : ScratchUse :=
  steps.foldl step u

end ScratchUse

------------------------------------------------------------
-- What the pool itself does
------------------------------------------------------------

namespace ScratchPool

/- As many sets are kept as may be, or fewer. -/
def IsWithin
    (p : ScratchPool)
    (maxRetained : Nat) : Prop :=
  p.maxRetained = maxRetained ∧ p.idle.length ≤ maxRetained

namespace IsWithin

variable {p : ScratchPool} {maxRetained : Nat}

theorem acquire
    (hWithin : p.IsWithin maxRetained) :
    p.acquire.2.IsWithin maxRetained := by
  rcases hWithin with ⟨hMax, hIdle⟩
  unfold ScratchPool.acquire
  cases hSets : p.idle with
  | nil => exact ⟨hMax, Nat.zero_le _⟩
  | cons first rest =>
      rw [hSets, List.length_cons] at hIdle
      exact ⟨hMax, by dsimp only; omega⟩

/- A set is kept only where there is room. -/
theorem release
    (hWithin : p.IsWithin maxRetained)
    (s : ChecksumSet) :
    (p.release s).IsWithin maxRetained := by
  rcases hWithin with ⟨hMax, hIdle⟩
  refine ⟨hMax, ?_⟩
  unfold ScratchPool.release
  dsimp only
  split
  · next hRoom =>
      rw [hMax] at hRoom
      exact hRoom
  · exact hIdle

end IsWithin

end ScratchPool

------------------------------------------------------------
-- What every step keeps
------------------------------------------------------------

namespace ScratchUse

/-
  The pool counts the sets that are out, two for each
  difference; it keeps no more sets than it may, all of them
  empty; and every difference in use is exact.
-/
structure Orderly
    (maxRetained : Nat)
    (u : ScratchUse) : Prop where
  outstanding :
    u.pool.outstanding = u.held.length + 2 * u.diffs.length
  within : u.pool.IsWithin maxRetained
  clean : u.pool.IsClean
  exact :
    ∀ d ∈ u.diffs, d.sets = CollectionDiff.between d.old d.new

theorem orderly_ofMaxRetained
    (maxRetained : Nat) :
    (ofMaxRetained maxRetained).Orderly maxRetained where
  outstanding := rfl
  within := ⟨rfl, Nat.zero_le _⟩
  clean := fun _ hS => nomatch hS
  exact := fun _ hD => nomatch hD

namespace Orderly

variable {u : ScratchUse} {maxRetained : Nat}

theorem acquire
    (hOrderly : u.Orderly maxRetained) :
    (u.step .acquire).Orderly maxRetained where
  outstanding := by
    have hCount := hOrderly.outstanding
    have hTaken := u.pool.outstanding_acquire
    simp only [ScratchUse.step, List.length_append,
      List.length_singleton]
    omega
  within := hOrderly.within.acquire
  clean := hOrderly.clean.acquire.2
  exact := hOrderly.exact

/- What is put into a set that is held does not reach the pool. -/
theorem insert
    (hOrderly : u.Orderly maxRetained)
    (position : Nat)
    (c : Checksum) :
    (u.step (.insert position c)).Orderly maxRetained where
  outstanding := by
    simp only [ScratchUse.step, List.length_modify]
    exact hOrderly.outstanding
  within := hOrderly.within
  clean := hOrderly.clean
  exact := hOrderly.exact

theorem release
    (hOrderly : u.Orderly maxRetained)
    (position : Nat) :
    (u.step (.release position)).Orderly maxRetained := by
  have hCount := hOrderly.outstanding
  unfold ScratchUse.step
  dsimp only
  split
  · exact hOrderly
  · next s hHeld =>
      rcases List.getElem?_eq_some_iff.1 hHeld with ⟨hBound, -⟩
      refine ⟨?_, hOrderly.within.release s,
        hOrderly.clean.release s, hOrderly.exact⟩
      dsimp only
      rw [ScratchPool.outstanding_release,
        List.length_eraseIdx_of_lt hBound]
      omega

/- Sets that are clean when taken out make an exact difference. -/
theorem diff
    (hOrderly : u.Orderly maxRetained)
    (old new : List Checksum) :
    (u.step (.diff old new)).Orderly maxRetained where
  outstanding := by
    have hCount := hOrderly.outstanding
    have hTaken := u.pool.outstanding_diff old new
    simp only [ScratchUse.step, List.length_append,
      List.length_singleton]
    omega
  within := hOrderly.within.acquire.acquire
  clean := hOrderly.clean.acquire.2.acquire.2
  exact := by
    intro d hD
    rcases List.mem_append.1 hD with hOld | hNew
    · exact hOrderly.exact d hOld
    · rw [List.mem_singleton.1 hNew]
      exact hOrderly.clean.diff_eq old new

theorem drop
    (hOrderly : u.Orderly maxRetained)
    (position : Nat) :
    (u.step (.drop position)).Orderly maxRetained := by
  have hCount := hOrderly.outstanding
  unfold ScratchUse.step
  dsimp only
  split
  · exact hOrderly
  · next d hLive =>
      rcases List.getElem?_eq_some_iff.1 hLive with ⟨hBound, -⟩
      refine ⟨?_,
        (hOrderly.within.release d.sets.removedOnly).release _,
        (hOrderly.clean.release d.sets.removedOnly).release _, ?_⟩
      · dsimp only
        rw [ScratchPool.outstanding_releaseDiff,
          List.length_eraseIdx_of_lt hBound]
        omega
      · intro e hE
        exact hOrderly.exact e (List.mem_of_mem_eraseIdx hE)

/- Whatever a user does leaves the pool in order. -/
theorem step
    (hOrderly : u.Orderly maxRetained)
    (s : ScratchStep) :
    (u.step s).Orderly maxRetained := by
  cases s with
  | acquire => exact hOrderly.acquire
  | insert position c => exact hOrderly.insert position c
  | release position => exact hOrderly.release position
  | diff old new => exact hOrderly.diff old new
  | drop position => exact hOrderly.drop position

/- So does whatever all of them do, in whatever order. -/
theorem run
    (hOrderly : u.Orderly maxRetained)
    (steps : List ScratchStep) :
    (u.run steps).Orderly maxRetained := by
  induction steps generalizing u with
  | nil => exact hOrderly
  | cons s steps ih => exact ih (hOrderly.step s)

end Orderly

------------------------------------------------------------
-- All histories of a pool
------------------------------------------------------------

/-
  However a pool was used, it counts the sets that are out,
  keeps no more than it may and none that is not empty, so
  that a set is empty when it is taken out.  The differences
  in use, and the one that would be worked out next, are
  exact: their sets hold the members of either list that the
  other lacks.
-/
theorem run_leaks_nothing
    (maxRetained : Nat)
    (steps : List ScratchStep) :
    let u := (ofMaxRetained maxRetained).run steps
    u.pool.outstanding = u.held.length + 2 * u.diffs.length ∧
    u.pool.idle.length ≤ maxRetained ∧
    (∀ s ∈ u.pool.idle, s = ∅) ∧
    u.pool.acquire.1 = ∅ ∧
    (∀ d ∈ u.diffs, ∀ c,
      (c ∈ d.sets.removedOnly ↔ c ∈ d.old ∧ c ∉ d.new) ∧
      (c ∈ d.sets.addedOnly ↔ c ∈ d.new ∧ c ∉ d.old)) ∧
    ∀ old new c,
      (c ∈ (u.pool.diff old new).1.removedOnly ↔
        c ∈ old ∧ c ∉ new) ∧
      (c ∈ (u.pool.diff old new).1.addedOnly ↔
        c ∈ new ∧ c ∉ old) := by
  intro u
  have hOrderly : u.Orderly maxRetained :=
    (orderly_ofMaxRetained maxRetained).run steps
  refine ⟨hOrderly.outstanding, hOrderly.within.2,
    hOrderly.clean, hOrderly.clean.acquire.1, ?_, ?_⟩
  · intro d hD c
    rw [hOrderly.exact d hD]
    exact ⟨CollectionDiff.mem_removedOnly_between,
      CollectionDiff.mem_addedOnly_between⟩
  · intro old new c
    rw [hOrderly.clean.diff_eq old new]
    exact ⟨CollectionDiff.mem_removedOnly_between,
      CollectionDiff.mem_addedOnly_between⟩

/- Of two sets given back, a pool for one set keeps one. -/
example :
    ((ofMaxRetained 1).run
      [.acquire, .acquire, .release 1,
        .release 0]).pool.idle.length = 1 := by
  rfl

end ScratchUse

end SnapTree
