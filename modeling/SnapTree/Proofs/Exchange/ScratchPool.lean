import SnapTree.Exchange.ScratchPool

/-
  This file proves that the scratch sets of a pool are empty
  whenever they are taken out, whatever they were used for
  before, so that differences are exact, and that a difference
  leaves as many sets in use as there were.

  Key definitions include:
    * `ScratchPool.IsClean`
    * `ScratchPool.Reachable`
    * `CollectionDiff.between`
    * `ScratchPool.Balanced`

  Key theorems include:
    * `ScratchPool.Reachable.isClean`
    * `ScratchPool.IsClean.diff_eq`
    * `CollectionDiff.mem_removedOnly_between`
    * `ScratchPool.balanced_releaseDiff_diff`
-/

namespace SnapTree

namespace ScratchPool

/- Every set that is ready for use is empty. -/
def IsClean
    (p : ScratchPool) : Prop :=
  ∀ s ∈ p.idle, s = ∅

/-
  The pools that can come about: new ones, and those that sets
  were taken out of and given back to in any order.
-/
inductive Reachable : ScratchPool → Prop where
  | ofMaxRetained
      (maxRetained : Nat) :
      Reachable (.ofMaxRetained maxRetained)
  | acquired
      {p : ScratchPool}
      (hReachable : Reachable p) :
      Reachable p.acquire.2
  | released
      {p : ScratchPool}
      (hReachable : Reachable p)
      (s : ChecksumSet) :
      Reachable (p.release s)

namespace IsClean

variable {p : ScratchPool}

theorem acquire
    (hClean : p.IsClean) :
    p.acquire.1 = ∅ ∧ p.acquire.2.IsClean := by
  unfold ScratchPool.acquire
  cases hIdle : p.idle with
  | nil =>
      refine ⟨rfl, ?_⟩
      intro s hS
      cases hS
  | cons first rest =>
      constructor
      · exact hClean first (by simp [hIdle])
      · intro s hS
        exact hClean s (by simp [hIdle, show s ∈ rest from hS])

theorem release
    (hClean : p.IsClean)
    (s : ChecksumSet) :
    (p.release s).IsClean := by
  intro t hT
  unfold ScratchPool.release at hT
  dsimp only at hT
  split at hT
  · rcases List.mem_cons.1 hT with rfl | hOld
    · rfl
    · exact hClean t hOld
  · exact hClean t hT

end IsClean

/- Nothing that was in a set is ever met in another. -/
theorem Reachable.isClean
    {p : ScratchPool}
    (hReachable : p.Reachable) :
    p.IsClean := by
  induction hReachable with
  | ofMaxRetained maxRetained =>
      intro s hS
      cases hS
  | acquired _ ih => exact ih.acquire.2
  | released _ s ih => exact ih.release s

------------------------------------------------------------
-- Differences
------------------------------------------------------------

theorem mem_insertAll
    {s : ChecksumSet}
    {cs : List Checksum}
    {c : Checksum} :
    c ∈ insertAll s cs ↔ c ∈ cs ∨ c ∈ s := by
  unfold insertAll
  induction cs generalizing s with
  | nil => simp
  | cons d cs ih =>
      rw [List.foldl_cons, ih, Std.ExtTreeSet.mem_insert,
        Std.compare_eq_iff_eq, List.mem_cons]
      constructor
      · rintro (hTail | rfl | hOld)
        · exact Or.inl (Or.inr hTail)
        · exact Or.inl (Or.inl rfl)
        · exact Or.inr hOld
      · rintro ((rfl | hTail) | hOld)
        · exact Or.inr (Or.inl rfl)
        · exact Or.inl hTail
        · exact Or.inr (Or.inr hOld)

theorem mem_eraseAll
    {s : ChecksumSet}
    {cs : List Checksum}
    {c : Checksum} :
    c ∈ eraseAll s cs ↔ c ∉ cs ∧ c ∈ s := by
  unfold eraseAll
  induction cs generalizing s with
  | nil => simp
  | cons d cs ih =>
      rw [List.foldl_cons, ih, Std.ExtTreeSet.mem_erase,
        Ne, Std.compare_eq_iff_eq, List.mem_cons, not_or]
      constructor
      · rintro ⟨hTail, hHead, hMem⟩
        exact ⟨⟨fun hSame => hHead hSame.symm, hTail⟩, hMem⟩
      · rintro ⟨⟨hHead, hTail⟩, hMem⟩
        exact ⟨hTail, fun hSame => hHead hSame.symm, hMem⟩

end ScratchPool

namespace CollectionDiff

/- The difference of two lists, worked out in empty sets. -/
def between
    (old new : List Checksum) : CollectionDiff :=
  ⟨ScratchPool.eraseAll (ScratchPool.insertAll ∅ old) new,
    ScratchPool.eraseAll (ScratchPool.insertAll ∅ new) old⟩

variable {old new : List Checksum} {c : Checksum}

theorem mem_removedOnly_between :
    c ∈ (between old new).removedOnly ↔ c ∈ old ∧ c ∉ new := by
  unfold between
  rw [ScratchPool.mem_eraseAll, ScratchPool.mem_insertAll,
    and_comm]
  simp

theorem mem_addedOnly_between :
    c ∈ (between old new).addedOnly ↔ c ∈ new ∧ c ∉ old := by
  unfold between
  rw [ScratchPool.mem_eraseAll, ScratchPool.mem_insertAll,
    and_comm]
  simp

end CollectionDiff

namespace ScratchPool.IsClean

variable {p : ScratchPool}

/- The sets of a clean pool give the exact difference. -/
theorem diff_eq
    (hClean : p.IsClean)
    (old new : List Checksum) :
    (p.diff old new).1 = .between old new := by
  have hFirst := hClean.acquire
  have hSecond := hFirst.2.acquire
  unfold ScratchPool.diff CollectionDiff.between
  dsimp only
  rw [hFirst.1, hSecond.1]

/- A pool is clean again when a difference is given back. -/
theorem releaseDiff_diff
    (hClean : p.IsClean)
    (old new : List Checksum)
    (d : CollectionDiff) :
    ((p.diff old new).2.releaseDiff d).IsClean := by
  have hTaken : (p.diff old new).2.IsClean :=
    hClean.acquire.2.acquire.2
  exact (hTaken.release d.removedOnly).release d.addedOnly

end ScratchPool.IsClean

------------------------------------------------------------
-- What is out
------------------------------------------------------------

namespace ScratchPool

/-
  One pool may come after another when all is given back that
  was taken out.
-/
structure Balanced
    (p q : ScratchPool) : Prop where
  outstanding : q.outstanding = p.outstanding
  reachable : p.Reachable → q.Reachable

theorem Balanced.refl
    (p : ScratchPool) :
    p.Balanced p :=
  ⟨rfl, id⟩

theorem Balanced.trans
    {p q r : ScratchPool}
    (hFirst : p.Balanced q)
    (hSecond : q.Balanced r) :
    p.Balanced r :=
  ⟨hSecond.outstanding.trans hFirst.outstanding,
    fun hReachable => hSecond.reachable (hFirst.reachable hReachable)⟩

theorem outstanding_acquire
    (p : ScratchPool) :
    p.acquire.2.outstanding = p.outstanding + 1 := by
  unfold acquire
  cases p.idle with
  | nil => rfl
  | cons s rest => rfl

theorem outstanding_release
    (p : ScratchPool)
    (s : ChecksumSet) :
    (p.release s).outstanding = p.outstanding - 1 :=
  rfl

/- A difference takes two sets out. -/
theorem outstanding_diff
    (p : ScratchPool)
    (old new : List Checksum) :
    (p.diff old new).2.outstanding = p.outstanding + 2 := by
  have hFirst := p.outstanding_acquire
  have hSecond := p.acquire.2.outstanding_acquire
  change p.acquire.2.acquire.2.outstanding = p.outstanding + 2
  omega

/- A difference that is dropped gives two sets back. -/
theorem outstanding_releaseDiff
    (p : ScratchPool)
    (d : CollectionDiff) :
    (p.releaseDiff d).outstanding = p.outstanding - 2 := by
  unfold releaseDiff
  rw [outstanding_release, outstanding_release, Nat.sub_sub]

/- A difference that is given back takes nothing out. -/
theorem balanced_releaseDiff_diff
    (p : ScratchPool)
    (old new : List Checksum)
    (d : CollectionDiff) :
    p.Balanced ((p.diff old new).2.releaseDiff d) where
  outstanding := by
    rw [outstanding_releaseDiff, outstanding_diff,
      Nat.add_sub_cancel]
  reachable hReachable :=
    .released (.released (.acquired (.acquired hReachable)) _) _

end ScratchPool

end SnapTree
