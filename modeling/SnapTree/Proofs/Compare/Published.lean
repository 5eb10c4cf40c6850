import SnapTree.Proofs.Compare.Snapshots

/-
  This file proves that the difference of two snapshots which
  were published into one store is exact.  It is worked out
  from their roots alone, and it is empty exactly if the roots
  are the same.  Nothing is asked of the way in which a store
  compresses its objects but that it loses nothing.

  Key theorems include:
    * `Store.compare_eq`
    * `Sink.publishAll_compares`
-/

namespace SnapTree

section Contents

variable [Compression]

/-
  From a store that holds the assets of two solutions, their
  difference is worked out.
-/
theorem Store.compare_eq
    (hLossless : Compression.IsLossless)
    {st : Store}
    {s t : Solution}
    {assets : Set Asset}
    (hBoth : s.Comparable t assets)
    (hHas :
      ∀ a, a ∈ s.assets ∨ a ∈ t.assets → st.Has a.checksum a)
    {session : Session}
    (hFresh : session.IsFresh) :
    ((st.link.compare s.checksum t.checksum).start session).1 =
      .ok (s.differenceTo t) := by
  let all := {a | a ∈ s.assets ∨ a ∈ t.assets}
  have hMem : ∀ a ∈ all, a ∈ assets ∧ a.IsSealed := by
    rintro a (hA | hA)
    · exact ⟨hBoth.left_mem a hA, s.isSealed_of_mem_assets a hA⟩
    · exact ⟨hBoth.right_mem a hA, t.isSealed_of_mem_assets a hA⟩
  let serving : Serving st.link :=
    { assets
      wanted := all
      held := all
      faithful := hBoth.faithful
      wanted_mem := hMem
      held_mem := hMem
      never := rfl
      serves :=
        Store.serves hLossless hBoth.faithful hMem hHas }
  have hWanted : s.Comparable t serving.supply.wanted :=
    { faithful := hBoth.faithful.mono (fun a hA => (hMem a hA).1)
      left := hBoth.left
      right := hBoth.right
      left_mem := fun _ hA => Or.inl hA
      right_mem := fun _ hA => Or.inr hA }
  have hNever : ∀ e, ¬serving.supply.lack e := by
    rintro e ⟨a, hHere, hNotHeld, -⟩
    exact hNotHeld hHere
  exact (serving.supply.gives_compare hWanted).start_eq hNever
    (hFresh.knows assets)

/-
  Of all solutions that were published into one store which was
  empty before, any two whose publication ended well are
  compared exactly from their roots, and nothing is found to
  differ exactly if the roots are the same.
-/
theorem Sink.publishAll_compares
    (hLossless : Compression.IsLossless)
    {σ : Type}
    (sink : Sink σ)
    {solutions : List Solution}
    {u : σ}
    (hEmpty : (sink.store u).IsEmpty)
    (hReachable : ∀ s ∈ solutions, s.Reachable)
    (hFaithful :
      Faithful {a | ∃ s ∈ solutions, a ∈ s.assets})
    {s t : Solution}
    {old new : Checksum}
    (hOld :
      (s, .ok old) ∈
        solutions.zip (sink.publishAll solutions u).1)
    (hNew :
      (t, .ok new) ∈
        solutions.zip (sink.publishAll solutions u).1)
    {session : Session}
    (hFresh : session.IsFresh) :
    let store := sink.store (sink.publishAll solutions u).2
    old = s.checksum ∧ new = t.checksum ∧
      ∃ d : SnapshotDiff,
        ((store.link.compare old new).start session).1 = .ok d ∧
          d.IsExact s t ∧ (d.isEmpty = true ↔ old = new) := by
  intro store
  have hS : s ∈ solutions := (List.of_mem_zip hOld).1
  have hT : t ∈ solutions := (List.of_mem_zip hNew).1
  have hBoth :
      s.Comparable t {a | ∃ s ∈ solutions, a ∈ s.assets} :=
    { faithful := hFaithful
      left := (hReachable s hS).wellFormed
      right := (hReachable t hT).wellFormed
      left_mem := fun a hA => ⟨s, hS, hA⟩
      right_mem := fun a hA => ⟨t, hT, hA⟩ }
  rcases sink.publishAll_holds hEmpty hFaithful hOld with
    ⟨rfl, hHasS⟩
  rcases sink.publishAll_holds hEmpty hFaithful hNew with
    ⟨rfl, hHasT⟩
  refine ⟨rfl, rfl, s.differenceTo t, ?_, ?_, ?_⟩
  · apply Store.compare_eq hLossless hBoth ?_ hFresh
    rintro a (hA | hA)
    · exact hHasS a hA
    · exact hHasT a hA
  · exact Solution.isExact_differenceTo hBoth.left hBoth.right
  · rw [Solution.isEmpty_differenceTo_iff hBoth.left hBoth.right]
    constructor
    · rintro rfl
      rfl
    · exact hBoth.eq_of_checksum

end Contents

/- Both versions are published into one directory. -/
theorem Sink.publishAll_compares_small :
    let solutions := [Solution.bare, Solution.small]
    let start : Store × List DiskWrite :=
      (.directory .small DirectoryStore.smallFiles, [])
    let published := Sink.onDisk.publishAll solutions start
    let store := Sink.onDisk.store published.2
    ∃ d : SnapshotDiff,
      ((store.link.compare Solution.bare.checksum
          Solution.small.checksum).start {}).1 = .ok d ∧
        d.IsExact Solution.bare Solution.small := by
  intro solutions start published store
  have hStore := DirectoryStore.isFresh_small
  have hEmpty : (Sink.onDisk.store start).IsEmpty :=
    Store.isEmpty_directory hStore
  have hNone : ∀ w ∈ ([] : List DiskWrite), w.fault = none :=
    fun _ hW => nomatch hW
  have hResults :
      published.1 =
        [.ok Solution.bare.checksum,
          .ok Solution.small.checksum] :=
    Sink.publishAll_onDisk (Store.mirrors_directory hStore) hNone
      solutions
  have hOld :
      (Solution.bare, .ok Solution.bare.checksum) ∈
        solutions.zip published.1 := by
    rw [hResults]
    exact List.mem_cons_self
  have hNew :
      (Solution.small, .ok Solution.small.checksum) ∈
        solutions.zip published.1 := by
    rw [hResults]
    exact List.mem_cons_of_mem _ List.mem_cons_self
  have hFresh : Session.IsFresh {} :=
    ⟨rfl, .ofMaxRetained _⟩
  rcases Sink.publishAll_compares Frame.isLossless Sink.onDisk
      hEmpty Solution.reachable_of_mem_versions
      Solution.faithful_versions hOld hNew hFresh with
    ⟨-, -, d, hRun, hExact, -⟩
  exact ⟨d, hRun, hExact⟩

end SnapTree
