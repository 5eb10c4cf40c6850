import SnapTree.Proofs.Workspace.Tree

/-
  This file proves what publishing puts into a store: every
  asset of the snapshot under its checksum, none of them twice
  and nothing else.

  Key theorems include:
    * `Solution.mem_of_mem_publication`
    * `Solution.nodup_publication`
    * `Solution.mem_publication_iff`
-/

namespace SnapTree

namespace Solution

/- What is keyed was listed, and its checksum is new. -/
theorem mem_of_mem_keyed
    {met : List Checksum}
    {as : List Asset}
    {c : Checksum}
    {a : Asset}
    (hMem : (c, a) ∈ keyed met as) :
    a ∈ as ∧ a.checksum = c ∧ c ∉ met := by
  induction as generalizing met with
  | nil => cases hMem
  | cons b bs ih =>
      unfold keyed at hMem
      dsimp only at hMem
      split at hMem
      · rcases ih hMem with ⟨hTail, hChecksum, hNew⟩
        exact ⟨List.mem_cons_of_mem _ hTail, hChecksum, hNew⟩
      · next hNotMet =>
          rcases List.mem_cons.1 hMem with hHead | hTail
          · rcases Prod.mk.inj hHead with ⟨rfl, rfl⟩
            exact ⟨List.mem_cons_self, rfl, hNotMet⟩
          · rcases ih hTail with ⟨hTail, hChecksum, hNew⟩
            refine ⟨List.mem_cons_of_mem _ hTail, hChecksum, ?_⟩
            intro hMet
            exact hNew (List.mem_cons_of_mem _ hMet)

/- No checksum is keyed twice. -/
theorem nodup_keyed
    (met : List Checksum)
    (as : List Asset) :
    ((keyed met as).map Prod.fst).Nodup := by
  induction as generalizing met with
  | nil => exact List.nodup_nil
  | cons b bs ih =>
      unfold keyed
      dsimp only
      split
      · exact ih met
      · rw [List.map_cons, List.nodup_cons]
        refine ⟨?_, ih _⟩
        intro hMem
        rcases List.mem_map.1 hMem with ⟨⟨c, a⟩, hEntry, rfl⟩
        rcases mem_of_mem_keyed hEntry with ⟨-, -, hNew⟩
        exact hNew List.mem_cons_self

/- Every checksum of a listed asset is keyed, or was before. -/
theorem exists_mem_keyed
    {met : List Checksum}
    {as : List Asset}
    {a : Asset}
    (hMem : a ∈ as)
    (hNew : a.checksum ∉ met) :
    ∃ b, (a.checksum, b) ∈ keyed met as := by
  induction as generalizing met with
  | nil => cases hMem
  | cons b bs ih =>
      unfold keyed
      dsimp only
      by_cases hSame : a.checksum = b.checksum
      · rw [hSame] at hNew ⊢
        rw [if_neg hNew]
        exact ⟨b, List.mem_cons_self⟩
      · have hTail : a ∈ bs := by
          rcases List.mem_cons.1 hMem with rfl | hTail
          · exact absurd rfl hSame
          · exact hTail
        split
        · exact ih hTail hNew
        · have hNewer : a.checksum ∉ b.checksum :: met := by
            rw [List.mem_cons, not_or]
            exact ⟨hSame, hNew⟩
          rcases ih hTail hNewer with ⟨c, hC⟩
          exact ⟨c, List.mem_cons_of_mem _ hC⟩

variable {s : Solution}

theorem mem_of_mem_publication
    {c : Checksum}
    {a : Asset}
    (hMem : (c, a) ∈ s.publication) :
    a ∈ s.assets ∧ a.checksum = c := by
  rcases mem_of_mem_keyed hMem with ⟨hAsset, hChecksum, -⟩
  exact ⟨hAsset, hChecksum⟩

theorem nodup_publication :
    (s.publication.map Prod.fst).Nodup :=
  nodup_keyed [] s.assets

/- Publishing puts all assets, each under its checksum. -/
theorem mem_publication_iff
    {assets : Set Asset}
    (hFaithful : Faithful assets)
    (hAssets : ∀ a ∈ s.assets, a ∈ assets)
    {c : Checksum}
    {a : Asset} :
    (c, a) ∈ s.publication ↔ a ∈ s.assets ∧ a.checksum = c := by
  constructor
  · exact mem_of_mem_publication
  · rintro ⟨hMem, rfl⟩
    have hNew : a.checksum ∉ ([] : List Checksum) :=
      List.not_mem_nil
    rcases exists_mem_keyed hMem hNew with ⟨b, hB⟩
    rcases mem_of_mem_publication hB with ⟨hMemB, hChecksum⟩
    rw [hFaithful.eq_of_checksum (hAssets a hMem)
      (hAssets b hMemB) (isSealed_of_mem_assets a hMem)
      (isSealed_of_mem_assets b hMemB) hChecksum.symm]
    rw [hChecksum]
    exact hB

end Solution

end SnapTree
