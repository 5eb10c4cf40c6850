import SnapTree.Proofs.Merkle.Faithful

/-
  This file proves that checksums separate assets of all kinds,
  and what of an asset its checksum covers: everything but the
  checksums that the asset carries along.

  Key definitions include:
    * `AssetKind.IsNode`
    * `AssetKind.IsAttributes`
    * `Asset.parts`

  Key theorems include:
    * `Asset.kind_canonical`
    * `Asset.parts_canonical`
    * `Asset.collections_canonical`
    * `Asset.checksum_eq_iff_canonical`
-/

namespace SnapTree

------------------------------------------------------------
-- Sorts of asset
------------------------------------------------------------

namespace AssetKind

/- The kinds of the nodes of a checksum tree. -/
def IsNode
    (kind : AssetKind) : Prop :=
  kind ∈ [solutionNode, projectNode, documentNode]

instance : DecidablePred IsNode :=
  fun kind =>
    inferInstanceAs
      (Decidable
        (kind ∈ [solutionNode, projectNode, documentNode]))

/- The kinds of what is said about a part of a solution. -/
def IsAttributes
    (kind : AssetKind) : Prop :=
  kind ∈
    [solutionAttributes, projectAttributes, documentAttributes]

instance : DecidablePred IsAttributes :=
  fun kind =>
    inferInstanceAs
      (Decidable
        (kind ∈
          [solutionAttributes, projectAttributes,
            documentAttributes]))

end AssetKind

namespace Asset

/- The checksums of the parts of a node, its collections apart. -/
def parts : Asset → List Checksum
  | .solutionNode n =>
      [n.attributes, n.frozenIdentity, n.frozenText]
  | .projectNode n =>
      [n.attributes, n.compilationOptions, n.parseOptions]
  | .documentNode n => [n.attributes, n.text]
  | _ => []

------------------------------------------------------------
-- What stays when carried checksums are computed afresh
------------------------------------------------------------

section

variable (a : Asset)

@[simp]
theorem kind_canonical :
    a.canonical.kind = a.kind := by
  cases a <;> rfl

@[simp]
theorem parts_canonical :
    a.canonical.parts = a.parts := by
  cases a <;> rfl

@[simp]
theorem collections_canonical :
    a.canonical.collections =
      a.collections.map Collection.canonical := by
  cases a <;> rfl

/- Collections stay of their kinds. -/
theorem kinds_canonical :
    a.canonical.collections.map Collection.kind =
      a.collections.map Collection.kind := by
  rw [collections_canonical, List.map_map]
  rfl

/- Collections keep their members, in their order. -/
theorem members_canonical :
    a.canonical.collections.map Collection.members =
      a.collections.map Collection.members := by
  rw [collections_canonical, List.map_map]
  rfl

end

------------------------------------------------------------
-- Assets and their checksums
------------------------------------------------------------

/-
  Two assets have the same checksum exactly if they are of the
  same kind and the same once the checksums that they carry
  are computed afresh.  So no node has the checksum of another
  value and no text that of attributes, and nodes differ in
  checksum when they differ in the checksum of a part, or in
  the kind, the members or their order in a collection.
-/
theorem checksum_eq_iff_canonical
    {a b : Asset}
    (hSeparated : a.Separated b) :
    (a.checksum = b.checksum ↔
      a.kind = b.kind ∧ a.canonical = b.canonical) ∧
    (a.kind.IsNode → ¬b.kind.IsNode →
      a.checksum ≠ b.checksum) ∧
    (a.kind = .text → b.kind.IsAttributes →
      a.checksum ≠ b.checksum) ∧
    (a.kind.IsNode → b.kind.IsNode →
      (a.parts ≠ b.parts ∨
        a.collections.map Collection.kind ≠
          b.collections.map Collection.kind ∨
        a.collections.map Collection.members ≠
          b.collections.map Collection.members) →
      a.checksum ≠ b.checksum) := by
  have hKind : a.checksum = b.checksum → a.kind = b.kind := by
    intro hSame
    rw [← a.kind_canonical, ← b.kind_canonical,
      hSeparated.canonical_eq hSame]
  refine ⟨⟨?_, ?_⟩, ?_, ?_, ?_⟩
  · intro hSame
    exact ⟨hKind hSame, hSeparated.canonical_eq hSame⟩
  · rintro ⟨-, hCanonical⟩
    rw [← a.checksum_canonical, ← b.checksum_canonical,
      hCanonical]
  · intro hNode hOther hSame
    rw [hKind hSame] at hNode
    exact hOther hNode
  · intro hText hAttributes hSame
    rw [← hKind hSame, hText] at hAttributes
    revert hAttributes
    decide
  · intro _ _ hDiffer hSame
    have hCanonical := hSeparated.canonical_eq hSame
    rcases hDiffer with hParts | hKinds | hMembers
    · apply hParts
      rw [← a.parts_canonical, hCanonical, parts_canonical]
    · apply hKinds
      rw [← a.kinds_canonical, hCanonical, kinds_canonical]
    · apply hMembers
      rw [← a.members_canonical, hCanonical, members_canonical]

/- A root with two projects and an analyzer. -/
def fullRoot
    (first second : Checksum) : SolutionNode :=
  SolutionNode.of (text "solution").checksum
    (.of .projects [first, second])
    (.of .analyzerReferences [(text "analyzer").checksum]) none

/- A root that carries other checksums along. -/
def forge
    (n : SolutionNode)
    (c : Checksum) : SolutionNode :=
  { n with
    checksum := c
    projects := { n.projects with checksum := c } }

theorem canonical_forge
    (n : SolutionNode)
    (c : Checksum) :
    (solutionNode (forge n c)).canonical =
      (solutionNode n).canonical :=
  rfl

/-
  Checksums that are carried along do not show, but the order
  of the projects does.
-/
theorem checksum_forge_fullRoot :
    let p := (text "p").checksum
    let q := (text "q").checksum
    let forged := solutionNode (forge (fullRoot p q) Checksum.null)
    forged.checksum = (solutionNode (fullRoot p q)).checksum ∧
      forged.checksum ≠
          (solutionNode (fullRoot q p)).checksum ∧
        forged.checksum ≠ (text "").checksum := by
  intro p q forged
  have hSeparated :
      ∀ b ∈ [solutionNode (fullRoot p q),
          solutionNode (fullRoot q p), text ""],
        forged.Separated b :=
    fun b hB => ⟨by revert b; decide +kernel, by decide +kernel⟩
  refine ⟨?_, ?_, ?_⟩
  · exact (checksum_eq_iff_canonical
      (hSeparated _ (by simp))).1.2
        ⟨by decide, canonical_forge (fullRoot p q) Checksum.null⟩
  · exact (checksum_eq_iff_canonical
      (hSeparated _ (by simp))).2.2.2 (by decide) (by decide)
        (Or.inr (Or.inr (by decide +kernel)))
  · exact (checksum_eq_iff_canonical
      (hSeparated _ (by simp))).2.1 (by decide) (by decide)

end Asset

end SnapTree
