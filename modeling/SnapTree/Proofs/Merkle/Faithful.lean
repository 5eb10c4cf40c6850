import SnapTree.Proofs.Binary.Assets
import Mathlib.Data.List.Nodup
import Mathlib.Data.Set.Defs

/-
  This file proves that checksums tell assets apart.  The hash
  is not assumed to be injective, only to have no collision
  among the byte strings that are hashed for the assets at
  hand.

  Two assets with the same checksum are then the same, up to
  the checksums that nodes and collections carry along.

  Key definitions include:
    * `Asset.images`
    * `Asset.canonical`
    * `Asset.IsSealed`
    * `Asset.Separated`
    * `Faithful`

  Key theorems include:
    * `Asset.Separated.canonical_eq`
    * `Faithful.of_nodup`
    * `Faithful.canonical_eq`
    * `Faithful.eq_of_checksum`
    * `Faithful.members_eq`
-/

namespace SnapTree

------------------------------------------------------------
-- Lists of checksums
------------------------------------------------------------

namespace Checksum

@[simp]
theorem length_toList
    (c : Checksum) :
    c.toList.length = 32 := by
  simp [toList]

theorem toList_injective
    {c d : Checksum}
    (hSame : c.toList = d.toList) :
    c = d := by
  cases c
  cases d
  exact congrArg Checksum.mk (Vector.toList_inj.1 hSame)

@[simp]
theorem length_flatMap_toList
    (cs : List Checksum) :
    (cs.flatMap toList).length = 32 * cs.length := by
  induction cs with
  | nil => rfl
  | cons c cs ih =>
      simp only [List.flatMap_cons, List.length_append, ih,
        length_toList, List.length_cons]
      omega

/- Checksums all have the same length, so a row is readable. -/
theorem flatMap_toList_injective
    {cs ds : List Checksum}
    (hSame : cs.flatMap toList = ds.flatMap toList) :
    cs = ds := by
  have hLength : cs.length = ds.length := by
    have hBytes := congrArg List.length hSame
    simp only [length_flatMap_toList] at hBytes
    omega
  induction cs generalizing ds with
  | nil => simpa using hLength.symm
  | cons c cs ih =>
      cases ds with
      | nil => simp at hLength
      | cons d ds =>
          simp only [List.flatMap_cons] at hSame
          rcases List.append_inj hSame (by simp) with ⟨hHead, hTail⟩
          rw [toList_injective hHead,
            ih hTail (by simpa using hLength)]

end Checksum

------------------------------------------------------------
-- The byte strings that are hashed
------------------------------------------------------------

namespace Collection

/- The byte string hashed for the members of a collection. -/
def image
    (c : Collection) : List UInt8 :=
  preimage c.kind c.members

/- The same members with the checksum that fits them. -/
def canonical
    (c : Collection) : Collection :=
  of c.kind c.members

/- A collection is told by the byte string hashed for it. -/
theorem canonical_eq_of_image
    {c d : Collection}
    (hSame : c.image = d.image) :
    c.canonical = d.canonical := by
  simp only [image, preimage, List.cons.injEq] at hSame
  rcases hSame with ⟨hTag, hRest⟩
  have hKind : c.kind = d.kind := by
    revert hTag
    generalize c.kind = k
    generalize d.kind = l
    intro hTag
    cases k with
    | documents k =>
        cases l with
        | documents l =>
            revert hTag
            cases k <;> cases l <;> decide
        | _ => revert hTag; cases k <;> decide
    | _ =>
        cases l with
        | documents l => revert hTag; cases l <;> decide
        | _ => revert hTag; decide
  have hCount :
      (Codec.count c.members.length).length =
        (Codec.count d.members.length).length := by
    rw [Codec.length_count, Codec.length_count]
  have hMembers : c.members = d.members :=
    Checksum.flatMap_toList_injective
      (List.append_inj hRest hCount).2
  rw [canonical, canonical, hKind, hMembers]

@[simp]
theorem recomputed_canonical
    (c : Collection) :
    c.canonical.recomputed = c.recomputed :=
  rfl

@[simp]
theorem canonical_of
    (kind : CollectionKind)
    (members : List Checksum) :
    (of kind members).canonical = of kind members :=
  rfl

end Collection

namespace Asset

/- The collections that a node holds. -/
def collections : Asset → List Collection
  | .solutionNode n => [n.projects, n.analyzerReferences]
  | .projectNode n =>
      [n.documents.ordinary, n.documents.additional,
        n.documents.analyzerConfig, n.projectReferences,
        n.metadataReferences, n.analyzerReferences]
  | _ => []

/-
  The byte strings hashed for an asset: its own, and those of
  its collections.
-/
def images
    (a : Asset) : List (List UInt8) :=
  a.preimage :: a.collections.map Collection.image

/- An asset with all checksums that it carries computed afresh. -/
def canonical : Asset → Asset
  | .solutionNode n =>
      .solutionNode
        { n with
          checksum := n.computed
          projects := n.projects.canonical
          analyzerReferences := n.analyzerReferences.canonical }
  | .projectNode n =>
      .projectNode
        { n with
          checksum := n.computed
          documents :=
            ⟨n.documents.ordinary.canonical,
              n.documents.additional.canonical,
              n.documents.analyzerConfig.canonical⟩
          projectReferences := n.projectReferences.canonical
          metadataReferences := n.metadataReferences.canonical
          analyzerReferences := n.analyzerReferences.canonical }
  | .documentNode n =>
      .documentNode { n with checksum := n.computed }
  | a => a

/- An asset all of whose carried checksums fit. -/
def IsSealed
    (a : Asset) : Prop :=
  a.canonical = a

instance
    (a : Asset) :
    Decidable a.IsSealed :=
  inferInstanceAs (Decidable (a.canonical = a))

/- The checksum of an asset does not depend on those carried. -/
@[simp]
theorem checksum_canonical
    (a : Asset) :
    a.canonical.checksum = a.checksum := by
  cases a <;> rfl

theorem preimage_mem_images
    (a : Asset) :
    a.preimage ∈ a.images :=
  List.mem_cons_self

theorem image_mem_images
    {a : Asset}
    {c : Collection}
    (hMem : c ∈ a.collections) :
    c.image ∈ a.images :=
  List.mem_cons_of_mem _ (List.mem_map_of_mem hMem)

/- The byte string hashed for an asset starts with its tag. -/
theorem head_preimage
    (a : Asset) :
    a.preimage.head? = some a.kind.tag := by
  cases a <;> rfl

/- The kind of an asset can be told from what is hashed. -/
theorem kind_eq_of_preimage
    {a b : Asset}
    (hSame : a.preimage = b.preimage) :
    a.kind = b.kind := by
  have hTag : a.kind.tag = b.kind.tag := by
    have hHead := congrArg List.head? hSame
    rw [head_preimage, head_preimage] at hHead
    exact Option.some.inj hHead
  revert hTag
  generalize a.kind = k
  generalize b.kind = l
  cases k <;> cases l <;> decide

end Asset

------------------------------------------------------------
-- Two assets told apart
------------------------------------------------------------

namespace Asset

/-
  What is asked of the hash where one asset is compared with
  another: no byte string hashed for the first collides with
  one hashed for the second.  The first is no larger than a
  memory can hold.
-/
structure Separated
    (a b : Asset) : Prop where
  injective :
    ∀ x ∈ a.images, ∀ y ∈ b.images,
      Checksum.ofContent x = Checksum.ofContent y → x = y
  short : a.encode.length < Codec.memoryLimit

namespace Separated

variable {a b : Asset}

/- Collections are told apart by their checksums. -/
theorem collection_eq
    (hSeparated : a.Separated b)
    {c d : Collection}
    (hC : c ∈ a.collections)
    (hD : d ∈ b.collections)
    (hSame : c.recomputed = d.recomputed) :
    c.canonical = d.canonical :=
  Collection.canonical_eq_of_image
    (hSeparated.injective _ (image_mem_images hC) _
      (image_mem_images hD) hSame)

/- Solution nodes with the same parts are the same. -/
theorem canonical_eq_solutionNode
    {n m : SolutionNode}
    (hSeparated :
      (Asset.solutionNode n).Separated (.solutionNode m))
    (hSame : n.preimage = m.preimage) :
    (Asset.solutionNode n).canonical =
      (Asset.solutionNode m).canonical := by
  have hParts :=
    Checksum.flatMap_toList_injective (List.cons.inj hSame).2
  simp only [List.cons.injEq, and_true] at hParts
  rcases hParts with
    ⟨hAttributes, hProjects, hAnalyzers, hIdentity, hText⟩
  have hComputed : n.computed = m.computed :=
    congrArg Checksum.ofContent hSame
  have hP := hSeparated.collection_eq
    (by simp [collections]) (by simp [collections]) hProjects
  have hR := hSeparated.collection_eq
    (by simp [collections]) (by simp [collections]) hAnalyzers
  simp only [canonical, hAttributes, hComputed, hP, hR,
    hIdentity, hText]

/- Project nodes with the same parts are the same. -/
theorem canonical_eq_projectNode
    {n m : ProjectNode}
    (hSeparated :
      (Asset.projectNode n).Separated (.projectNode m))
    (hSame : n.preimage = m.preimage) :
    (Asset.projectNode n).canonical =
      (Asset.projectNode m).canonical := by
  have hParts :=
    Checksum.flatMap_toList_injective (List.cons.inj hSame).2
  simp only [List.cons.injEq, and_true] at hParts
  rcases hParts with
    ⟨hAttributes, hCompilation, hParse, hOrdinary, hAdditional,
      hConfig, hProjects, hMetadata, hAnalyzers⟩
  have hComputed : n.computed = m.computed :=
    congrArg Checksum.ofContent hSame
  simp only [canonical, hAttributes, hCompilation,
    hParse, hComputed,
    hSeparated.collection_eq (by simp [collections])
      (by simp [collections]) hOrdinary,
    hSeparated.collection_eq (by simp [collections])
      (by simp [collections]) hAdditional,
    hSeparated.collection_eq (by simp [collections])
      (by simp [collections]) hConfig,
    hSeparated.collection_eq (by simp [collections])
      (by simp [collections]) hProjects,
    hSeparated.collection_eq (by simp [collections])
      (by simp [collections]) hMetadata,
    hSeparated.collection_eq (by simp [collections])
      (by simp [collections]) hAnalyzers]

/-
  Assets with the same checksum are the same up to the
  checksums they carry.
-/
theorem canonical_eq
    (hSeparated : a.Separated b)
    (hSame : a.checksum = b.checksum) :
    a.canonical = b.canonical := by
  have hImage : a.preimage = b.preimage :=
    hSeparated.injective _ a.preimage_mem_images _
      b.preimage_mem_images hSame
  have hKind := kind_eq_of_preimage hImage
  have hShort := hSeparated.short
  cases hN : a with
  | solutionNode n =>
      cases hM : b with
      | solutionNode m =>
          subst hN hM
          exact hSeparated.canonical_eq_solutionNode hImage
      | _ => simp [hN, hM, Asset.kind] at hKind
  | projectNode n =>
      cases hM : b with
      | projectNode m =>
          subst hN hM
          exact hSeparated.canonical_eq_projectNode hImage
      | _ => simp [hN, hM, Asset.kind] at hKind
  | documentNode n =>
      cases hM : b with
      | documentNode m =>
          subst hN hM
          have hRow :=
            List.append_inj (List.cons.inj hImage).2
              (by simp)
          simp only [Asset.canonical,
            DocumentNode.computed,
            show n.preimage = m.preimage from hImage,
            Checksum.toList_injective hRow.1,
            Checksum.toList_injective hRow.2]
      | _ => simp [hN, hM, Asset.kind] at hKind
  | _ =>
      cases hM : b with
      | solutionNode m => simp [hN, hM, Asset.kind] at hKind
      | projectNode m => simp [hN, hM, Asset.kind] at hKind
      | documentNode m => simp [hN, hM, Asset.kind] at hKind
      | _ =>
          rw [hN, hM] at hKind hImage
          rw [hN] at hShort
          exact congrArg Asset.canonical
            (Asset.eq_of_encodeValue hShort hKind
              (List.cons.inj hImage).2)

end Separated

end Asset

------------------------------------------------------------
-- Hashes without collisions
------------------------------------------------------------

/-
  What is asked of the hash where some assets are concerned:
  it has no collision among the byte strings hashed for them
  and gives none of these the mark of an absent value.  The
  assets themselves are no larger than a memory can hold.
-/
structure Faithful
    (assets : Set Asset) : Prop where
  injective :
    ∀ a ∈ assets, ∀ b ∈ assets,
      ∀ x ∈ a.images, ∀ y ∈ b.images,
        Checksum.ofContent x = Checksum.ofContent y → x = y
  notNull :
    ∀ a ∈ assets, ∀ x ∈ a.images,
      Checksum.ofContent x ≠ Checksum.null
  short :
    ∀ a ∈ assets, a.encode.length < Codec.memoryLimit

namespace Faithful

variable {assets : Set Asset}

/-
  For finitely many assets it can be found out by hashing each
  byte string once.
-/
theorem of_nodup
    {as : List Asset}
    (hNodup :
      (Checksum.null ::
        (as.flatMap Asset.images).eraseDups.map
          Checksum.ofContent).Nodup)
    (hShort : ∀ a ∈ as, a.encode.length < Codec.memoryLimit) :
    Faithful {a | a ∈ as} := by
  rcases List.nodup_cons.1 hNodup with ⟨hNull, hHashes⟩
  have hMem :
      ∀ a ∈ as, ∀ x ∈ a.images,
        x ∈ (as.flatMap Asset.images).eraseDups :=
    fun a hA x hX =>
      List.mem_eraseDups.2 (List.mem_flatMap.2 ⟨a, hA, hX⟩)
  refine ⟨?_, ?_, hShort⟩
  · intro a hA b hB x hX y hY hSame
    exact List.inj_on_of_nodup_map hHashes (hMem a hA x hX)
      (hMem b hB y hY) hSame
  · intro a hA x hX hSame
    apply hNull
    rw [← hSame]
    exact List.mem_map_of_mem (hMem a hA x hX)

/- The same of two lists of assets together. -/
theorem of_nodup_append
    {as bs : List Asset}
    (hNodup :
      (Checksum.null ::
        ((as ++ bs).flatMap Asset.images).eraseDups.map
          Checksum.ofContent).Nodup)
    (hShort :
      ∀ a ∈ as ++ bs, a.encode.length < Codec.memoryLimit) :
    Faithful {a | a ∈ as ∨ a ∈ bs} := by
  have hBoth : Faithful {a | a ∈ as ++ bs} :=
    of_nodup hNodup hShort
  simpa only [List.mem_append] using hBoth

/- Fewer assets ask for less. -/
theorem mono
    {fewer : Set Asset}
    (hFaithful : Faithful assets)
    (hSubset : ∀ a ∈ fewer, a ∈ assets) :
    Faithful fewer where
  injective a hA b hB :=
    hFaithful.injective a (hSubset a hA) b (hSubset b hB)
  notNull a hA := hFaithful.notNull a (hSubset a hA)
  short a hA := hFaithful.short a (hSubset a hA)

theorem checksum_ne_null
    (hFaithful : Faithful assets)
    {a : Asset}
    (hA : a ∈ assets) :
    a.checksum ≠ Checksum.null :=
  hFaithful.notNull a hA _ a.preimage_mem_images

/- Any two of the assets are told apart by their checksums. -/
theorem separated
    (hFaithful : Faithful assets)
    {a b : Asset}
    (hA : a ∈ assets)
    (hB : b ∈ assets) :
    a.Separated b where
  injective := hFaithful.injective a hA b hB
  short := hFaithful.short a hA

/- Collections with the same checksum have the same members. -/
theorem members_eq
    (hFaithful : Faithful assets)
    {a b : Asset}
    (hA : a ∈ assets)
    (hB : b ∈ assets)
    {c d : Collection}
    (hC : c ∈ a.collections)
    (hD : d ∈ b.collections)
    (hSame : c.recomputed = d.recomputed) :
    c.members = d.members := by
  change c.canonical.members = d.canonical.members
  rw [(hFaithful.separated hA hB).collection_eq hC hD hSame]

section

variable
  (hFaithful : Faithful assets)
  {a b : Asset}
  (hA : a ∈ assets)
  (hB : b ∈ assets)

include hFaithful hA hB

/-
  Assets with the same checksum are the same up to the
  checksums they carry.
-/
theorem canonical_eq
    (hSame : a.checksum = b.checksum) :
    a.canonical = b.canonical :=
  (hFaithful.separated hA hB).canonical_eq hSame

/- Sealed assets are told apart by their checksums. -/
theorem eq_of_checksum
    (hSealedA : a.IsSealed)
    (hSealedB : b.IsSealed)
    (hSame : a.checksum = b.checksum) :
    a = b := by
  rw [← show a.canonical = a from hSealedA,
    ← show b.canonical = b from hSealedB]
  exact hFaithful.canonical_eq hA hB hSame

end

end Faithful

end SnapTree
