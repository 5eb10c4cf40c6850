import SnapTree.Storage.AssetError

/-
  This file proves that the types of value are faithful views
  of assets: an asset is of at most one of them, and then it is
  made of exactly one value.

  Key definitions include:
    * `LawfulValue`

  Key theorems include:
    * `toAsset_injective`
    * `Asset.value_eq_ok_iff`
-/

namespace SnapTree

/- A value can be taken out of the asset made of it, no other. -/
class LawfulValue
    (α : Type)
    [AssetValue α] : Prop where
  ofAsset?_toAsset :
    ∀ v : α,
      AssetValue.ofAsset? (AssetValue.toAsset v) = some v
  toAsset_ofAsset? :
    ∀ (a : Asset) (v : α),
      AssetValue.ofAsset? a = some v → AssetValue.toAsset v = a

instance : LawfulValue SolutionNode where
  ofAsset?_toAsset _ := rfl
  toAsset_ofAsset? a v hSame := by
    cases a <;> cases hSame
    rfl

instance : LawfulValue ProjectNode where
  ofAsset?_toAsset _ := rfl
  toAsset_ofAsset? a v hSame := by
    cases a <;> cases hSame
    rfl

instance : LawfulValue DocumentNode where
  ofAsset?_toAsset _ := rfl
  toAsset_ofAsset? a v hSame := by
    cases a <;> cases hSame
    rfl

instance : LawfulValue SolutionAttributes where
  ofAsset?_toAsset _ := rfl
  toAsset_ofAsset? a v hSame := by
    cases a <;> cases hSame
    rfl

instance : LawfulValue ProjectAttributes where
  ofAsset?_toAsset _ := rfl
  toAsset_ofAsset? a v hSame := by
    cases a <;> cases hSame
    rfl

instance : LawfulValue DocumentAttributes where
  ofAsset?_toAsset _ := rfl
  toAsset_ofAsset? a v hSame := by
    cases a <;> cases hSame
    rfl

instance : LawfulValue CompilationOptions where
  ofAsset?_toAsset _ := rfl
  toAsset_ofAsset? a v hSame := by
    cases a <;> cases hSame
    rfl

instance : LawfulValue ParseOptions where
  ofAsset?_toAsset _ := rfl
  toAsset_ofAsset? a v hSame := by
    cases a <;> cases hSame
    rfl

instance : LawfulValue ProjectReference where
  ofAsset?_toAsset _ := rfl
  toAsset_ofAsset? a v hSame := by
    cases a <;> cases hSame
    rfl

instance : LawfulValue MetadataReference where
  ofAsset?_toAsset _ := rfl
  toAsset_ofAsset? a v hSame := by
    cases a <;> cases hSame
    rfl

instance : LawfulValue AnalyzerReference where
  ofAsset?_toAsset _ := rfl
  toAsset_ofAsset? a v hSame := by
    cases a <;> cases hSame
    rfl

instance : LawfulValue String where
  ofAsset?_toAsset _ := rfl
  toAsset_ofAsset? a v hSame := by
    cases a <;> cases hSame
    rfl

instance : LawfulValue FrozenIdentity where
  ofAsset?_toAsset _ := rfl
  toAsset_ofAsset? a v hSame := by
    cases a <;> cases hSame
    rfl

/- Equal assets are made of equal values. -/
theorem toAsset_injective
    {α : Type}
    [AssetValue α]
    [LawfulValue α]
    {v w : α}
    (hSame : AssetValue.toAsset v = AssetValue.toAsset w) :
    v = w := by
  apply Option.some.inj
  rw [← LawfulValue.ofAsset?_toAsset v, hSame,
    LawfulValue.ofAsset?_toAsset]

/- A value is taken out of exactly the asset made of it. -/
theorem Asset.value_eq_ok_iff
    {α : Type}
    [AssetValue α]
    [LawfulValue α]
    {a : Asset}
    {c : Checksum}
    {v : α} :
    a.value c = .ok v ↔ a = AssetValue.toAsset v := by
  unfold Asset.value
  constructor
  · intro hOk
    cases hValue : AssetValue.ofAsset? (α := α) a with
    | none => simp [hValue] at hOk
    | some w =>
        simp only [hValue] at hOk
        rw [← LawfulValue.toAsset_ofAsset? a w hValue,
          Except.ok.inj hOk]
  · rintro rfl
    rw [LawfulValue.ofAsset?_toAsset]

end SnapTree
