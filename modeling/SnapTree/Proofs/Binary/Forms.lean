import SnapTree.Proofs.Binary.Assets
import SnapTree.Proofs.Binary.Canonical

/-
  This file proves that the binary form of an asset is the
  only one that is read as it.  A byte string is read as an
  asset exactly when it starts with the asset's form, so no
  form is part of another, and the asset that is read has the
  checksum of the one that was written.

  Key theorems include:
    * `Asset.canonical_codec`
    * `Asset.decode?_forms`
-/

namespace SnapTree

open Codec

------------------------------------------------------------
-- Checksums and identities
------------------------------------------------------------

theorem Checksum.canonical_codec : Checksum.codec.Canonical :=
  canonical_fixed.rename (fun _ => rfl)

/- An identifier is sixteen bytes long and says so. -/
theorem Uuid.canonical_codec : Uuid.codec.Canonical :=
  (canonical_word64.pair canonical_fixed).refine (by
    intro p u hMade
    split at hMade
    next hSixteen =>
        cases hMade
        exact Prod.ext hSixteen.symm rfl
    next => cases hMade)

theorem NodeId.canonical_codec
    {level : Level} :
    (NodeId.codec : Codec (NodeId level)).Canonical :=
  Uuid.canonical_codec.rename (fun _ => rfl)

------------------------------------------------------------
-- Values
------------------------------------------------------------

theorem SolutionAttributes.canonical_codec :
    SolutionAttributes.codec.Canonical :=
  (NodeId.canonical_codec.pair
    (canonical_text.option.pair canonical_word64)).rename
      (fun _ => rfl)

theorem ProjectAttributes.canonical_codec :
    ProjectAttributes.codec.Canonical :=
  (NodeId.canonical_codec.pair (canonical_text.pair
    (canonical_text.pair (canonical_text.pair
      (canonical_text.option.pair (canonical_text.option.pair
        (canonical_text.option.pair (canonical_text.option.pair
          (canonical_bool.pair (canonical_bool.pair
            (canonical_bool.pair
              (canonical_enumeration (by decide))))))))))))).rename
                (fun _ => rfl)

theorem DocumentAttributes.canonical_codec :
    DocumentAttributes.codec.Canonical :=
  (NodeId.canonical_codec.pair (canonical_text.pair
    (canonical_text.list.pair
      ((canonical_enumeration (by decide)).pair
        (canonical_text.option.pair
          (canonical_bool.pair canonical_bool)))))).rename
            (fun _ => rfl)

theorem FrozenIdentity.canonical_codec :
    FrozenIdentity.codec.Canonical :=
  (NodeId.canonical_codec.pair (NodeId.canonical_codec.pair
    (canonical_text.pair canonical_text))).rename (fun _ => rfl)

theorem CompilationOptions.canonical_codec :
    CompilationOptions.codec.Canonical :=
  ((canonical_enumeration (by decide)).pair (canonical_bool.pair
    (canonical_bool.pair (canonical_byte.pair
      (canonical_enumeration (by decide)))))).rename
        (fun _ => rfl)

theorem ParseOptions.canonical_codec :
    ParseOptions.codec.Canonical :=
  (canonical_text.pair (canonical_text.list.pair
    (canonical_enumeration (by decide)))).rename
      (fun _ => rfl)

theorem ProjectReference.canonical_codec :
    ProjectReference.codec.Canonical :=
  (NodeId.canonical_codec.pair
    (canonical_text.list.pair canonical_bool)).rename (fun _ => rfl)

theorem MetadataReference.canonical_codec :
    MetadataReference.codec.Canonical :=
  (canonical_text.pair
    (canonical_text.list.pair canonical_bool)).rename (fun _ => rfl)

theorem AnalyzerReference.canonical_codec :
    AnalyzerReference.codec.Canonical :=
  (canonical_text.pair canonical_text).rename (fun _ => rfl)

------------------------------------------------------------
-- Nodes
------------------------------------------------------------

theorem Collection.canonical_codec : Collection.codec.Canonical :=
  ((canonical_enumeration (by decide)).pair
    (Checksum.canonical_codec.pair
      Checksum.canonical_codec.list)).rename (fun _ => rfl)

theorem DocumentNode.canonical_codec :
    DocumentNode.codec.Canonical :=
  (Checksum.canonical_codec.pair (Checksum.canonical_codec.pair
    Checksum.canonical_codec)).rename (fun _ => rfl)

theorem ProjectNode.canonical_codec :
    ProjectNode.codec.Canonical :=
  (Checksum.canonical_codec.pair (Checksum.canonical_codec.pair
    (Checksum.canonical_codec.pair (Checksum.canonical_codec.pair
      (Collection.canonical_codec.pair
        (Collection.canonical_codec.pair
          (Collection.canonical_codec.pair
            (Collection.canonical_codec.pair
              (Collection.canonical_codec.pair
                Collection.canonical_codec))))))))).rename
                  (fun _ => rfl)

theorem SolutionNode.canonical_codec :
    SolutionNode.codec.Canonical :=
  (Checksum.canonical_codec.pair (Checksum.canonical_codec.pair
    (Collection.canonical_codec.pair
      (Collection.canonical_codec.pair
        (Checksum.canonical_codec.pair
          Checksum.canonical_codec))))).rename (fun _ => rfl)

------------------------------------------------------------
-- Assets
------------------------------------------------------------

namespace Asset

/- What is read as an asset of some kind is its value's form. -/
theorem eq_append_of_map
    {α : Type}
    {c : Codec α}
    (hCanonical : c.Canonical)
    {make : α → Asset}
    {bytes rest : List UInt8}
    {a : Asset}
    (hRead :
      (c.decode bytes).map (Prod.map make id) =
        some (a, rest)) :
    ∃ value, a = make value ∧
      bytes = c.encode value ++ rest := by
  rw [Option.map_eq_some_iff] at hRead
  rcases hRead with ⟨⟨value, left⟩, hValue, hMade⟩
  cases hMade
  exact ⟨value, rfl, hCanonical.eq_append hValue⟩

/- An asset that is read has the kind it was read for. -/
theorem eq_append_of_decodeValue
    {kind : AssetKind}
    {bytes rest : List UInt8}
    {a : Asset}
    (hRead : decodeValue kind bytes = some (a, rest)) :
    a.kind = kind ∧ bytes = a.encodeValue ++ rest := by
  cases kind with
  | solutionNode =>
      rcases eq_append_of_map SolutionNode.canonical_codec hRead with
        ⟨value, rfl, hBytes⟩
      exact ⟨rfl, hBytes⟩
  | projectNode =>
      rcases eq_append_of_map ProjectNode.canonical_codec hRead with
        ⟨value, rfl, hBytes⟩
      exact ⟨rfl, hBytes⟩
  | documentNode =>
      rcases eq_append_of_map DocumentNode.canonical_codec hRead with
        ⟨value, rfl, hBytes⟩
      exact ⟨rfl, hBytes⟩
  | solutionAttributes =>
      rcases eq_append_of_map SolutionAttributes.canonical_codec hRead with
        ⟨value, rfl, hBytes⟩
      exact ⟨rfl, hBytes⟩
  | projectAttributes =>
      rcases eq_append_of_map ProjectAttributes.canonical_codec hRead with
        ⟨value, rfl, hBytes⟩
      exact ⟨rfl, hBytes⟩
  | documentAttributes =>
      rcases eq_append_of_map DocumentAttributes.canonical_codec hRead with
        ⟨value, rfl, hBytes⟩
      exact ⟨rfl, hBytes⟩
  | compilationOptions =>
      rcases eq_append_of_map CompilationOptions.canonical_codec hRead with
        ⟨value, rfl, hBytes⟩
      exact ⟨rfl, hBytes⟩
  | parseOptions =>
      rcases eq_append_of_map ParseOptions.canonical_codec hRead with
        ⟨value, rfl, hBytes⟩
      exact ⟨rfl, hBytes⟩
  | projectReference =>
      rcases eq_append_of_map ProjectReference.canonical_codec hRead with
        ⟨value, rfl, hBytes⟩
      exact ⟨rfl, hBytes⟩
  | metadataReference =>
      rcases eq_append_of_map MetadataReference.canonical_codec hRead with
        ⟨value, rfl, hBytes⟩
      exact ⟨rfl, hBytes⟩
  | analyzerReference =>
      rcases eq_append_of_map AnalyzerReference.canonical_codec hRead with
        ⟨value, rfl, hBytes⟩
      exact ⟨rfl, hBytes⟩
  | text =>
      rcases eq_append_of_map canonical_text hRead with
        ⟨value, rfl, hBytes⟩
      exact ⟨rfl, hBytes⟩
  | frozenIdentity =>
      rcases eq_append_of_map FrozenIdentity.canonical_codec hRead with
        ⟨value, rfl, hBytes⟩
      exact ⟨rfl, hBytes⟩

theorem canonical_codec : Asset.codec.Canonical where
  eq_append := by
    intro bytes a rest hRead
    simp only [codec] at hRead ⊢
    have hKinds : (enumeration AssetKind.all).Canonical :=
      canonical_enumeration (by decide)
    cases hKind : (enumeration AssetKind.all).decode bytes with
    | none => simp [hKind] at hRead
    | some read =>
        rcases read with ⟨kind, left⟩
        simp only [hKind] at hRead
        rcases eq_append_of_decodeValue hRead with ⟨hSame, hValue⟩
        rw [encode, List.append_assoc, ← hValue, hSame]
        exact hKinds.eq_append hKind

------------------------------------------------------------
-- Reading assets
------------------------------------------------------------

/- An asset is read back whatever follows its form. -/
theorem decode?_append
    (a : Asset)
    (rest : List UInt8)
    (hShort : a.encode.length < memoryLimit) :
    decode? (a.encode ++ rest) = some a :=
  congrArg (Option.map Prod.fst)
    (lawful_codec.decode_encode a rest hShort)

/- Bytes that are read as an asset start with its form. -/
theorem eq_append_of_decode?
    {bytes : List UInt8}
    {a : Asset}
    (hRead : decode? bytes = some a) :
    ∃ rest, bytes = a.encode ++ rest := by
  rw [decode?, Option.map_eq_some_iff] at hRead
  rcases hRead with ⟨⟨b, rest⟩, hDecode, hSame⟩
  cases hSame
  exact ⟨rest, canonical_codec.eq_append hDecode⟩

/-
  Assets and their forms determine each other.  An asset is
  read back from its form whatever follows it; all that is
  read as an asset starts with its form; no form is part of
  another; nothing is read from a proper part of a form; and
  the asset that is read has the checksum of the one written.

  A form is a byte string in memory, so it is shorter than
  what a memory can hold.
-/
theorem decode?_forms :
    (∀ (a : Asset) rest, a.encode.length < memoryLimit →
      decode? (a.encode ++ rest) = some a) ∧
    (∀ bytes a, decode? bytes = some a →
      ∃ rest, bytes = a.encode ++ rest) ∧
    (∀ (a b : Asset) rest rest',
      a.encode.length < memoryLimit →
      b.encode.length < memoryLimit →
      a.encode ++ rest = b.encode ++ rest' →
        a = b ∧ rest = rest') ∧
    (∀ (a : Asset) part, a.encode.length < memoryLimit →
      part <+: a.encode → part ≠ a.encode →
        decode? part = none) ∧
    (∀ (a : Asset) rest, a.encode.length < memoryLimit →
      (decode? (a.encode ++ rest)).map checksum =
        some a.checksum) := by
  refine ⟨decode?_append,
    fun _ _ => eq_append_of_decode?,
    fun a b rest rest' hShort hShort' =>
      lawful_codec.append_inj hShort hShort',
    fun a part hShort hPart hProper => ?_,
    fun a rest hShort => ?_⟩
  · rw [decode?, lawful_codec.decode_eq_none_of_prefix
      canonical_codec hShort hPart hProper]
    rfl
  · rw [decode?_append a rest hShort]
    rfl

/- A text is read before other bytes, and not when cut short. -/
theorem decode?_forms_text :
    decode? ((text "a").encode ++ [0]) = some (text "a") ∧
      decode? ((text "a").encode.take 12) = none := by
  have hByte : "a".utf8ByteSize = 1 := by decide
  have hLength : (text "a").encode.length = 13 := by
    simp [encode, encodeValue, Codec.text, enumeration,
      Codec.refine, word32, length_count, byteArray_toList,
      hByte]
  have hShort : (text "a").encode.length < memoryLimit := by
    simp [hLength, memoryLimit]
  refine ⟨decode?_forms.1 _ _ hShort,
    decode?_forms.2.2.2.1 (text "a") _ hShort
      (List.take_prefix 12 _) (fun hSame => ?_)⟩
  have hCut := congrArg List.length hSame
  rw [List.length_take, hLength] at hCut
  omega

end Asset

end SnapTree
