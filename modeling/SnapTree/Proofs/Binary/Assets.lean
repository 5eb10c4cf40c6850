import SnapTree.Merkle.Asset
import SnapTree.Proofs.Binary.Lawful

/-
  This file proves that the binary formats of all values and
  of assets are lawful.

  Key theorems include:
    * `Asset.lawful_codec`
    * `Asset.decode?_encode`
-/

namespace SnapTree

open Codec

------------------------------------------------------------
-- Checksums and identities
------------------------------------------------------------

theorem Checksum.lawful_codec : Checksum.codec.Lawful :=
  (lawful_fixed (by decide)).rename (fun _ => rfl)

theorem Uuid.lawful_codec : Uuid.codec.Lawful :=
  (lawful_word64.pair (lawful_fixed (by decide))).refine
    (fun _ => rfl)

theorem NodeId.lawful_codec
    {level : Level} :
    (NodeId.codec : Codec (NodeId level)).Lawful :=
  Uuid.lawful_codec.rename (fun _ => rfl)

------------------------------------------------------------
-- Choices
------------------------------------------------------------

theorem SourceHash.lawful_enumeration :
    (enumeration SourceHash.all).Lawful :=
  Codec.lawful_enumeration (by rintro (_ | _) <;> decide)
    (by decide)

theorem SourceKind.lawful_enumeration :
    (enumeration SourceKind.all).Lawful :=
  Codec.lawful_enumeration (by rintro (_ | _) <;> decide)
    (by decide)

theorem OutputKind.lawful_enumeration :
    (enumeration OutputKind.all).Lawful :=
  Codec.lawful_enumeration
    (by rintro (_ | _ | _ | _ | _ | _) <;> decide) (by decide)

theorem NullableContext.lawful_enumeration :
    (enumeration NullableContext.all).Lawful :=
  Codec.lawful_enumeration
    (by rintro (_ | _ | _ | _) <;> decide) (by decide)

theorem DocumentationMode.lawful_enumeration :
    (enumeration DocumentationMode.all).Lawful :=
  Codec.lawful_enumeration
    (by rintro (_ | _ | _) <;> decide) (by decide)

theorem CollectionKind.mem_all
    (kind : CollectionKind) :
    kind ∈ CollectionKind.all := by
  cases kind with
  | documents kind => cases kind <;> decide
  | _ => decide

theorem CollectionKind.lawful_enumeration :
    (enumeration CollectionKind.all).Lawful :=
  Codec.lawful_enumeration CollectionKind.mem_all (by decide)

theorem AssetKind.mem_all
    (kind : AssetKind) :
    kind ∈ AssetKind.all := by
  cases kind <;> decide

theorem AssetKind.lawful_enumeration :
    (enumeration AssetKind.all).Lawful :=
  Codec.lawful_enumeration AssetKind.mem_all (by decide)

------------------------------------------------------------
-- Values
------------------------------------------------------------

theorem SolutionAttributes.lawful_codec :
    SolutionAttributes.codec.Lawful :=
  (NodeId.lawful_codec.pair
    (lawful_text.option.pair lawful_word64)).rename
      (fun _ => rfl)

theorem ProjectAttributes.lawful_codec :
    ProjectAttributes.codec.Lawful :=
  (NodeId.lawful_codec.pair (lawful_text.pair
    (lawful_text.pair (lawful_text.pair
      (lawful_text.option.pair (lawful_text.option.pair
        (lawful_text.option.pair (lawful_text.option.pair
          (lawful_bool.pair (lawful_bool.pair
            (lawful_bool.pair
              SourceHash.lawful_enumeration))))))))))).rename
                (fun _ => rfl)

theorem DocumentAttributes.lawful_codec :
    DocumentAttributes.codec.Lawful :=
  (NodeId.lawful_codec.pair (lawful_text.pair
    (lawful_text.list.pair
      (SourceKind.lawful_enumeration.pair
        (lawful_text.option.pair
          (lawful_bool.pair lawful_bool)))))).rename
            (fun _ => rfl)

theorem FrozenIdentity.lawful_codec :
    FrozenIdentity.codec.Lawful :=
  (NodeId.lawful_codec.pair (NodeId.lawful_codec.pair
    (lawful_text.pair lawful_text))).rename (fun _ => rfl)

theorem CompilationOptions.lawful_codec :
    CompilationOptions.codec.Lawful :=
  (OutputKind.lawful_enumeration.pair (lawful_bool.pair
    (lawful_bool.pair (lawful_byte.pair
      NullableContext.lawful_enumeration)))).rename
        (fun _ => rfl)

theorem ParseOptions.lawful_codec :
    ParseOptions.codec.Lawful :=
  (lawful_text.pair (lawful_text.list.pair
    DocumentationMode.lawful_enumeration)).rename
      (fun _ => rfl)

theorem ProjectReference.lawful_codec :
    ProjectReference.codec.Lawful :=
  (NodeId.lawful_codec.pair
    (lawful_text.list.pair lawful_bool)).rename (fun _ => rfl)

theorem MetadataReference.lawful_codec :
    MetadataReference.codec.Lawful :=
  (lawful_text.pair
    (lawful_text.list.pair lawful_bool)).rename (fun _ => rfl)

theorem AnalyzerReference.lawful_codec :
    AnalyzerReference.codec.Lawful :=
  (lawful_text.pair lawful_text).rename (fun _ => rfl)

------------------------------------------------------------
-- Nodes
------------------------------------------------------------

theorem Collection.lawful_codec : Collection.codec.Lawful :=
  (CollectionKind.lawful_enumeration.pair
    (Checksum.lawful_codec.pair
      Checksum.lawful_codec.list)).rename (fun _ => rfl)

theorem DocumentNode.lawful_codec :
    DocumentNode.codec.Lawful :=
  (Checksum.lawful_codec.pair (Checksum.lawful_codec.pair
    Checksum.lawful_codec)).rename (fun _ => rfl)

theorem ProjectNode.lawful_codec :
    ProjectNode.codec.Lawful :=
  (Checksum.lawful_codec.pair (Checksum.lawful_codec.pair
    (Checksum.lawful_codec.pair (Checksum.lawful_codec.pair
      (Collection.lawful_codec.pair
        (Collection.lawful_codec.pair
          (Collection.lawful_codec.pair
            (Collection.lawful_codec.pair
              (Collection.lawful_codec.pair
                Collection.lawful_codec))))))))).rename
                  (fun _ => rfl)

theorem SolutionNode.lawful_codec :
    SolutionNode.codec.Lawful :=
  (Checksum.lawful_codec.pair (Checksum.lawful_codec.pair
    (Collection.lawful_codec.pair
      (Collection.lawful_codec.pair
        (Checksum.lawful_codec.pair
          Checksum.lawful_codec))))).rename (fun _ => rfl)

------------------------------------------------------------
-- Assets
------------------------------------------------------------

namespace Asset

/- What was written for a value is read as its asset. -/
theorem map_decode_encode
    {α : Type}
    {c : Codec α}
    (hLawful : c.Lawful)
    (make : α → Asset)
    (value : α)
    (rest : List UInt8)
    (hShort : (c.encode value).length < memoryLimit) :
    (c.decode (c.encode value ++ rest)).map
        (Prod.map make id) =
      some (make value, rest) := by
  rw [hLawful.decode_encode value rest hShort]
  rfl

/- The value of an asset is read back when its kind is known. -/
theorem decodeValue_encodeValue
    (a : Asset)
    (rest : List UInt8)
    (hShort : a.encodeValue.length < memoryLimit) :
    decodeValue a.kind (a.encodeValue ++ rest) =
      some (a, rest) := by
  cases a with
  | solutionNode v =>
      simp only [kind, encodeValue, decodeValue] at hShort ⊢
      exact map_decode_encode SolutionNode.lawful_codec _ v rest hShort
  | projectNode v =>
      simp only [kind, encodeValue, decodeValue] at hShort ⊢
      exact map_decode_encode ProjectNode.lawful_codec _ v rest hShort
  | documentNode v =>
      simp only [kind, encodeValue, decodeValue] at hShort ⊢
      exact map_decode_encode DocumentNode.lawful_codec _ v rest hShort
  | solutionAttributes v =>
      simp only [kind, encodeValue, decodeValue] at hShort ⊢
      exact map_decode_encode SolutionAttributes.lawful_codec _ v rest hShort
  | projectAttributes v =>
      simp only [kind, encodeValue, decodeValue] at hShort ⊢
      exact map_decode_encode ProjectAttributes.lawful_codec _ v rest hShort
  | documentAttributes v =>
      simp only [kind, encodeValue, decodeValue] at hShort ⊢
      exact map_decode_encode DocumentAttributes.lawful_codec _ v rest hShort
  | compilationOptions v =>
      simp only [kind, encodeValue, decodeValue] at hShort ⊢
      exact map_decode_encode CompilationOptions.lawful_codec _ v rest hShort
  | parseOptions v =>
      simp only [kind, encodeValue, decodeValue] at hShort ⊢
      exact map_decode_encode ParseOptions.lawful_codec _ v rest hShort
  | projectReference v =>
      simp only [kind, encodeValue, decodeValue] at hShort ⊢
      exact map_decode_encode ProjectReference.lawful_codec _ v rest hShort
  | metadataReference v =>
      simp only [kind, encodeValue, decodeValue] at hShort ⊢
      exact map_decode_encode MetadataReference.lawful_codec _ v rest hShort
  | analyzerReference v =>
      simp only [kind, encodeValue, decodeValue] at hShort ⊢
      exact map_decode_encode AnalyzerReference.lawful_codec _ v rest hShort
  | text v =>
      simp only [kind, encodeValue, decodeValue] at hShort ⊢
      exact map_decode_encode lawful_text _ v rest hShort
  | frozenIdentity v =>
      simp only [kind, encodeValue, decodeValue] at hShort ⊢
      exact map_decode_encode FrozenIdentity.lawful_codec _ v rest hShort

theorem lawful_codec : Asset.codec.Lawful where
  encode_ne_nil a := by
    simp [codec, encode,
      AssetKind.lawful_enumeration.encode_ne_nil]
  decode_encode a rest hShort := by
    simp only [codec, encode, List.length_append]
      at hShort ⊢
    rw [List.append_assoc,
      AssetKind.lawful_enumeration.decode_encode _ _
        (by omega)]
    exact decodeValue_encodeValue a rest (by omega)

/- An asset is read back from its binary form. -/
theorem decode?_encode
    (a : Asset)
    (hShort : a.encode.length < memoryLimit) :
    decode? a.encode = some a := by
  have hRead := lawful_codec.decode_encode a [] hShort
  rw [List.append_nil] at hRead
  exact congrArg (Option.map Prod.fst) hRead

/- Assets of one kind with the same binary form are equal. -/
theorem eq_of_encodeValue
    {a b : Asset}
    (hShort : a.encode.length < memoryLimit)
    (hKind : a.kind = b.kind)
    (hValue : a.encodeValue = b.encodeValue) :
    a = b :=
  lawful_codec.encode_injective hShort (by
    change a.encode = b.encode
    rw [encode, encode, hKind, hValue])

end Asset

end SnapTree
