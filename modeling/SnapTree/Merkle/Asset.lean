import SnapTree.Merkle.Node

/-
  This file defines assets: the closed set of values that a
  store can hold, each named by its checksum.

  Key definitions include:
    * `AssetKind`
    * `Asset`
    * `Asset.preimage`
    * `Asset.checksum`
    * `Asset.encode`
    * `Asset.decode?`
    * `AssetValue`
-/

namespace SnapTree

------------------------------------------------------------
-- Kinds of asset
------------------------------------------------------------

/- The kinds of value that a store can hold. -/
inductive AssetKind where
  | solutionNode
  | projectNode
  | documentNode
  | solutionAttributes
  | projectAttributes
  | documentAttributes
  | compilationOptions
  | parseOptions
  | projectReference
  | metadataReference
  | analyzerReference
  | text
  | frozenIdentity
deriving DecidableEq

namespace AssetKind

/- The kinds of asset in the order of their indices. -/
def all : List AssetKind :=
  [.solutionNode, .projectNode, .documentNode,
    .solutionAttributes, .projectAttributes,
    .documentAttributes, .compilationOptions, .parseOptions,
    .projectReference, .metadataReference,
    .analyzerReference, .text, .frozenIdentity]

/- The byte that the preimage of every such asset starts with. -/
def tag
    (kind : AssetKind) : UInt8 :=
  UInt8.ofNat (all.idxOf kind + 1)

/- The name of a kind of asset. -/
def name : AssetKind → String
  | .solutionNode => "SolutionChecksums"
  | .projectNode => "ProjectChecksums"
  | .documentNode => "DocumentChecksums"
  | .solutionAttributes => "SolutionAttributes"
  | .projectAttributes => "ProjectAttributes"
  | .documentAttributes => "DocumentAttributes"
  | .compilationOptions => "CompilationOptions"
  | .parseOptions => "ParseOptions"
  | .projectReference => "ProjectReference"
  | .metadataReference => "MetadataReference"
  | .analyzerReference => "AnalyzerReference"
  | .text => "Text"
  | .frozenIdentity => "FrozenDocumentIdentity"

end AssetKind

------------------------------------------------------------
-- Assets
------------------------------------------------------------

/- A value that a store can hold. -/
inductive Asset where
  | solutionNode (value : SolutionNode)
  | projectNode (value : ProjectNode)
  | documentNode (value : DocumentNode)
  | solutionAttributes (value : SolutionAttributes)
  | projectAttributes (value : ProjectAttributes)
  | documentAttributes (value : DocumentAttributes)
  | compilationOptions (value : CompilationOptions)
  | parseOptions (value : ParseOptions)
  | projectReference (value : ProjectReference)
  | metadataReference (value : MetadataReference)
  | analyzerReference (value : AnalyzerReference)
  | text (value : String)
  | frozenIdentity (value : FrozenIdentity)
deriving DecidableEq

namespace Asset

/- The kind of an asset. -/
def kind : Asset → AssetKind
  | .solutionNode _ => .solutionNode
  | .projectNode _ => .projectNode
  | .documentNode _ => .documentNode
  | .solutionAttributes _ => .solutionAttributes
  | .projectAttributes _ => .projectAttributes
  | .documentAttributes _ => .documentAttributes
  | .compilationOptions _ => .compilationOptions
  | .parseOptions _ => .parseOptions
  | .projectReference _ => .projectReference
  | .metadataReference _ => .metadataReference
  | .analyzerReference _ => .analyzerReference
  | .text _ => .text
  | .frozenIdentity _ => .frozenIdentity

/- The binary format of the value of an asset. -/
def encodeValue : Asset → List UInt8
  | .solutionNode v => SolutionNode.codec.encode v
  | .projectNode v => ProjectNode.codec.encode v
  | .documentNode v => DocumentNode.codec.encode v
  | .solutionAttributes v => SolutionAttributes.codec.encode v
  | .projectAttributes v => ProjectAttributes.codec.encode v
  | .documentAttributes v => DocumentAttributes.codec.encode v
  | .compilationOptions v => CompilationOptions.codec.encode v
  | .parseOptions v => ParseOptions.codec.encode v
  | .projectReference v => ProjectReference.codec.encode v
  | .metadataReference v => MetadataReference.codec.encode v
  | .analyzerReference v => AnalyzerReference.codec.encode v
  | .text v => Codec.text.encode v
  | .frozenIdentity v => FrozenIdentity.codec.encode v

------------------------------------------------------------
-- Checksums
------------------------------------------------------------

/-
  The bytes hashed for an asset, with a leading byte for its
  kind.  For a node these are the checksums of its parts, with
  those of its collections computed afresh; for any other
  value they are its binary form.
-/
def preimage : Asset → List UInt8
  | .solutionNode v => v.preimage
  | .projectNode v => v.preimage
  | .documentNode v => v.preimage
  | a => a.kind.tag :: a.encodeValue

/- The checksum of an asset, computed from its content. -/
def checksum
    (a : Asset) : Checksum :=
  Checksum.ofContent a.preimage

------------------------------------------------------------
-- Binary form
------------------------------------------------------------

/- The binary form of an asset: its kind, then its value. -/
def encode
    (a : Asset) : List UInt8 :=
  (Codec.enumeration AssetKind.all).encode a.kind ++
    a.encodeValue

/- Read the value of an asset whose kind is known. -/
def decodeValue : AssetKind → List UInt8 → Option (Asset × List UInt8)
  | .solutionNode, b =>
      (SolutionNode.codec.decode b).map (Prod.map .solutionNode id)
  | .projectNode, b =>
      (ProjectNode.codec.decode b).map (Prod.map .projectNode id)
  | .documentNode, b =>
      (DocumentNode.codec.decode b).map (Prod.map .documentNode id)
  | .solutionAttributes, b =>
      (SolutionAttributes.codec.decode b).map
        (Prod.map .solutionAttributes id)
  | .projectAttributes, b =>
      (ProjectAttributes.codec.decode b).map
        (Prod.map .projectAttributes id)
  | .documentAttributes, b =>
      (DocumentAttributes.codec.decode b).map
        (Prod.map .documentAttributes id)
  | .compilationOptions, b =>
      (CompilationOptions.codec.decode b).map
        (Prod.map .compilationOptions id)
  | .parseOptions, b =>
      (ParseOptions.codec.decode b).map (Prod.map .parseOptions id)
  | .projectReference, b =>
      (ProjectReference.codec.decode b).map
        (Prod.map .projectReference id)
  | .metadataReference, b =>
      (MetadataReference.codec.decode b).map
        (Prod.map .metadataReference id)
  | .analyzerReference, b =>
      (AnalyzerReference.codec.decode b).map
        (Prod.map .analyzerReference id)
  | .text, b => (Codec.text.decode b).map (Prod.map .text id)
  | .frozenIdentity, b =>
      (FrozenIdentity.codec.decode b).map
        (Prod.map .frozenIdentity id)

/- The binary format of assets. -/
def codec : Codec Asset where
  encode := encode
  decode bytes :=
    match (Codec.enumeration AssetKind.all).decode bytes with
    | none => none
    | some (kind, rest) => decodeValue kind rest

/- Read an asset; bytes that follow it are left alone. -/
def decode?
    (bytes : List UInt8) : Option Asset :=
  (codec.decode bytes).map Prod.fst

end Asset

------------------------------------------------------------
-- Typed views
------------------------------------------------------------

/- The types of value that assets are made of. -/
class AssetValue (α : Type) where
  kind : AssetKind
  toAsset : α → Asset
  ofAsset? : Asset → Option α

namespace AssetValue

/- The checksum of a value is that of its asset. -/
def checksum
    {α : Type}
    [AssetValue α]
    (a : α) : Checksum :=
  (toAsset a).checksum

instance : AssetValue SolutionNode where
  kind := .solutionNode
  toAsset := .solutionNode
  ofAsset?
    | .solutionNode v => some v
    | _ => none

instance : AssetValue ProjectNode where
  kind := .projectNode
  toAsset := .projectNode
  ofAsset?
    | .projectNode v => some v
    | _ => none

instance : AssetValue DocumentNode where
  kind := .documentNode
  toAsset := .documentNode
  ofAsset?
    | .documentNode v => some v
    | _ => none

instance : AssetValue SolutionAttributes where
  kind := .solutionAttributes
  toAsset := .solutionAttributes
  ofAsset?
    | .solutionAttributes v => some v
    | _ => none

instance : AssetValue ProjectAttributes where
  kind := .projectAttributes
  toAsset := .projectAttributes
  ofAsset?
    | .projectAttributes v => some v
    | _ => none

instance : AssetValue DocumentAttributes where
  kind := .documentAttributes
  toAsset := .documentAttributes
  ofAsset?
    | .documentAttributes v => some v
    | _ => none

instance : AssetValue CompilationOptions where
  kind := .compilationOptions
  toAsset := .compilationOptions
  ofAsset?
    | .compilationOptions v => some v
    | _ => none

instance : AssetValue ParseOptions where
  kind := .parseOptions
  toAsset := .parseOptions
  ofAsset?
    | .parseOptions v => some v
    | _ => none

instance : AssetValue ProjectReference where
  kind := .projectReference
  toAsset := .projectReference
  ofAsset?
    | .projectReference v => some v
    | _ => none

instance : AssetValue MetadataReference where
  kind := .metadataReference
  toAsset := .metadataReference
  ofAsset?
    | .metadataReference v => some v
    | _ => none

instance : AssetValue AnalyzerReference where
  kind := .analyzerReference
  toAsset := .analyzerReference
  ofAsset?
    | .analyzerReference v => some v
    | _ => none

instance : AssetValue String where
  kind := .text
  toAsset := .text
  ofAsset?
    | .text v => some v
    | _ => none

instance : AssetValue FrozenIdentity where
  kind := .frozenIdentity
  toAsset := .frozenIdentity
  ofAsset?
    | .frozenIdentity v => some v
    | _ => none

end AssetValue

end SnapTree
