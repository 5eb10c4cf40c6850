import SnapTree.Content.Format

/-
  This file defines collections: ordered lists of checksums
  that carry a checksum over the whole list.

  Key definitions include:
    * `CollectionKind`
    * `Collection`
    * `Collection.preimage`
    * `Collection.compute`
    * `Collection.of`
    * `Collection.isConsistent`
-/

namespace SnapTree

/- Which list of children a collection describes. -/
inductive CollectionKind where
  | projects
  | documents (kind : DocumentKind)
  | projectReferences
  | metadataReferences
  | analyzerReferences
deriving DecidableEq

namespace CollectionKind

/- The kinds of collection in the order of their indices. -/
def all : List CollectionKind :=
  [.projects, .documents .ordinary, .documents .additional,
    .documents .analyzerConfig, .projectReferences,
    .metadataReferences, .analyzerReferences]

/- The byte that every collection of a kind starts with. -/
def tag
    (kind : CollectionKind) : UInt8 :=
  UInt8.ofNat (0x40 + all.idxOf kind)

/- The name of a kind of collection. -/
def name : CollectionKind → String
  | .projects => "Projects"
  | .documents .ordinary => "Documents"
  | .documents .additional => "AdditionalDocuments"
  | .documents .analyzerConfig => "AnalyzerConfigDocuments"
  | .projectReferences => "ProjectReferences"
  | .metadataReferences => "MetadataReferences"
  | .analyzerReferences => "AnalyzerReferences"

end CollectionKind

/-
  An ordered list of checksums and a checksum for the list.
  A collection that came from elsewhere may carry a checksum
  that does not fit its members.
-/
structure Collection where
  kind : CollectionKind
  checksum : Checksum
  members : List Checksum
deriving DecidableEq

namespace Collection

/- The bytes hashed for a list of members. -/
def preimage
    (kind : CollectionKind)
    (members : List Checksum) : List UInt8 :=
  kind.tag ::
    (Codec.count members.length ++
      members.flatMap Checksum.toList)

/- The checksum of a list of members. -/
def compute
    (kind : CollectionKind)
    (members : List Checksum) : Checksum :=
  Checksum.ofContent (preimage kind members)

/- The collection of a list of members. -/
def of
    (kind : CollectionKind)
    (members : List Checksum) : Collection :=
  ⟨kind, compute kind members, members⟩

/- The checksum that fits the members. -/
def recomputed
    (c : Collection) : Checksum :=
  compute c.kind c.members

/- Whether the checksum carried fits the members. -/
def isConsistent
    (c : Collection) : Bool :=
  c.recomputed == c.checksum

/- The binary format of a collection. -/
def codec : Codec Collection :=
  ((Codec.enumeration CollectionKind.all).pair
    (Checksum.codec.pair Checksum.codec.list)).rename
    (fun c => (c.kind, c.checksum, c.members))
    (fun p => ⟨p.1, p.2.1, p.2.2⟩)

@[simp]
theorem checksum_of
    (kind : CollectionKind)
    (members : List Checksum) :
    (of kind members).checksum = compute kind members :=
  rfl

@[simp]
theorem members_of
    (kind : CollectionKind)
    (members : List Checksum) :
    (of kind members).members = members :=
  rfl

@[simp]
theorem recomputed_of
    (kind : CollectionKind)
    (members : List Checksum) :
    (of kind members).recomputed = compute kind members :=
  rfl

end Collection

end SnapTree
