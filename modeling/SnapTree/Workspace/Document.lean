import SnapTree.Merkle.Asset
import SnapTree.Workspace.Description

/-
  This file defines the documents of a snapshot.

  Key definitions include:
    * `Document`
    * `Document.node`
    * `Document.describe`
-/

namespace SnapTree

/- A document of a snapshot, of one kind. -/
structure Document where
  kind : DocumentKind
  attributes : DocumentAttributes
  text : String
deriving DecidableEq

namespace Document

/- The document of a kind that a description gives. -/
def ofDescription
    (kind : DocumentKind)
    (d : DocumentDescription) : Document :=
  ⟨kind, d.attributes, d.text⟩

/- The description of a document. -/
def describe
    (d : Document) : DocumentDescription :=
  ⟨d.attributes, d.text⟩

/- The identity of a document. -/
def id
    (d : Document) : DocumentId :=
  d.attributes.id

/- The node of a document in the checksum tree. -/
def node
    (d : Document) : DocumentNode :=
  DocumentNode.of
    (AssetValue.checksum d.attributes)
    (AssetValue.checksum d.text)

/- The checksum of a document. -/
def checksum
    (d : Document) : Checksum :=
  d.node.checksum

end Document

end SnapTree
