import SnapTree.Merkle.Collection

/-
  This file defines the nodes of a checksum tree.  A node
  names each of its parts by a checksum, and its own checksum
  is a function of those: it carries that checksum along, and
  a node that came from elsewhere may carry a wrong one.

  Key definitions include:
    * `DocumentNode`
    * `ProjectNode`
    * `ProjectNode.valueChildren`
    * `ProjectNode.allDocuments`
    * `SolutionNode`
    * `SolutionNode.frozen?`
-/

namespace SnapTree

open Codec

------------------------------------------------------------
-- Documents
------------------------------------------------------------

/- The checksums of one document. -/
structure DocumentNode where
  checksum : Checksum
  attributes : Checksum
  text : Checksum
deriving DecidableEq

namespace DocumentNode

/- The bytes hashed for a document. -/
def preimage
    (n : DocumentNode) : List UInt8 :=
  3 :: (n.attributes.toList ++ n.text.toList)

/- The checksum that fits the parts of the node. -/
def computed
    (n : DocumentNode) : Checksum :=
  Checksum.ofContent n.preimage

/- The node with the given parts. -/
def of
    (attributes text : Checksum) : DocumentNode :=
  let n : DocumentNode := ⟨Checksum.null, attributes, text⟩
  { n with checksum := n.computed }

/- The binary format of a document node. -/
def codec : Codec DocumentNode :=
  (Checksum.codec.pair
    (Checksum.codec.pair Checksum.codec)).rename
    (fun n => (n.checksum, n.attributes, n.text))
    (fun p => ⟨p.1, p.2.1, p.2.2⟩)

end DocumentNode

------------------------------------------------------------
-- Projects
------------------------------------------------------------

/- The checksums of one project and of its children. -/
structure ProjectNode where
  checksum : Checksum
  attributes : Checksum
  compilationOptions : Checksum
  parseOptions : Checksum
  documents : ByKind Collection
  projectReferences : Collection
  metadataReferences : Collection
  analyzerReferences : Collection
deriving DecidableEq

namespace ProjectNode

/- The bytes hashed for a project. -/
def preimage
    (n : ProjectNode) : List UInt8 :=
  2 ::
    ([n.attributes, n.compilationOptions, n.parseOptions,
      n.documents.ordinary.recomputed,
      n.documents.additional.recomputed,
      n.documents.analyzerConfig.recomputed,
      n.projectReferences.recomputed,
      n.metadataReferences.recomputed,
      n.analyzerReferences.recomputed].flatMap Checksum.toList)

/- The checksum that fits the parts of the node. -/
def computed
    (n : ProjectNode) : Checksum :=
  Checksum.ofContent n.preimage

/- The same parts, with the checksum that fits them. -/
def sealed
    (n : ProjectNode) : ProjectNode :=
  { n with checksum := n.computed }

/- The documents of all kinds, in the order of the kinds. -/
def allDocuments
    (n : ProjectNode) : List Checksum :=
  n.documents.toList.flatMap Collection.members

/- The attributes, both options and all references. -/
def valueChildren
    (n : ProjectNode) : List Checksum :=
  [n.attributes, n.compilationOptions, n.parseOptions] ++
    n.projectReferences.members ++
      n.metadataReferences.members ++
        n.analyzerReferences.members

/- The binary format of a project node. -/
def codec : Codec ProjectNode :=
  (Checksum.codec.pair (Checksum.codec.pair
    (Checksum.codec.pair (Checksum.codec.pair
      (Collection.codec.pair (Collection.codec.pair
        (Collection.codec.pair (Collection.codec.pair
          (Collection.codec.pair
            Collection.codec))))))))).rename
    (fun n =>
      (n.checksum, n.attributes, n.compilationOptions,
        n.parseOptions, n.documents.ordinary,
        n.documents.additional, n.documents.analyzerConfig,
        n.projectReferences, n.metadataReferences,
        n.analyzerReferences))
    (fun
      | (checksum, attributes, compilationOptions,
          parseOptions, ordinary, additional,
          analyzerConfig, projectReferences,
          metadataReferences, analyzerReferences) =>
        { checksum, attributes, compilationOptions,
          parseOptions,
          documents := ⟨ordinary, additional, analyzerConfig⟩,
          projectReferences, metadataReferences,
          analyzerReferences })

end ProjectNode

------------------------------------------------------------
-- Solutions
------------------------------------------------------------

/-
  The checksums of a solution: the root of a checksum tree.
  Both frozen checksums are null when no frozen document is
  attached.
-/
structure SolutionNode where
  checksum : Checksum
  attributes : Checksum
  projects : Collection
  analyzerReferences : Collection
  frozenIdentity : Checksum
  frozenText : Checksum
deriving DecidableEq

namespace SolutionNode

/- The bytes hashed for a solution. -/
def preimage
    (n : SolutionNode) : List UInt8 :=
  1 ::
    ([n.attributes, n.projects.recomputed,
      n.analyzerReferences.recomputed,
      n.frozenIdentity, n.frozenText].flatMap Checksum.toList)

/- The checksum that fits the parts of the node. -/
def computed
    (n : SolutionNode) : Checksum :=
  Checksum.ofContent n.preimage

/- The node with the given parts. -/
def of
    (attributes : Checksum)
    (projects analyzerReferences : Collection)
    (frozen : Option (Checksum × Checksum)) : SolutionNode :=
  let pair := frozen.getD (Checksum.null, Checksum.null)
  let n : SolutionNode :=
    ⟨Checksum.null, attributes, projects,
      analyzerReferences, pair.1, pair.2⟩
  { n with checksum := n.computed }

/- Both halves of the frozen document, if neither is null. -/
def frozen?
    (n : SolutionNode) : Option (Checksum × Checksum) :=
  if n.frozenIdentity.isNull || n.frozenText.isNull then none
  else some (n.frozenIdentity, n.frozenText)

/- The binary format of a solution node. -/
def codec : Codec SolutionNode :=
  (Checksum.codec.pair (Checksum.codec.pair
    (Collection.codec.pair (Collection.codec.pair
      (Checksum.codec.pair Checksum.codec))))).rename
    (fun n =>
      (n.checksum, n.attributes, n.projects,
        n.analyzerReferences, n.frozenIdentity,
        n.frozenText))
    (fun
      | (checksum, attributes, projects,
          analyzerReferences, frozenIdentity,
          frozenText) =>
        { checksum, attributes, projects,
          analyzerReferences, frozenIdentity,
          frozenText })

end SolutionNode

end SnapTree
