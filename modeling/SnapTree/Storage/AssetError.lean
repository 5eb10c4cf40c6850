import SnapTree.Merkle.Asset
import SnapTree.Storage.FileTree

/-
  This file defines why assets could not be had from a store
  or put into one.

  Key definitions include:
    * `Malformed`
    * `AssetError`
    * `AssetError.message`
-/

namespace SnapTree

/- What was found where something could not be read. -/
inductive Malformed where
  | checksumText (error : Checksum.ParseError)
  | frame (object : Checksum) (reason : String)
  | asset (object : Checksum)
deriving DecidableEq

namespace Malformed

/- The text for something that could not be read. -/
def message : Malformed → String
  | .checksumText error => error.message
  | .frame object reason =>
      s!"object {object.short} is not valid zstd: {reason}"
  | .asset object => s!"object {object.short} is not a valid asset"

end Malformed

/-
  Why assets could not be resolved.  All but `cancelled` mean
  that store and caller disagree about the store's content.
-/
inductive AssetError where
  | missing (checksum : Checksum)
  | kindMismatch
      (checksum : Checksum)
      (expected actual : AssetKind)
  | corrupt (requested actual : Checksum)
  | malformed (reason : Malformed)
  | file (error : FileError)
  | cancelled
deriving DecidableEq

namespace AssetError

/- The text of an asset error. -/
def message : AssetError → String
  | .missing checksum =>
      s!"no asset stored for checksum {checksum}"
  | .kindMismatch checksum expected actual =>
      s!"asset {checksum} is a {actual.name}, expected {expected.name}"
  | .corrupt requested actual =>
      s!"asset stored under {requested} hashes to {actual}"
  | .malformed reason =>
      s!"failed to decode asset: {reason.message}"
  | .file error =>
      s!"asset store I/O error: {error.message}"
  | .cancelled => "asset fetch cancelled"

end AssetError

/- Take a value of one type out of an asset. -/
def Asset.value
    {α : Type}
    [AssetValue α]
    (a : Asset)
    (checksum : Checksum) : Except AssetError α :=
  match AssetValue.ofAsset? a with
  | some value => .ok value
  | none =>
      .error
        (.kindMismatch checksum (AssetValue.kind α) a.kind)

end SnapTree
