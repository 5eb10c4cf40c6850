import SnapTree.Manifest.ManifestError
import SnapTree.Sync.SettingsFile
import SnapTree.Sync.SyncError

/-
  This file defines why a command failed: what it was doing,
  and what went wrong.  The texts of a failure go from the
  outside in.

  Key definitions include:
    * `Activity`
    * `Cause`
    * `Failure`
    * `Failure.texts`
    * `Failure.message`
-/

namespace SnapTree

/- What a command was doing when it failed. -/
inductive Activity where
  | readingConfiguration (file : Path)
  | parsingConfiguration (file : Path)
  | readingManifest (file : Path)
  | parsingManifest (file : Path)
  | openingStore (store : Path)
  | publishing
  | building (target : Checksum)
  | buildingBaseline (baseline : Checksum)
  | synchronizing (baseline target : Checksum)
  | comparing (old new : Checksum)
  | loadingBaseline (baseline : Checksum)
  | loadingTarget (target : Checksum)
deriving DecidableEq

namespace Activity

/- The text for an activity that failed. -/
def text : Activity → String
  | .readingConfiguration file =>
      s!"Failed to read config {file}"
  | .parsingConfiguration file => s!"Invalid config {file}"
  | .readingManifest file =>
      s!"Failed to read manifest {file}"
  | .parsingManifest file => s!"Invalid manifest {file}"
  | .openingStore store =>
      s!"Failed to open asset store {store}"
  | .publishing => "Failed to publish snapshot"
  | .building target => s!"Failed to build {target.short}"
  | .buildingBaseline baseline =>
      s!"Failed to build baseline {baseline.short}"
  | .synchronizing baseline target =>
      "Failed to synchronize " ++
        s!"{baseline.short} -> {target.short}"
  | .comparing old new =>
      s!"Failed to diff {old.short} and {new.short}"
  | .loadingBaseline baseline =>
      s!"Failed to load baseline {baseline.short}"
  | .loadingTarget target =>
      s!"Failed to load target {target.short}"

end Activity

------------------------------------------------------------
-- Causes
------------------------------------------------------------

/- What an asset error says, and what is behind it. -/
def AssetError.texts
    (e : AssetError) : List String :=
  match e with
  | .file cause => [e.message, cause.message]
  | _ => [e.message]

/- What a synchronization error says, and what is behind it. -/
def SyncError.texts
    (e : SyncError) : List String :=
  match e with
  | .protocolViolation violation =>
      e.message ::
        ((violation.cause?.map AssetError.texts).getD [])
  | .edit cause => [e.message, cause.message]
  | _ => [e.message]

/- What went wrong in a command. -/
inductive Cause where
  | malformedToml
  | emptyLanguage
  | noStore (store : Path)
  | manifest (error : ManifestError)
  | file (error : FileError)
  | asset (error : AssetError)
  | sync (error : SyncError)
deriving DecidableEq

namespace Cause

/- What settings that could not be had mean for a command. -/
def ofSettings : SettingsError → Cause
  | .unreadable error => .file error
  | .malformed => .malformedToml
  | .emptyLanguage => .emptyLanguage

/-
  The texts of a cause.  A document that is no TOML is shown
  at the place of its first fault, which is not worked out.
-/
def texts : Cause → List String
  | .malformedToml => []
  | .emptyLanguage => [SyncSettings.invalidMessage]
  | .noStore store => [s!"No asset store at {store}"]
  | .manifest error => error.texts
  | .file error => [error.message]
  | .asset error => error.texts
  | .sync error => error.texts

end Cause

------------------------------------------------------------
-- Failures
------------------------------------------------------------

/- Why a command failed. -/
structure Failure where
  activity : Option Activity := none
  cause : Cause
deriving DecidableEq

namespace Failure

/- The texts of a failure, from the outside in. -/
def texts
    (f : Failure) : List String :=
  f.activity.toList.map Activity.text ++ f.cause.texts

/- The text of a failure. -/
def message
    (f : Failure) : String :=
  ": ".intercalate f.texts

end Failure

end SnapTree
