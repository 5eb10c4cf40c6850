import SnapTree.Sync.SettingsFile

/-
  This file defines the configuration of the command line: how
  to synchronize, and how much to say about it.

  Key definitions include:
    * `Configuration`
    * `Configuration.ofToml?`
    * `Configuration.parse`
-/

namespace SnapTree

/- The configuration of the command line. -/
structure Configuration where
  sync : SyncSettings := {}
  level : String := "warn"
deriving DecidableEq

namespace Configuration

/- The file that is read if no other is named. -/
def standardFile : Path :=
  "replica.toml"

/- What a value says about the log: its level. -/
def levelOfToml?
    (v : Toml) : Option String := do
  let standard : Configuration := {}
  let fields ← Toml.Fields.ofValue? v
  fields.withDefault 0 "level" standard.level Toml.text?

/- The configuration that a value holds. -/
def ofToml?
    (v : Toml) : Option Configuration := do
  let standard : Configuration := {}
  let fields ← Toml.Fields.ofValue? v
  let sync ←
    fields.withDefault 0 "sync" standard.sync
      SyncSettings.ofToml?
  let level ←
    fields.withDefault 1 "log" standard.level levelOfToml?
  some { sync, level }

/- The configuration in a document. -/
def parse
    (text : String) : Except SettingsError Configuration :=
  match (Toml.parse? text).bind ofToml? with
  | none => .error .malformed
  | some c => c.sync.check.map (fun _ => c)

end Configuration

end SnapTree
