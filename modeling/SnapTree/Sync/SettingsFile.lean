import SnapTree.Storage.FileTree
import SnapTree.Sync.Settings
import SnapTree.Toml.Document

/-
  This file defines how synchronization settings are read from
  a TOML document.  A setting that is not there has its
  default value, and entries of other names do not matter.

  Key definitions include:
    * `SettingsError`
    * `SyncSettings.ofToml?`
    * `SyncSettings.parse`
    * `SyncSettings.load`
-/

namespace SnapTree

/- Why settings could not be had. -/
inductive SettingsError where
  | unreadable (error : FileError)
  | malformed
  | emptyLanguage
deriving DecidableEq

namespace SyncSettings

/- The settings that a value holds. -/
def ofToml?
    (v : Toml) : Option SyncSettings := do
  let standard : SyncSettings := {}
  let fields ← Toml.Fields.ofValue? v
  let bulkDocumentThreshold ←
    fields.withDefault 0 "bulk_document_threshold"
      standard.bulkDocumentThreshold Toml.natural?
  let validate ←
    fields.withDefault 1 "validate" standard.validate
      (Toml.choice? ValidationMode.all ValidationMode.name)
  let supportedLanguages ←
    fields.withDefault 2 "supported_languages"
      standard.supportedLanguages (Toml.items? Toml.text?)
  let warnOnSkippedProjects ←
    fields.withDefault 3 "warn_on_skipped_projects"
      standard.warnOnSkippedProjects Toml.bool?
  some
    { bulkDocumentThreshold, validate, supportedLanguages,
      warnOnSkippedProjects }

/- Settings that are valid. -/
def check
    (s : SyncSettings) : Except SettingsError SyncSettings :=
  if s.isValid then .ok s else .error .emptyLanguage

/- The settings in a document. -/
def parse
    (text : String) : Except SettingsError SyncSettings :=
  match (Toml.parse? text).bind ofToml? with
  | none => .error .malformed
  | some s => s.check

/- The settings in a file. -/
def load
    (files : FileTree)
    (p : Path) : Except SettingsError SyncSettings :=
  match files.readText p with
  | .error e => .error (.unreadable e)
  | .ok text => parse text

end SyncSettings

end SnapTree
