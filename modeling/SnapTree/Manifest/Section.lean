import SnapTree.Content.Document
import SnapTree.Content.Project
import SnapTree.Toml.Document

/-
  This file defines manifests: TOML documents that describe a
  solution and name its files.  An entry of a manifest that
  has another name than these is refused.

  Key definitions include:
    * `SolutionSection`
    * `ProjectSection`
    * `FrozenSection`
    * `Manifest`
    * `Manifest.parse?`
-/

namespace SnapTree

------------------------------------------------------------
-- Sections
------------------------------------------------------------

/- What a manifest says about the solution itself. -/
structure SolutionSection where
  path : String
  version : Nat := 1
  analyzerReferences : List String := []
deriving DecidableEq

/- What a manifest says about a project. -/
structure ProjectSection where
  name : String
  language : String := "C#"
  path : Option String := none
  assemblyName : Option String := none
  defaultNamespace : Option String := none
  outputKind : Option OutputKind := none
  optimize : Bool := false
  allowUnsafe : Bool := false
  languageVersion : Option String := none
  preprocessorSymbols : List String := []
  references : List String := []
  metadataReferences : List String := []
  analyzerReferences : List String := []
  documents : ByKind (List String) := ⟨[], [], []⟩
deriving DecidableEq

/- What a manifest says about a frozen document. -/
structure FrozenSection where
  project : String
  hintName : String
  path : String
deriving DecidableEq

/- The description of a solution in terms of its files. -/
structure Manifest where
  solution : SolutionSection
  projects : List ProjectSection := []
  frozen : Option FrozenSection := none
deriving DecidableEq

------------------------------------------------------------
-- Reading sections
------------------------------------------------------------

/- The fields that a value holds, all of given names. -/
def Toml.Fields.strict?
    (names : List String)
    (v : Toml) : Option Toml.Fields :=
  (Toml.Fields.ofValue? v).filter (fun f => f.isKnown names)

/- A list of texts. -/
def Toml.texts? : Toml → Option (List String) :=
  Toml.items? Toml.text?

namespace SolutionSection

/- The section that a value holds. -/
def ofToml?
    (v : Toml) : Option SolutionSection := do
  let fields ←
    Toml.Fields.strict?
      ["path", "version", "analyzer_references"] v
  let path ← fields.required 0 "path" Toml.text?
  let version ←
    fields.withDefault 1 "version" 1 Toml.natural?
  let analyzerReferences ←
    fields.withDefault 2 "analyzer_references" [] Toml.texts?
  some { path, version, analyzerReferences }

end SolutionSection

namespace ProjectSection

/- The names of the fields in their order. -/
def fieldNames : List String :=
  ["name", "language", "path", "assembly_name",
    "default_namespace", "output_kind", "optimize",
    "allow_unsafe", "language_version",
    "preprocessor_symbols", "references",
    "metadata_references", "analyzer_references",
    "documents", "additional_documents",
    "analyzer_config_documents"]

/- The section that a value holds. -/
def ofToml?
    (v : Toml) : Option ProjectSection := do
  let fields ← Toml.Fields.strict? fieldNames v
  let name ← fields.required 0 "name" Toml.text?
  let language ←
    fields.withDefault 1 "language" "C#" Toml.text?
  let path ← fields.optional 2 "path" Toml.text?
  let assemblyName ←
    fields.optional 3 "assembly_name" Toml.text?
  let defaultNamespace ←
    fields.optional 4 "default_namespace" Toml.text?
  let outputKind ←
    fields.optional 5 "output_kind"
      (Toml.choice? OutputKind.all OutputKind.name)
  let optimize ←
    fields.withDefault 6 "optimize" false Toml.bool?
  let allowUnsafe ←
    fields.withDefault 7 "allow_unsafe" false Toml.bool?
  let languageVersion ←
    fields.optional 8 "language_version" Toml.text?
  let preprocessorSymbols ←
    fields.withDefault 9 "preprocessor_symbols" [] Toml.texts?
  let references ←
    fields.withDefault 10 "references" [] Toml.texts?
  let metadataReferences ←
    fields.withDefault 11 "metadata_references" [] Toml.texts?
  let analyzerReferences ←
    fields.withDefault 12 "analyzer_references" [] Toml.texts?
  let ordinary ←
    fields.withDefault 13 "documents" [] Toml.texts?
  let additional ←
    fields.withDefault 14 "additional_documents" []
      Toml.texts?
  let analyzerConfig ←
    fields.withDefault 15 "analyzer_config_documents" []
      Toml.texts?
  some
    { name, language, path, assemblyName, defaultNamespace,
      outputKind, optimize, allowUnsafe, languageVersion,
      preprocessorSymbols, references, metadataReferences,
      analyzerReferences,
      documents := ⟨ordinary, additional, analyzerConfig⟩ }

end ProjectSection

namespace FrozenSection

/- The section that a value holds. -/
def ofToml?
    (v : Toml) : Option FrozenSection := do
  let fields ←
    Toml.Fields.strict? ["project", "hint_name", "path"] v
  let project ← fields.required 0 "project" Toml.text?
  let hintName ← fields.required 1 "hint_name" Toml.text?
  let path ← fields.required 2 "path" Toml.text?
  some { project, hintName, path }

end FrozenSection

------------------------------------------------------------
-- Reading manifests
------------------------------------------------------------

namespace Manifest

/- The manifest that a value holds. -/
def ofToml?
    (v : Toml) : Option Manifest := do
  let fields ←
    Toml.Fields.strict?
      ["solution", "projects", "frozen_document"] v
  let solution ←
    fields.required 0 "solution" SolutionSection.ofToml?
  let projects ←
    fields.withDefault 1 "projects" []
      (Toml.items? ProjectSection.ofToml?)
  let frozen ←
    fields.optional 2 "frozen_document" FrozenSection.ofToml?
  some { solution, projects, frozen }

/- The manifest in a document. -/
def parse?
    (text : String) : Option Manifest :=
  (Toml.parse? text).bind ofToml?

end Manifest

end SnapTree
