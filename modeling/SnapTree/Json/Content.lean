import SnapTree.Exchange.Session
import SnapTree.Json.Value
import SnapTree.Merkle.Asset
import SnapTree.Sync.Report
import SnapTree.Sync.Settings
import SnapTree.Workspace.Solution

/-
  This file defines the JSON form of the values of a snapshot
  and of the settings and the report of a synchronization: a
  structure is a record of its fields, a choice is its name,
  and identities and checksums are their texts.

  Key definitions include:
    * `Asset.json`
    * `ProjectDescription.json`
    * `SolutionDescription.json`
    * `Solution.json`
    * `SyncReport.json`
-/

namespace SnapTree

open Json (maybe many)

------------------------------------------------------------
-- Attributes, options and references
------------------------------------------------------------

def SolutionAttributes.json
    (a : SolutionAttributes) : Json :=
  .record
    [("id", .shown a.id),
      ("file_path", maybe .text a.filePath),
      ("version", .number a.version.toNat)]

def ProjectAttributes.json
    (a : ProjectAttributes) : Json :=
  .record
    [("id", .shown a.id),
      ("language", .text a.language),
      ("name", .text a.name),
      ("assembly_name", .text a.assemblyName),
      ("file_path", maybe .text a.filePath),
      ("output_file_path", maybe .text a.outputFilePath),
      ("output_ref_file_path", maybe .text a.outputRefFilePath),
      ("default_namespace", maybe .text a.defaultNamespace),
      ("is_submission", .bool a.isSubmission),
      ("has_all_information", .bool a.hasAllInformation),
      ("run_analyzers", .bool a.runAnalyzers),
      ("checksum_algorithm", .text a.checksumAlgorithm.name)]

def DocumentAttributes.json
    (a : DocumentAttributes) : Json :=
  .record
    [("id", .shown a.id),
      ("name", .text a.name),
      ("folders", many .text a.folders),
      ("source_kind", .text a.sourceKind.name),
      ("file_path", maybe .text a.filePath),
      ("is_generated", .bool a.isGenerated),
      ("design_time_only", .bool a.designTimeOnly)]

def FrozenIdentity.json
    (f : FrozenIdentity) : Json :=
  .record
    [("document_id", .shown f.documentId),
      ("project_id", .shown f.projectId),
      ("hint_name", .text f.hintName),
      ("file_path", .text f.filePath)]

def CompilationOptions.json
    (o : CompilationOptions) : Json :=
  .record
    [("output_kind", .text o.outputKind.name),
      ("optimize", .bool o.optimize),
      ("allow_unsafe", .bool o.allowUnsafe),
      ("warning_level", .number o.warningLevel.toNat),
      ("nullable_context", .text o.nullableContext.name)]

def ParseOptions.json
    (o : ParseOptions) : Json :=
  .record
    [("language_version", .text o.languageVersion),
      ("preprocessor_symbols", many .text o.preprocessorSymbols),
      ("documentation_mode", .text o.documentationMode.name)]

def ProjectReference.json
    (r : ProjectReference) : Json :=
  .record
    [("project_id", .shown r.projectId),
      ("aliases", many .text r.aliases),
      ("embed_interop_types", .bool r.embedInteropTypes)]

def MetadataReference.json
    (r : MetadataReference) : Json :=
  .record
    [("display", .text r.display),
      ("aliases", many .text r.aliases),
      ("embed_interop_types", .bool r.embedInteropTypes)]

def AnalyzerReference.json
    (r : AnalyzerReference) : Json :=
  .record
    [("full_path", .text r.fullPath),
      ("display", .text r.display)]

------------------------------------------------------------
-- Checksum trees and assets
------------------------------------------------------------

def Collection.json
    (c : Collection) : Json :=
  .record
    [("kind", .text c.kind.name),
      ("checksum", .shown c.checksum),
      ("members", many .shown c.members)]

def SolutionNode.json
    (n : SolutionNode) : Json :=
  .record
    [("checksum", .shown n.checksum),
      ("attributes", .shown n.attributes),
      ("projects", n.projects.json),
      ("analyzer_references", n.analyzerReferences.json),
      ("frozen_document_identity", .shown n.frozenIdentity),
      ("frozen_document_text", .shown n.frozenText)]

def ProjectNode.json
    (n : ProjectNode) : Json :=
  .record
    [("checksum", .shown n.checksum),
      ("attributes", .shown n.attributes),
      ("compilation_options", .shown n.compilationOptions),
      ("parse_options", .shown n.parseOptions),
      ("documents", n.documents.ordinary.json),
      ("additional_documents", n.documents.additional.json),
      ("analyzer_config_documents",
        n.documents.analyzerConfig.json),
      ("project_references", n.projectReferences.json),
      ("metadata_references", n.metadataReferences.json),
      ("analyzer_references", n.analyzerReferences.json)]

def DocumentNode.json
    (n : DocumentNode) : Json :=
  .record
    [("checksum", .shown n.checksum),
      ("attributes", .shown n.attributes),
      ("text", .shown n.text)]

/- The value of an asset. -/
def Asset.valueJson : Asset → Json
  | .solutionNode v => v.json
  | .projectNode v => v.json
  | .documentNode v => v.json
  | .solutionAttributes v => v.json
  | .projectAttributes v => v.json
  | .documentAttributes v => v.json
  | .compilationOptions v => v.json
  | .parseOptions v => v.json
  | .projectReference v => v.json
  | .metadataReference v => v.json
  | .analyzerReference v => v.json
  | .text v => .text v
  | .frozenIdentity v => v.json

/- An asset is a record of its value under its kind. -/
def Asset.json
    (a : Asset) : Json :=
  .record [(a.kind.name, a.valueJson)]

------------------------------------------------------------
-- Descriptions and snapshots
------------------------------------------------------------

def DocumentDescription.json
    (d : DocumentDescription) : Json :=
  .record
    [("attributes", d.attributes.json), ("text", .text d.text)]

def ProjectDescription.json
    (d : ProjectDescription) : Json :=
  let documents (kind : DocumentKind) : Json :=
    many DocumentDescription.json (d.documents.get kind)
  .record
    [("attributes", d.attributes.json),
      ("compilation_options", d.compilationOptions.json),
      ("parse_options", d.parseOptions.json),
      ("documents", documents .ordinary),
      ("additional_documents", documents .additional),
      ("analyzer_config_documents", documents .analyzerConfig),
      ("project_references",
        many ProjectReference.json d.projectReferences),
      ("metadata_references",
        many MetadataReference.json d.metadataReferences),
      ("analyzer_references",
        many AnalyzerReference.json d.analyzerReferences)]

def SolutionDescription.json
    (d : SolutionDescription) : Json :=
  .record
    [("attributes", d.attributes.json),
      ("projects", many ProjectDescription.json d.projects),
      ("analyzer_references",
        many AnalyzerReference.json d.analyzerReferences)]

def FrozenDocument.json
    (f : FrozenDocument) : Json :=
  .record [("identity", f.identity.json), ("text", .text f.text)]

/- A snapshot: its description, its name and what lies over it. -/
def Solution.json
    (s : Solution) : Json :=
  s.describe.json.extend
    [("checksum", .shown s.checksum),
      ("frozen_document", maybe FrozenDocument.json s.frozen)]

------------------------------------------------------------
-- Settings and reports
------------------------------------------------------------

def SyncSettings.json
    (s : SyncSettings) : Json :=
  .record
    [("bulk_document_threshold",
        .number s.bulkDocumentThreshold),
      ("validate", .text s.validate.name),
      ("supported_languages",
        many .text s.supportedLanguages),
      ("warn_on_skipped_projects",
        .bool s.warnOnSkippedProjects)]

/- What was fetched. -/
def FetchCounts.json
    (c : FetchCounts) : Json :=
  .record
    [("round_trips", .number c.roundTrips),
      ("assets_fetched", .number c.assetsFetched),
      ("cache_hits", .number c.cacheHits)]

def SkippedProject.json
    (p : SkippedProject) : Json :=
  .record
    [("id", .shown p.id),
      ("name", .text p.name),
      ("language", .text p.language)]

/- What a synchronization did. -/
def SyncReport.json
    (r : SyncReport) : Json :=
  .record
    [("baseline", .shown r.baseline),
      ("target", .shown r.target),
      ("up_to_date", .bool r.upToDate),
      ("projects_added", many .shown r.projectsAdded),
      ("projects_removed", many .shown r.projectsRemoved),
      ("projects_updated", many .shown r.projectsUpdated),
      ("documents_added", .number r.documentsAdded),
      ("documents_removed", .number r.documentsRemoved),
      ("documents_updated", .number r.documentsUpdated),
      ("skipped_projects",
        many SkippedProject.json r.skippedProjects),
      ("validated", .bool r.validated),
      ("used_fallback", .bool r.usedFallback),
      ("fetch", r.fetch.json)]

end SnapTree
