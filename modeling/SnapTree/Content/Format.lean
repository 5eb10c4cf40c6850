import SnapTree.Binary.Codec
import SnapTree.Content.Document
import SnapTree.Content.Project
import SnapTree.Content.Solution
import SnapTree.Digest.Checksum

/-
  This file defines the binary formats of identities,
  checksums, attributes, options and references.  A structure
  is written field by field, in the order of its fields.

  Key definitions include:
    * `Checksum.codec`
    * `NodeId.codec`
    * `SolutionAttributes.codec`
    * `ProjectAttributes.codec`
    * `DocumentAttributes.codec`
    * `CompilationOptions.codec`
    * `ParseOptions.codec`
    * `ProjectReference.codec`
    * `MetadataReference.codec`
    * `AnalyzerReference.codec`
    * `FrozenIdentity.codec`
-/

namespace SnapTree

open Codec

------------------------------------------------------------
-- Checksums and identities
------------------------------------------------------------

/- A checksum is its 32 bytes. -/
def Checksum.codec : Codec Checksum :=
  (fixed 32).rename Checksum.bytes Checksum.mk

/- An identifier is the number sixteen and its bytes. -/
def Uuid.codec : Codec Uuid :=
  (word64.pair (fixed 16)).refine
    (fun u => (16, u.bytes))
    (fun p => if p.1 = 16 then some ⟨p.2⟩ else none)

/- An identity is its identifier. -/
def NodeId.codec
    {level : Level} : Codec (NodeId level) :=
  Uuid.codec.rename NodeId.uuid NodeId.mk

------------------------------------------------------------
-- Attributes
------------------------------------------------------------

def SolutionAttributes.codec : Codec SolutionAttributes :=
  (NodeId.codec.pair (text.option.pair word64)).rename
    (fun s => (s.id, s.filePath, s.version))
    (fun p => ⟨p.1, p.2.1, p.2.2⟩)

def ProjectAttributes.codec : Codec ProjectAttributes :=
  (NodeId.codec.pair (text.pair (text.pair (text.pair
    (text.option.pair (text.option.pair (text.option.pair
      (text.option.pair (bool.pair (bool.pair (bool.pair
        (enumeration SourceHash.all)))))))))))).rename
    (fun s =>
      (s.id, s.language, s.name, s.assemblyName, s.filePath,
        s.outputFilePath, s.outputRefFilePath,
        s.defaultNamespace, s.isSubmission,
        s.hasAllInformation, s.runAnalyzers,
        s.checksumAlgorithm))
    (fun
      | (id, language, name, assemblyName, filePath,
          outputFilePath, outputRefFilePath,
          defaultNamespace, isSubmission,
          hasAllInformation, runAnalyzers,
          checksumAlgorithm) =>
        { id, language, name, assemblyName, filePath,
          outputFilePath, outputRefFilePath,
          defaultNamespace, isSubmission,
          hasAllInformation, runAnalyzers,
          checksumAlgorithm })

def DocumentAttributes.codec : Codec DocumentAttributes :=
  (NodeId.codec.pair (text.pair (text.list.pair
    ((enumeration SourceKind.all).pair (text.option.pair
      (bool.pair bool)))))).rename
    (fun s =>
      (s.id, s.name, s.folders, s.sourceKind, s.filePath,
        s.isGenerated, s.designTimeOnly))
    (fun
      | (id, name, folders, sourceKind, filePath,
          isGenerated, designTimeOnly) =>
        { id, name, folders, sourceKind, filePath,
          isGenerated, designTimeOnly })

def FrozenIdentity.codec : Codec FrozenIdentity :=
  (NodeId.codec.pair (NodeId.codec.pair
    (text.pair text))).rename
    (fun s => (s.documentId, s.projectId, s.hintName, s.filePath))
    (fun p => ⟨p.1, p.2.1, p.2.2.1, p.2.2.2⟩)

------------------------------------------------------------
-- Options
------------------------------------------------------------

def CompilationOptions.codec : Codec CompilationOptions :=
  ((enumeration OutputKind.all).pair (bool.pair (bool.pair
    (byte.pair (enumeration NullableContext.all))))).rename
    (fun s =>
      (s.outputKind, s.optimize, s.allowUnsafe,
        s.warningLevel, s.nullableContext))
    (fun p => ⟨p.1, p.2.1, p.2.2.1, p.2.2.2.1, p.2.2.2.2⟩)

def ParseOptions.codec : Codec ParseOptions :=
  (text.pair (text.list.pair
    (enumeration DocumentationMode.all))).rename
    (fun s =>
      (s.languageVersion, s.preprocessorSymbols,
        s.documentationMode))
    (fun p => ⟨p.1, p.2.1, p.2.2⟩)

------------------------------------------------------------
-- References
------------------------------------------------------------

def ProjectReference.codec : Codec ProjectReference :=
  (NodeId.codec.pair (text.list.pair bool)).rename
    (fun s => (s.projectId, s.aliases, s.embedInteropTypes))
    (fun p => ⟨p.1, p.2.1, p.2.2⟩)

def MetadataReference.codec : Codec MetadataReference :=
  (text.pair (text.list.pair bool)).rename
    (fun s => (s.display, s.aliases, s.embedInteropTypes))
    (fun p => ⟨p.1, p.2.1, p.2.2⟩)

def AnalyzerReference.codec : Codec AnalyzerReference :=
  (text.pair text).rename
    (fun s => (s.fullPath, s.display))
    (fun p => ⟨p.1, p.2⟩)

end SnapTree
