import SnapTree.Content.Identity

/-
  This file defines what is said about a project: its
  attributes, its options and the references it holds.

  Key definitions include:
    * `ProjectAttributes`
    * `OutputKind`
    * `CompilationOptions`
    * `ParseOptions`
    * `ProjectReference`
    * `MetadataReference`
    * `AnalyzerReference`
-/

namespace SnapTree

------------------------------------------------------------
-- Attributes
------------------------------------------------------------

/- The hash by which source files are known to debuggers. -/
inductive SourceHash where
  | sha1
  | sha256
deriving DecidableEq

namespace SourceHash

/- The source hashes in the order of their indices. -/
def all : List SourceHash :=
  [.sha1, .sha256]

/- The name of a source hash. -/
def name : SourceHash → String
  | .sha1 => "Sha1"
  | .sha256 => "Sha256"

end SourceHash

/- What is said about a project as such. -/
structure ProjectAttributes where
  id : ProjectId
  language : String
  name : String
  assemblyName : String := name
  filePath : Option String := none
  outputFilePath : Option String := none
  outputRefFilePath : Option String := none
  defaultNamespace : Option String := none
  isSubmission : Bool := false
  hasAllInformation : Bool := true
  runAnalyzers : Bool := true
  checksumAlgorithm : SourceHash := .sha256
deriving DecidableEq

------------------------------------------------------------
-- Compilation options
------------------------------------------------------------

/- The kind of binary that a project compiles to. -/
inductive OutputKind where
  | consoleApplication
  | windowsApplication
  | dynamicallyLinkedLibrary
  | netModule
  | windowsRuntimeMetadata
  | windowsRuntimeApplication
deriving DecidableEq

namespace OutputKind

/- The output kinds in the order of their codes. -/
def all : List OutputKind :=
  [.consoleApplication, .windowsApplication,
    .dynamicallyLinkedLibrary, .netModule,
    .windowsRuntimeMetadata, .windowsRuntimeApplication]

/- The code that project systems use for an output kind. -/
def code
    (kind : OutputKind) : Nat :=
  all.idxOf kind

/- The output kind of a code. -/
def ofCode?
    (code : Nat) : Option OutputKind :=
  all[code]?

/- The name of an output kind. -/
def name : OutputKind → String
  | .consoleApplication => "ConsoleApplication"
  | .windowsApplication => "WindowsApplication"
  | .dynamicallyLinkedLibrary => "DynamicallyLinkedLibrary"
  | .netModule => "NetModule"
  | .windowsRuntimeMetadata => "WindowsRuntimeMetadata"
  | .windowsRuntimeApplication => "WindowsRuntimeApplication"

/- The file extension that such a binary usually has. -/
def defaultExtension : OutputKind → String
  | .consoleApplication => ".exe"
  | .windowsApplication => ".exe"
  | .dynamicallyLinkedLibrary => ".dll"
  | .netModule => ".netmodule"
  | .windowsRuntimeMetadata => ".winmdobj"
  | .windowsRuntimeApplication => ".exe"

/- Whether such a binary can be started. -/
def isApplication : OutputKind → Bool
  | .consoleApplication => true
  | .windowsApplication => true
  | .windowsRuntimeApplication => true
  | _ => false

/- Whether such a binary is a module without a manifest. -/
def isNetModule
    (kind : OutputKind) : Bool :=
  kind == .netModule

/- Whether such a binary holds metadata of the runtime. -/
def isWindowsRuntime
    (kind : OutputKind) : Bool :=
  kind == .windowsRuntimeMetadata

end OutputKind

/- How far nullable annotations are in force. -/
inductive NullableContext where
  | disabled
  | warnings
  | annotations
  | enabled
deriving DecidableEq

namespace NullableContext

/- The nullable contexts in the order of their indices. -/
def all : List NullableContext :=
  [.disabled, .warnings, .annotations, .enabled]

/- The name of a nullable context. -/
def name : NullableContext → String
  | .disabled => "Disabled"
  | .warnings => "Warnings"
  | .annotations => "Annotations"
  | .enabled => "Enabled"

end NullableContext

/- How a project is compiled. -/
structure CompilationOptions where
  outputKind : OutputKind := .dynamicallyLinkedLibrary
  optimize : Bool := false
  allowUnsafe : Bool := false
  warningLevel : UInt8 := 4
  nullableContext : NullableContext := .disabled
deriving DecidableEq

------------------------------------------------------------
-- Parse options
------------------------------------------------------------

/- What is done with documentation comments. -/
inductive DocumentationMode where
  | none
  | parse
  | diagnose
deriving DecidableEq

namespace DocumentationMode

/- The documentation modes in the order of their indices. -/
def all : List DocumentationMode :=
  [.none, .parse, .diagnose]

/- The name of a documentation mode. -/
def name : DocumentationMode → String
  | .none => "None"
  | .parse => "Parse"
  | .diagnose => "Diagnose"

end DocumentationMode

/- How the documents of a project are parsed. -/
structure ParseOptions where
  languageVersion : String := "latest"
  preprocessorSymbols : List String := []
  documentationMode : DocumentationMode := .parse
deriving DecidableEq

------------------------------------------------------------
-- References
------------------------------------------------------------

/- A reference to another project of the solution. -/
structure ProjectReference where
  projectId : ProjectId
  aliases : List String := []
  embedInteropTypes : Bool := false
deriving DecidableEq

/- A reference to a compiled library. -/
structure MetadataReference where
  display : String
  aliases : List String := []
  embedInteropTypes : Bool := false
deriving DecidableEq

/- A reference to a library of analyzers. -/
structure AnalyzerReference where
  fullPath : String
  display : String
deriving DecidableEq

namespace AnalyzerReference

/-
  The reference to the analyzers at a path, shown by what
  follows the last slash or backslash.
-/
def ofPath
    (path : String) : AnalyzerReference where
  fullPath := path
  display :=
    String.ofList
      ((path.toList.reverse.takeWhile
        (fun c => c ≠ '/' ∧ c ≠ '\\')).reverse)

end AnalyzerReference

end SnapTree
