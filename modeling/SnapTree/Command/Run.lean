import SnapTree.Command.Configuration
import SnapTree.Command.Failure
import SnapTree.Command.Output
import SnapTree.Json.Comparison
import SnapTree.Json.Content
import SnapTree.Manifest.Build
import SnapTree.Storage.Frame
import SnapTree.Sync.Synchronize
import SnapTree.Workspace.Publication

/-
  This file defines the commands: what each does to a file
  tree, and what it prints.

  Key definitions include:
    * `Command`
    * `CommandRun`
    * `loadConfiguration`
    * `Manifest.load`
    * `openStore`
    * `Command.run`
    * `runConfigured`
-/

namespace SnapTree

/- The commands with their arguments. -/
inductive Command where
  | snapshot (manifest store : Path)
  | sync
      (store : Path)
      (target : Checksum)
      (baseline : Option Checksum)
      (json : Bool)
  | diff (store : Path) (old new : Checksum) (json : Bool)
  | check (store : Path) (baseline target : Checksum)
deriving DecidableEq

/- A computation over a file tree that may fail. -/
abbrev CommandRun (α : Type) : Type :=
  ExceptT Failure (StateM FileTree) α

namespace CommandRun

variable {ε α : Type}

/- A result that may be an error of some activity. -/
def ofExcept
    (activity : Option Activity)
    (cause : ε → Cause) : Except ε α → CommandRun α
  | .ok a => pure a
  | .error e => throw ⟨activity, cause e⟩

end CommandRun

------------------------------------------------------------
-- Inputs
------------------------------------------------------------

/-
  The configuration: from the file named, from the standard
  file if there is one, or else the default.
-/
def loadConfiguration
    (named : Option Path) : CommandRun Configuration := do
  let files ← get
  let file := named.getD Configuration.standardFile
  if named.isNone && !files.pathExists file then
    pure {}
  else
    let text ←
      .ofExcept (some (.readingConfiguration file)) Cause.file
        (files.readText file)
    .ofExcept (some (.parsingConfiguration file))
      Cause.ofSettings (Configuration.parse text)

/- The manifest in a file. -/
def Manifest.load
    (file : Path) : CommandRun Manifest := do
  let text ←
    .ofExcept (some (.readingManifest file)) Cause.file
      ((← get).readText file)
  match Manifest.parse? text with
  | some m => pure m
  | none => throw ⟨some (.parsingManifest file), .malformedToml⟩

/- The solution that a manifest in a file describes. -/
def Manifest.loadSolution
    (file : Path) : CommandRun Solution := do
  let m ← Manifest.load file
  let files := (← get).readText
  .ofExcept none Cause.manifest
    (m.build files (file.parent?.getD "."))

/- Carry out a change to a store. -/
def changeStore
    {α : Type}
    (activity : Activity)
    (change : ExceptT AssetError (StateM FileTree) α) :
    CommandRun α :=
  ExceptT.adapt (fun e => ⟨some activity, .asset e⟩) change

/- Open a store, making what is missing of it. -/
def createStore
    (store : Path) : CommandRun DirectoryStore := do
  changeStore (.openingStore store)
    (DirectoryStore.create ⟨store⟩)
  pure ⟨store⟩

/- Open a store that must be there. -/
def openStore
    (store : Path) : CommandRun DirectoryStore := do
  if !(← get).isDirectory (DirectoryStore.objects ⟨store⟩) then
    throw ⟨none, .noStore store⟩
  createStore store

/- The link to a store as it is now. -/
def linkTo
    (store : Path) : CommandRun Link := do
  let s ← openStore store
  let files ← get
  pure { source := fun _ request => s.fetch files false request }

------------------------------------------------------------
-- Commands
------------------------------------------------------------

/- What is printed about a solution built from scratch. -/
def buildOutput
    (target : Checksum)
    (s : Solution)
    (counts : FetchCounts)
    (json : Bool) : Output :=
  if json then
    .json <| .record
      [("documents", .number s.documentCount),
        ("fetch",
          .record
            [("assets_fetched", .number counts.assetsFetched),
              ("cache_hits", .number counts.cacheHits),
              ("round_trips", .number counts.roundTrips)]),
        ("projects", .number s.projectList.length),
        ("target", .shown target)]
  else
    .lines <|
      heading "Built From Scratch" ++
      [s!"Target:     {target.label}",
        s!"Projects:   {s.projectList.length}",
        s!"Documents:  {s.documentCount}",
        counts.line]

namespace Command

/- Publish the solution that a manifest describes. -/
def runSnapshot
    (manifest store : Path) : CommandRun Output := do
  let s ← Manifest.loadSolution manifest
  let store ← createStore store
  let root ←
    changeStore .publishing (s.publish (store.put {}))
  pure <| .lines
    [verdict .green "Published" ++
        s!" {s.projectList.length} projects, " ++
        s!"{s.documentCount} documents",
      toString root]

/-
  Bring a baseline to a target, or build the target from
  scratch if there is no baseline.
-/
def runSync
    (settings : SyncSettings)
    (store : Path)
    (target : Checksum)
    (baseline : Option Checksum)
    (json : Bool) : CommandRun Output := do
  let sync : Synchronizer := ⟨← linkTo store, settings⟩
  match baseline with
  | none =>
      let (result, session) :=
        (sync.createSolution target).start {}
      let s ←
        .ofExcept (some (.building target)) Cause.sync result
      pure (buildOutput target s session.counts json)
  | some baseline =>
      let (result, session) :=
        (sync.createSolution baseline).start {}
      let s ←
        .ofExcept (some (.buildingBaseline baseline))
          Cause.sync result
      let (result, _) :=
        (sync.synchronizeWithReport s target).start
          { session with requests := [] }
      let outcome ←
        .ofExcept (some (.synchronizing baseline target))
          Cause.sync result
      pure <|
        if json then .json outcome.report.json
        else .lines outcome.report.lines

/- Compare two snapshots. -/
def runDiff
    (store : Path)
    (old new : Checksum)
    (json : Bool) : CommandRun Output := do
  let link ← linkTo store
  let (result, _) := (link.compare old new).start {}
  let d ←
    .ofExcept (some (.comparing old new)) Cause.asset result
  pure (if json then .json d.json else .lines d.lines)

/- Tell whether a target is a version of the same solution. -/
def runCheck
    (settings : SyncSettings)
    (store : Path)
    (baseline target : Checksum) : CommandRun Output := do
  let sync : Synchronizer := ⟨← linkTo store, settings⟩
  let (result, session) :=
    (sync.createSolution baseline).start {}
  let s ←
    .ofExcept (some (.loadingBaseline baseline)) Cause.sync
      result
  let (result, _) :=
    (sync.isIncrementalUpdate s target).start
      { session with requests := [] }
  let incremental ←
    .ofExcept (some (.loadingTarget target)) Cause.sync result
  let step := s!" {baseline.label} -> {target.label}"
  pure <| .lines <|
    if incremental then [verdict .green "incremental" ++ step]
    else
      [verdict .red "not incremental" ++ step,
        "  " ++ Style.dimmed.apply
          ("Solution identity or file path changed; " ++
            "rebuild from scratch")]

/- Carry out a command. -/
def run
    (c : Configuration) : Command → CommandRun Output
  | .snapshot manifest store => runSnapshot manifest store
  | .sync store target baseline json =>
      runSync c.sync store target baseline json
  | .diff store old new json => runDiff store old new json
  | .check store baseline target =>
      runCheck c.sync store baseline target

end Command

/- Load the configuration and carry out a command. -/
def runConfigured
    (configuration : Option Path)
    (command : Command) : CommandRun Output := do
  command.run (← loadConfiguration configuration)

end SnapTree
