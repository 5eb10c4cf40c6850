import SnapTree.Command.Style
import SnapTree.Compare.SnapshotDiff
import SnapTree.Json.Value
import SnapTree.Sync.Report

/-
  This file defines what commands print.

  Key definitions include:
    * `Output`
    * `Output.text`
    * `SyncReport.lines`
    * `SnapshotDiff.lines`
-/

namespace SnapTree

/- What a command prints: lines, or a JSON value. -/
inductive Output where
  | lines (lines : List String)
  | json (value : Json)

namespace Output

/- Lines as a text: each is ended. -/
def unlines
    (lines : List String) : String :=
  String.join (lines.map (· ++ "\n"))

/- The text of an output. -/
def text : Output → String
  | lines ls => unlines ls
  | json j => unlines [j.pretty]

end Output

------------------------------------------------------------
-- Elements
------------------------------------------------------------

/- A heading, the rule under it and an empty line. -/
def heading
    (title : String) : List String :=
  [Style.bold.apply title,
    String.ofList (List.replicate 50 '━'), ""]

/- A checksum as a label. -/
def Checksum.label
    (c : Checksum) : String :=
  Style.yellow.apply c.short

/- A word that says how a command ended. -/
def verdict
    (style : Style)
    (word : String) : String :=
  Style.bold.apply (style.apply word)

/- What was added, removed and changed, in numbers. -/
def changeCounts
    (added removed changed : Nat) : String :=
  " ".intercalate
    [Style.green.apply s!"+{added}",
      Style.red.apply s!"-{removed}",
      Style.yellow.apply s!"~{changed}"]

/- What was fetched. -/
def FetchCounts.line
    (c : FetchCounts) : String :=
  s!"Fetched:    {c.assetsFetched} assets in " ++
    s!"{c.roundTrips} round trips " ++
    Style.dimmed.apply s!"({c.cacheHits} cache hits)"

------------------------------------------------------------
-- Reports
------------------------------------------------------------

namespace SyncReport

/- What is said about projects that were left out. -/
def skippedLines
    (r : SyncReport) : List String :=
  if r.isPartial then
    ["", Style.yellow.apply "Skipped (unsupported language):"] ++
      r.skippedProjects.map
        (fun p =>
          s!"  - {p.name} ({Style.dimmed.apply p.language})")
  else []

/- Whether the result was compared with the target. -/
def validation
    (r : SyncReport) : String :=
  if !r.validated then Style.dimmed.apply "skipped"
  else if r.usedFallback then
    Style.yellow.apply "rebuilt from scratch"
  else Style.green.apply "passed"

/- A report in lines. -/
def lines
    (r : SyncReport) : List String :=
  heading "Synchronized" ++
  [s!"From:       {r.baseline.label}",
    s!"To:         {r.target.label}", ""] ++
  if r.upToDate then
    [Style.green.apply "Already up to date"]
  else
    ["Projects:   " ++
        changeCounts r.projectsAdded.length
          r.projectsRemoved.length r.projectsUpdated.length,
      "Documents:  " ++
        changeCounts r.documentsAdded r.documentsRemoved
          r.documentsUpdated] ++
    r.skippedLines ++
    ["", s!"Validation: {r.validation}", r.fetch.line]

end SyncReport

------------------------------------------------------------
-- Differences
------------------------------------------------------------

/- A changed document in a line. -/
def DocumentChange.line
    (c : DocumentChange) : String :=
  let mark :=
    match c.change with
    | .added => Style.green.apply "A"
    | .removed => Style.red.apply "D"
    | .modified => Style.yellow.apply "M"
  s!"    {mark} {c.filePath.getD c.name}"

/- A changed project in lines. -/
def ProjectChange.lines
    (c : ProjectChange) : List String :=
  let parts := ", ".intercalate (c.parts.map ProjectPart.name)
  [Style.yellow.apply "~" ++ " " ++
      Style.yellow.apply c.name] ++
  (if c.parts.isEmpty then []
    else ["    " ++ Style.dimmed.apply parts]) ++
  c.documents.map DocumentChange.line

/- A difference in lines. -/
def SnapshotDiff.lines
    (d : SnapshotDiff) : List String :=
  let entry (style : Style) (mark : String) (p : ProjectEntry) :=
    s!"{style.apply mark} {style.apply p.name}"
  heading "Snapshot Diff" ++
  [s!"From: {d.old.label}", s!"To:   {d.new.label}", ""] ++
  if d.isEmpty then [Style.dimmed.apply "No changes"]
  else
    d.solution.map
      (fun part =>
        Style.yellow.apply "~" ++ s!" solution {part.name}") ++
    d.projectsAdded.map (entry .green "+") ++
    d.projectsRemoved.map (entry .red "-") ++
    d.projectsChanged.flatMap ProjectChange.lines

end SnapTree
