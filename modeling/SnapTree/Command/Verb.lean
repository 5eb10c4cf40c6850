import SnapTree.Command.Output

/-
  This file defines the words that name the commands, and the
  text that explains how each is used.

  Key definitions include:
    * `Verb`
    * `Flag`
    * `Verb.help`
    * `helpOnHelp`
    * `generalHelp`
    * `versionText`
-/

namespace SnapTree

/- The words that name the commands. -/
inductive Verb where
  | snapshot
  | sync
  | diff
  | check
deriving DecidableEq

namespace Verb

/- The verbs in the order in which they are explained. -/
def all : List Verb :=
  [.snapshot, .sync, .diff, .check]

/- A verb as it is written. -/
def name : Verb → String
  | .snapshot => "snapshot"
  | .sync => "sync"
  | .diff => "diff"
  | .check => "check"

/- What a verb does. -/
def about : Verb → String
  | .snapshot =>
      "Build a solution from a manifest and publish it to a store"
  | .sync =>
      "Synchronize a baseline snapshot to a target snapshot"
  | .diff =>
      "Show project and document differences between two " ++
        "snapshots"
  | .check =>
      "Check whether a target can be reached incrementally " ++
        "from a baseline"

/- The operands of a verb, and what they are. -/
def operands : Verb → List (String × String)
  | .snapshot =>
      [("<MANIFEST>", "Manifest describing the solution")]
  | .sync => []
  | .diff =>
      [("<OLD>", "Older solution checksum"),
        ("<NEW>", "Newer solution checksum")]
  | .check => [("<BASELINE>", ""), ("<TARGET>", "")]

end Verb

------------------------------------------------------------
-- Flags
------------------------------------------------------------

/- What can be said by a long flag. -/
inductive Flag where
  | config
  | store
  | target
  | baseline
  | json
deriving DecidableEq

namespace Flag

/- All flags. -/
def all : List Flag :=
  [.config, .store, .target, .baseline, .json]

/- A flag as it is written. -/
def name : Flag → String
  | .config => "--config"
  | .store => "--store"
  | .target => "--target"
  | .baseline => "--baseline"
  | .json => "--json"

/- The name of the value that follows a flag, if any. -/
def valueName? : Flag → Option String
  | .config => some "<CONFIG>"
  | .store => some "<STORE>"
  | .target => some "<TARGET>"
  | .baseline => some "<BASELINE>"
  | .json => none

/- A flag and its value. -/
def form
    (f : Flag) : String :=
  " ".intercalate (f.name :: f.valueName?.toList)

end Flag

namespace Verb

/- The flags that a verb must have. -/
def required : Verb → List Flag
  | .sync => [.store, .target]
  | _ => [.store]

/- The flags that a verb can have. -/
def optional : Verb → List Flag
  | .sync => [.config, .baseline, .json]
  | .diff => [.config, .json]
  | _ => [.config]

/- Whether a flag can be used with a verb. -/
def allows
    (v : Verb)
    (f : Flag) : Bool :=
  v.required.contains f || v.optional.contains f

/- What a flag of a verb is for. -/
def flagAbout
    (v : Verb) : Flag → String
  | .config =>
      "Configuration file (default: ./replica.toml when present)"
  | .store => "Asset store directory"
  | .target => "Target solution checksum"
  | .baseline =>
      "Baseline solution checksum (default: build the target " ++
        "from scratch)"
  | .json =>
      if v = .diff then "Print the differences as JSON"
      else "Print the report as JSON"

end Verb

------------------------------------------------------------
-- Texts
------------------------------------------------------------

/- Rows of two columns under a title, if there are any. -/
def helpTable
    (title : String)
    (rows : List (String × String)) : List String :=
  let width := (rows.map (fun r => r.1.length)).foldl max 0
  let line (r : String × String) : String :=
    "  " ++ r.1 ++
      String.ofList (List.replicate (width - r.1.length) ' ') ++
      "  " ++ r.2
  if rows.isEmpty then [] else ["", title] ++ rows.map line

/- A long flag that has no short form, as a row. -/
def flagRow
    (v : Verb)
    (f : Flag) : String × String :=
  ("    " ++ f.form, v.flagAbout f)

/- The row of the flag that asks for help. -/
def helpRow : String × String :=
  ("-h, --help", "Print help")

/- How a verb is used. -/
def Verb.help
    (v : Verb) : String :=
  let usage :=
    ["Usage: replica", v.name, "[OPTIONS]"] ++
      v.required.map Flag.form ++ v.operands.map Prod.fst
  Output.unlines <|
    [v.about, "", " ".intercalate usage] ++
    helpTable "Arguments:" v.operands ++
    helpTable "Options:"
      ((Flag.all.filter v.allows).map (flagRow v) ++ [helpRow])

/- What the word that asks for help does. -/
def aboutHelp : String :=
  "Print this message or the help of the given subcommand(s)"

/- How the word that asks for help is used. -/
def helpOnHelp : String :=
  Output.unlines <|
    [aboutHelp, "", "Usage: replica help [COMMAND]..."] ++
    helpTable "Arguments:"
      [("[COMMAND]...", "Print help for the subcommand(s)")]

/- How the command line is used. -/
def generalHelp : String :=
  Output.unlines <|
    ["Replica - content-addressed solution snapshots with " ++
        "incremental sync",
      "", "Usage: replica [OPTIONS] <COMMAND>"] ++
    helpTable "Commands:"
      (Verb.all.map (fun v => (v.name, v.about)) ++
        [("help", aboutHelp)]) ++
    helpTable "Options:"
      [flagRow .snapshot .config, helpRow,
        ("-V, --version", "Print version")]

/- What the version of the program is. -/
def versionText : String :=
  Output.unlines ["replica 0.1.0"]

end SnapTree
