import SnapTree.Command.Run
import SnapTree.Command.Verb

/-
  This file defines how a command line is understood.  It is
  read from the left, and the first thing that is wrong ends
  it, as does the first flag that asks for help.  Only the
  value before a verb may be wrong until the verb is read.

  Key definitions include:
    * `CommandLine`
    * `Arguments`
    * `Arguments.read`
    * `Arguments.command?`
    * `CommandLine.parse`
-/

namespace SnapTree

/- What a command line asks for: a text, or a command. -/
inductive CommandLine where
  | message (text : String)
  | run (configuration : Option Path) (command : Command)

------------------------------------------------------------
-- Arguments
------------------------------------------------------------

/- What was given to a verb so far. -/
structure Arguments where
  config : Option Path := none
  store : Option Path := none
  target : Option Checksum := none
  baseline : Option Checksum := none
  json : Bool := false
  operands : List String := []

namespace Arguments

/- A path must not be empty. -/
def path?
    (value : String) : Option Path :=
  if value.isEmpty then none else some ⟨value⟩

/- A checksum in its text form. -/
def checksum?
    (value : String) : Option Checksum :=
  (Checksum.parse value).toOption

/- Give a field a value that it does not have yet. -/
def once
    {α : Type}
    (present : Option α)
    (value : Option α) : Option (Option α) :=
  if present.isSome then none else value.map some

/- Note the value of a flag. -/
def setValue
    (a : Arguments)
    (value : String) : Flag → Option Arguments
  | .config => do
      some { a with config := ← once a.config (path? value) }
  | .store => do
      some { a with store := ← once a.store (path? value) }
  | .target => do
      some { a with target := ← once a.target (checksum? value) }
  | .baseline => do
      some
        { a with
          baseline := ← once a.baseline (checksum? value) }
  | .json => none

/- Note a flag that has no value. -/
def setFlag
    (a : Arguments) : Flag → Option Arguments
  | .json => if a.json then none else some { a with json := true }
  | _ => none

/- Whether a word can be an operand of a verb. -/
def isOperand
    (v : Verb)
    (word : String) : Bool :=
  if v = .snapshot then (path? word).isSome
  else (checksum? word).isSome

/- Note an operand, unless there are enough of them. -/
def addOperand
    (a : Arguments)
    (v : Verb)
    (word : String) : Option Arguments :=
  if a.operands.length < v.operands.length && isOperand v word then
    some { a with operands := a.operands ++ [word] }
  else none

/- Note all that is left as operands. -/
def addOperands
    (a : Arguments)
    (v : Verb)
    (words : List String) : Option Arguments :=
  words.foldlM (fun a word => a.addOperand v word) a

/- Whether a word is a flag, and not an operand or a value. -/
def isFlag
    (word : String) : Bool :=
  match word.toList with
  | '-' :: _ :: _ => true
  | _ => false

/- Whether a word asks for help. -/
def asksForHelp
    (word : String) : Bool :=
  word = "--help" || word.toList.take 2 = ['-', 'h']

/- A flag and the value written behind it after an equals sign. -/
def splitFlag?
    (word : String) : Option (Flag × Option String) :=
  let chars := word.toList
  let name := String.ofList (chars.takeWhile (· ≠ '='))
  let value :=
    match chars.dropWhile (· ≠ '=') with
    | [] => none
    | _ :: value => some (String.ofList value)
  (Flag.all.find? (fun f => f.name == name)).map
    (fun f => (f, value))

------------------------------------------------------------
-- Reading
------------------------------------------------------------

/-
  What the words behind a verb say: its arguments, or a text
  to be shown.
-/
def read
    (v : Verb)
    (a : Arguments) : List String → Option (Arguments ⊕ String)
  | [] => some (.inl a)
  | [word] =>
      if word = "--" then some (.inl a)
      else if asksForHelp word then some (.inr v.help)
      else if !isFlag word then
        (a.addOperand v word).map .inl
      else do
        let (f, value) ← splitFlag? word
        if !v.allows f then none
        match value with
        | some value => (a.setValue value f).map .inl
        | none => (a.setFlag f).map .inl
  | word :: next :: rest =>
      if word = "--" then
        (a.addOperands v (next :: rest)).map .inl
      else if asksForHelp word then some (.inr v.help)
      else if !isFlag word then do
        read v (← a.addOperand v word) (next :: rest)
      else do
        let (f, value) ← splitFlag? word
        if !v.allows f then none
        match value with
        | some value =>
            read v (← a.setValue value f) (next :: rest)
        | none =>
            if f.valueName?.isNone then
              read v (← a.setFlag f) (next :: rest)
            else if isFlag next then none
            else read v (← a.setValue next f) rest

/- The command that arguments are complete for. -/
def command?
    (a : Arguments) : Verb → Option Command
  | .snapshot => do
      match a.operands with
      | [manifest] => some (.snapshot ⟨manifest⟩ (← a.store))
      | _ => none
  | .sync => do
      some (.sync (← a.store) (← a.target) a.baseline a.json)
  | .diff => do
      match a.operands with
      | [old, new] =>
          some
            (.diff (← a.store) (← checksum? old)
              (← checksum? new) a.json)
      | _ => none
  | .check => do
      match a.operands with
      | [baseline, target] =>
          some
            (.check (← a.store) (← checksum? baseline)
              (← checksum? target))
      | _ => none

end Arguments

------------------------------------------------------------
-- Command lines
------------------------------------------------------------

namespace CommandLine

/- The verb that a word is. -/
def verb?
    (word : String) : Option Verb :=
  Verb.all.find? (fun v => v.name == word)

/- What is shown on a request for help. -/
def helpOn : List String → Option String
  | [] => some generalHelp
  | [word] =>
      if word = "help" then some helpOnHelp
      else (verb? word).map Verb.help
  | _ => none

/-
  What the words from a verb on say, behind general flags that
  may be wrong.  Help on a verb is given all the same; a command
  is not.  A configuration that is named behind the verb counts.
-/
def parseVerb
    (general : Option Arguments)
    (word : String)
    (rest : List String) : Option CommandLine := do
  if word = "help" then
    some (.message (← helpOn rest))
  else
    let v ← verb? word
    match ← Arguments.read v {} rest with
    | .inr text => some (.message text)
    | .inl a =>
        let g ← general
        some (.run (a.config.or g.config) (← a.command? v))

/-
  What a word says that is not the flag of a configuration,
  with the words behind it.
-/
def parseWord
    (general : Option Arguments)
    (word : String)
    (rest : List String) : Option CommandLine :=
  if !Arguments.isFlag word then parseVerb general word rest
  else if general.isNone then none
  else if Arguments.asksForHelp word then
    some (.message generalHelp)
  else if word = "--version" || word.toList.take 2 = ['-', 'V'] then
    some (.message versionText)
  else none

/-
  Read a command line, its first words being general flags.  A
  value that stands alone is looked at only when the next flag
  is read, so it may be wrong up to the verb.
-/
def parseFrom
    (general : Option Arguments) :
    List String → Option CommandLine
  | [] => none
  | [word] => parseWord general word []
  | word :: next :: rest =>
      match Arguments.splitFlag? word with
      | some (.config, none) =>
          if Arguments.isFlag next then none
          else
            match general with
            | none => none
            | some a => parseFrom (a.setValue next .config) rest
      | some (.config, some value) =>
          match general.bind (·.setValue value .config) with
          | none => none
          | some a => parseFrom (some a) (next :: rest)
      | _ => parseWord general word (next :: rest)

/- What a command line asks for, unless something is wrong. -/
def parse
    (words : List String) : Option CommandLine :=
  parseFrom (some {}) words

end CommandLine

end SnapTree
