import SnapTree.Toml.Scalar
import SnapTree.Toml.Table

/-
  This file defines how a TOML document is read: first into
  statements line by line, then into a table by carrying these
  out in order.

  Key definitions include:
    * `Toml.reader`
    * `Toml.Statement`
    * `Toml.statements`
    * `Toml.ofStatements?`
    * `Toml.parse?`
-/

namespace SnapTree

namespace Toml

------------------------------------------------------------
-- Arrays and tables between braces
------------------------------------------------------------

/-
  Read the next item of an array and the comma or bracket
  behind it.  A comma can stand behind the last item.
-/
def itemStep
    (item : Reader Toml) : Reader (Reader.Step Toml) :=
  fun text =>
    match skipBlank false text with
    | none => none
    | some (']' :: rest) => some (.done [], rest)
    | some start => do
        let (v, rest) ← item start
        match ← skipBlank false rest with
        | ',' :: rest => some (.more [v], rest)
        | ']' :: rest => some (.done [v], rest)
        | _ => none

/- Read a key, an equals sign and a value. -/
def assignment
    (item : Reader Toml) : Reader (DottedKey × Toml) :=
  fun text => do
    match ← key text with
    | (key, '=' :: rest) =>
        let (v, rest) ← item (skipSpaces rest)
        some ((key, v), rest)
    | _ => none

/-
  Read the next entry of a table between braces and the comma
  or brace behind it.
-/
def entryStep
    (item : Reader Toml) : Reader (Reader.Step (DottedKey × Toml)) :=
  fun text => do
    let (entry, rest) ← assignment item text
    match skipSpaces rest with
    | ',' :: rest => some (.more [entry], rest)
    | '\x7d' :: rest => some (.done [entry], rest)
    | _ => none

/- Read the entries of a table behind its left brace. -/
def entries
    (item : Reader Toml) : Reader (List (DottedKey × Toml)) :=
  fun text =>
    match skipSpaces text with
    | '\x7d' :: rest => some ([], rest)
    | rest => Reader.repeated (entryStep item) rest

/- The table that entries make up. -/
def ofEntries?
    (assignments : List (DottedKey × Toml)) : Option Toml :=
  (assignments.foldlM
    (fun table (key, v) => Draft.enter key v .declared table)
    []).map
    (fun table => .table (Draft.finished table))

/- Read a value that is nested no deeper than some depth. -/
def reader : Nat → Reader Toml
  | 0, source => scalar source
  | depth + 1, source =>
      match source with
      | '[' :: rest => do
          let (items, rest) ←
            Reader.repeated (itemStep (reader depth)) rest
          some (.array items, rest)
      | '\x7b' :: rest => do
          let (assignments, rest) ←
            entries (reader depth) rest
          some (← ofEntries? assignments, rest)
      | _ => scalar source

------------------------------------------------------------
-- Statements
------------------------------------------------------------

/- What a line of a document says. -/
inductive Statement where
  | entry (key : DottedKey) (value : Toml)
  | header (key : DottedKey)
  | row (key : DottedKey)

/- Read a line that is not empty. -/
def statement : Reader Statement
  | '[' :: '[' :: rest => do
      match ← key rest with
      | (key, ']' :: ']' :: rest) => some (.row key, rest)
      | _ => none
  | '[' :: rest => do
      match ← key rest with
      | (key, ']' :: rest) => some (.header key, rest)
      | _ => none
  | source => do
      let ((key, v), rest) ←
        assignment (reader depthLimit) source
      some (.entry key v, rest)

/- Read a line, which may be empty, or the end of the text. -/
def statementStep : Reader (Reader.Step Statement) :=
  fun text =>
    match skipSpaces text with
    | [] => some (.done [], [])
    | c :: rest => do
        if c = '#' || c = '\n' || c = '\r' then
          some (.more [], ← lineEnd (c :: rest))
        else
          let (s, rest) ← statement (c :: rest)
          some (.more [s], ← lineEnd rest)

/- Read all lines of a document. -/
def statements : Reader (List Statement) :=
  Reader.repeated statementStep

------------------------------------------------------------
-- Documents
------------------------------------------------------------

/- A document being read, and the table that entries go to. -/
structure Progress where
  entries : Draft.Entries := []
  header : List String := []

/- Carry out a statement. -/
def Progress.apply
    (p : Progress) : Statement → Option Progress
  | .entry key v => do
      let entries ←
        Draft.descend false (Draft.enter key v) p.header
          .declared p.entries
      some { p with entries }
  | .header key => do
      let entries ← Draft.declare key .declared p.entries
      some { entries, header := key.names }
  | .row key => do
      let entries ← Draft.addRow key .declared p.entries
      some { entries, header := key.names }

/- The table that statements make up in order. -/
def ofStatements?
    (statements : List Statement) : Option Toml :=
  (statements.foldlM Progress.apply {}).map
    (fun p => .table (Draft.finished p.entries))

/- Skip the mark that tells the byte order of a text. -/
def skipOrderMark
    (text : List Char) : List Char :=
  match text with
  | [] => []
  | c :: rest => if c = Char.ofNat 0xfeff then rest else text

/- The table that a document describes, unless malformed. -/
def parse?
    (text : String) : Option Toml := do
  let (statements, _) ← statements (skipOrderMark text.toList)
  ofStatements? statements

end Toml

end SnapTree
