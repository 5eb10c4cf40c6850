import SnapTree.Toml.Key
import SnapTree.Toml.Value

/-
  This file defines tables that are being put together from
  the lines of a document.  A table can be written in several
  places as long as no place says what another one has said:
  one that only headers have passed through can still get a
  header of its own, one made by the dots of a key can only
  get more such keys, and one with a header or braces is left
  alone by the dots of keys.

  Key definitions include:
    * `Origin`
    * `Draft`
    * `Draft.descend`
    * `Draft.enter`
    * `Draft.declare`
    * `Draft.addRow`
    * `Draft.toToml`
-/

namespace SnapTree

namespace Toml

/- How a table came to be. -/
inductive Origin where
  | declared
  | passed
  | dotted
deriving DecidableEq

/-
  A part of a document that is being read: a finished value, a
  table with its origin, or the rows of an array of tables,
  of which only the last can still grow.
-/
inductive Draft where
  | value (value : Toml)
  | table (origin : Origin) (entries : List (String × Draft))
  | rows
      (earlier : List (List (String × Draft)))
      (last : List (String × Draft))

namespace Draft

/- The entries of a table. -/
abbrev Entries : Type :=
  List (String × Draft)

/- A change to the entries of a table of some origin. -/
abbrev Change : Type :=
  Origin → Entries → Option Entries

/- Put a part under a name in place of what is there. -/
def store
    (name : String)
    (part : Draft) : Entries → Entries
  | [] => [(name, part)]
  | entry :: rest =>
      if entry.1 = name then (name, part) :: rest
      else entry :: store name part rest

------------------------------------------------------------
-- Finding a table
------------------------------------------------------------

/-
  Change the table that names lead to, making the tables on
  the way that are missing.  The names are those of a header
  or come before the dots of a key.
-/
def descend
    (byDots : Bool)
    (change : Change) : List String → Change
  | [], origin, entries => change origin entries
  | name :: names, _, entries => do
      let part ←
        match entries.lookup name with
        | none =>
            let origin : Origin :=
              if byDots then .dotted else .passed
            (descend byDots change names origin []).map
              (table origin)
        | some (value _) => none
        | some (table origin inner) =>
            if byDots && origin = .declared then none
            else
              (descend byDots change names origin inner).map
                (table origin)
        | some (rows earlier last) =>
            (descend byDots change names .declared last).map
              (rows earlier)
      some (store name part entries)

------------------------------------------------------------
-- Changes
------------------------------------------------------------

/- Enter a value under a key. -/
def enter
    (key : DottedKey)
    (v : Toml) : Change :=
  descend true
    (fun origin entries =>
      if (origin = .dotted) = key.tables.isEmpty then none
      else if (entries.lookup key.name).isSome then none
      else some (entries ++ [(key.name, value v)]))
    key.tables

/- Give a table a header of its own. -/
def declare
    (key : DottedKey) : Change :=
  descend false
    (fun _ entries =>
      match entries.lookup key.name with
      | none =>
          some (entries ++ [(key.name, table .declared [])])
      | some (table .passed inner) =>
          some (store key.name (table .declared inner) entries)
      | some _ => none)
    key.tables

/- Start a new row of an array of tables. -/
def addRow
    (key : DottedKey) : Change :=
  descend false
    (fun _ entries =>
      match entries.lookup key.name with
      | none => some (entries ++ [(key.name, rows [] [])])
      | some (rows earlier last) =>
          some
            (store key.name (rows (earlier ++ [last]) [])
              entries)
      | some _ => none)
    key.tables

------------------------------------------------------------
-- Finished values
------------------------------------------------------------

mutual

/- The value of a part. -/
def toToml : Draft → Toml
  | value v => v
  | table _ entries => .table (finished entries)
  | rows earlier last =>
      .array (finishedRows earlier ++ [.table (finished last)])

/- The values of the entries of a table. -/
def finished : List (String × Draft) → List (String × Toml)
  | [] => []
  | (name, part) :: rest => (name, toToml part) :: finished rest

/- The values of the rows of an array of tables. -/
def finishedRows : List (List (String × Draft)) → List Toml
  | [] => []
  | row :: rest => .table (finished row) :: finishedRows rest

end

end Draft

end Toml

end SnapTree
