/-
  This file defines the values of the TOML format, and how the
  fields of a structure are read from one.

  A structure is read from a table by the names of its fields,
  or from an array by their positions.  A date or time is read
  as a table with a single field that no structure has.

  Key definitions include:
    * `Toml`
    * `Toml.Fields`
    * `Toml.Fields.ofValue?`
    * `Toml.choice?`
-/

namespace SnapTree

/- A TOML value.  Fractions and dates are kept as written. -/
inductive Toml where
  | text (value : String)
  | integer (value : Int)
  | bool (value : Bool)
  | float (written : String)
  | dateTime (written : String)
  | array (items : List Toml)
  | table (entries : List (String × Toml))

namespace Toml

instance : Inhabited Toml :=
  ⟨bool false⟩

------------------------------------------------------------
-- Simple values
------------------------------------------------------------

/- A text. -/
def text? : Toml → Option String
  | text s => some s
  | _ => none

/- A truth value. -/
def bool? : Toml → Option Bool
  | bool b => some b
  | _ => none

/- A number that is not negative. -/
def natural? : Toml → Option Nat
  | integer (.ofNat n) => some n
  | _ => none

/- The items of an array, if each can be read. -/
def items?
    {α : Type}
    (item? : Toml → Option α) : Toml → Option (List α)
  | array items => items.mapM item?
  | _ => none

/- Whether there is nothing in an array or table. -/
def isVoid : Toml → Bool
  | array items => items.isEmpty
  | table entries => entries.isEmpty
  | _ => false

/-
  One of some named values: its name, or a table whose only
  entry has that name and nothing in it.
-/
def choice?
    {α : Type}
    (values : List α)
    (name : α → String) : Toml → Option α
  | text s => values.find? (fun a => name a == s)
  | table [(s, payload)] =>
      if payload.isVoid then
        values.find? (fun a => name a == s)
      else none
  | _ => none

------------------------------------------------------------
-- Structures
------------------------------------------------------------

/- The fields of a structure, by name or by position. -/
inductive Fields where
  | named (entries : List (String × Toml))
  | placed (items : List Toml)

namespace Fields

/- The fields that a value holds. -/
def ofValue? : Toml → Option Fields
  | .table entries => some (.named entries)
  | .array items => some (.placed items)
  | .dateTime written =>
      some (.named [("date-time", .text written)])
  | _ => none

/- The value of a field, if it is there. -/
def find? : Fields → Nat → String → Option Toml
  | .named entries, _, name => entries.lookup name
  | .placed items, position, _ => items[position]?

/- Whether no field has a name other than these. -/
def isKnown
    (names : List String) : Fields → Bool
  | .named entries => entries.all (fun e => names.contains e.1)
  | .placed _ => true

variable {α : Type}

/- A field that must be there. -/
def required
    (fields : Fields)
    (position : Nat)
    (name : String)
    (read? : Toml → Option α) : Option α :=
  (fields.find? position name).bind read?

/- A field that has a value when it is not there. -/
def withDefault
    (fields : Fields)
    (position : Nat)
    (name : String)
    (default : α)
    (read? : Toml → Option α) : Option α :=
  match fields.find? position name with
  | none => some default
  | some v => read? v

/-
  A field that may be absent from a table.  An array cannot
  leave it out.
-/
def optional
    (fields : Fields)
    (position : Nat)
    (name : String)
    (read? : Toml → Option α) : Option (Option α) :=
  match fields, fields.find? position name with
  | _, some v => (read? v).map some
  | .named _, none => some none
  | .placed _, none => none

end Fields

end Toml

end SnapTree
