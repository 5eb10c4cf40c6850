import SnapTree.Digest.Hex

/-
  This file defines JSON values without fractions and their
  text: over many lines, each level indented by two blanks, or
  on one line.  A text between quotes escapes quotes,
  backslashes and control characters and nothing else.

  Key definitions include:
    * `Json`
    * `Json.quoted`
    * `Json.pretty`
    * `Json.compact`
-/

namespace SnapTree

/- A JSON value without fractions. -/
inductive Json where
  | null
  | bool (value : Bool)
  | number (value : Nat)
  | text (value : String)
  | list (items : List Json)
  | record (fields : List (String × Json))

namespace Json

instance : Inhabited Json :=
  ⟨null⟩

------------------------------------------------------------
-- Quoted text
------------------------------------------------------------

/- A character as it stands in a quoted text. -/
def escaped
    (c : Char) : List Char :=
  if c = '"' then ['\\', '"']
  else if c = '\\' then ['\\', '\\']
  else
    let n := c.toNat
    if n = 8 then ['\\', 'b']
    else if n = 9 then ['\\', 't']
    else if n = 10 then ['\\', 'n']
    else if n = 12 then ['\\', 'f']
    else if n = 13 then ['\\', 'r']
    else if n < 32 then
      ['\\', 'u', '0', '0'] ++ Hex.ofByte (UInt8.ofNat n)
    else [c]

/- A text between quotes. -/
def quoted
    (s : String) : String :=
  String.ofList ('"' :: s.toList.flatMap escaped ++ ['"'])

------------------------------------------------------------
-- Layout
------------------------------------------------------------

/- How the parts of a list or record are laid out. -/
inductive Layout where
  | compact
  | pretty

namespace Layout

/- What separates a part from what stands before it. -/
def newline : Layout → Nat → String
  | .compact, _ => ""
  | .pretty, depth =>
      "\n" ++ String.ofList (List.replicate (2 * depth) ' ')

/- What stands between a key and its value. -/
def colon : Layout → String
  | .compact => ":"
  | .pretty => ": "

/- Put parts between brackets; no parts take no lines. -/
def bracketed
    (layout : Layout)
    (depth : Nat)
    (left right : String)
    (parts : List String) : String :=
  if parts.isEmpty then left ++ right
  else
    left ++
      ",".intercalate
        (parts.map (fun p => layout.newline (depth + 1) ++ p)) ++
      layout.newline depth ++ right

end Layout

mutual

/- The text of a value at some depth. -/
def render
    (layout : Layout)
    (depth : Nat) : Json → String
  | null => "null"
  | bool true => "true"
  | bool false => "false"
  | number n => toString n
  | text s => quoted s
  | list items =>
      layout.bracketed depth "[" "]"
        (renderItems layout (depth + 1) items)
  | record fields =>
      layout.bracketed depth "\x7b" "\x7d"
        (renderFields layout (depth + 1) fields)

/- The texts of the items of a list. -/
def renderItems
    (layout : Layout)
    (depth : Nat) : List Json → List String
  | [] => []
  | j :: rest =>
      render layout depth j :: renderItems layout depth rest

/- The texts of the fields of a record. -/
def renderFields
    (layout : Layout)
    (depth : Nat) : List (String × Json) → List String
  | [] => []
  | (key, j) :: rest =>
      (quoted key ++ layout.colon ++ render layout depth j) ::
        renderFields layout depth rest

end

/- The text of a value over many lines. -/
def pretty
    (j : Json) : String :=
  render .pretty 0 j

/- The text of a value on one line. -/
def compact
    (j : Json) : String :=
  render .compact 0 j

------------------------------------------------------------
-- Building values
------------------------------------------------------------

variable {α : Type}

/- The text of a thing that has one. -/
def shown
    [ToString α]
    (a : α) : Json :=
  text (toString a)

/- The values of a list of things. -/
def many
    (f : α → Json)
    (xs : List α) : Json :=
  list (xs.map f)

/- The value of a thing that may be absent. -/
def maybe
    (f : α → Json) : Option α → Json
  | none => null
  | some a => f a

/- Add fields behind those of a record. -/
def extend
    (j : Json)
    (more : List (String × Json)) : Json :=
  match j with
  | record fields => record (fields ++ more)
  | other => other

end Json

end SnapTree
