import SnapTree.Toml.Quoted

/-
  This file defines keys: names joined by dots, each bare or
  between quotes on one line.

  Key definitions include:
    * `DottedKey`
    * `Toml.keyName`
    * `Toml.key`
-/

namespace SnapTree

/- A name, and the names of the tables it is in. -/
structure DottedKey where
  tables : List String
  name : String
deriving DecidableEq

namespace DottedKey

/- The key of names in order, if there are any. -/
def ofNames? : List String → Option DottedKey
  | [] => none
  | name :: names =>
      match ofNames? names with
      | none => some ⟨[], name⟩
      | some key => some ⟨name :: key.tables, key.name⟩

/- The names of a key in order. -/
def names
    (key : DottedKey) : List String :=
  key.tables ++ [key.name]

end DottedKey

namespace Toml

/- The depth to which tables and arrays can be nested. -/
def depthLimit : Nat :=
  79

/- Whether a character can stand in a name without quotes. -/
def isNameChar
    (c : Char) : Bool :=
  c.isAlphanum || c = '-' || c = '_'

/- Read one name. -/
def keyName : Reader String
  | [] => none
  | c :: rest =>
      if isQuote c then quotedLine (c :: rest)
      else
        let name := (c :: rest).takeWhile isNameChar
        if name.isEmpty then none
        else
          some
            (String.ofList name,
              (c :: rest).dropWhile isNameChar)

/- Read a name of a key, and the dot behind it or none. -/
def keyStep : Reader (Reader.Step String) :=
  fun text => do
    let (name, rest) ← keyName (skipSpaces text)
    match skipSpaces rest with
    | '.' :: rest => some (.more [name], rest)
    | rest => some (.done [name], rest)

/- Read a key with the white space around it. -/
def key : Reader DottedKey :=
  fun text => do
    let (names, rest) ← Reader.repeated keyStep text
    if depthLimit < names.length then none
    some (← DottedKey.ofNames? names, rest)

end Toml

end SnapTree
