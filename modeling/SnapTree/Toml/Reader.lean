/-
  This file defines how values are taken off the front of a
  text, and what separates them: blanks, comments and ends of
  lines.

  Key definitions include:
    * `Reader`
    * `Reader.repeated`
    * `Toml.skipSpaces`
    * `Toml.newline`
    * `Toml.lineEnd`
    * `Toml.skipBlank`
-/

namespace SnapTree

------------------------------------------------------------
-- Readers
------------------------------------------------------------

/-
  A reader takes a value off the front of a text and gives it
  with what is left, or nothing if the text is malformed.
-/
abbrev Reader (α : Type) : Type :=
  List Char → Option (α × List Char)

namespace Reader

/- What one step of a repetition found. -/
inductive Step (α : Type) where
  | more (items : List α)
  | done (items : List α)

variable {α : Type}

/- Repeat a step at most so often, until it is the last. -/
def repeatedAtMost
    (step : Reader (Step α)) : Nat → Reader (List α)
  | 0, _ => none
  | n + 1, text => do
      match ← step text with
      | (.done items, rest) => some (items, rest)
      | (.more items, rest) =>
          let (others, rest) ← repeatedAtMost step n rest
          some (items ++ others, rest)

/-
  Repeat a step until it is the last.  Each step but the last
  takes a character, so there are no more than characters.
-/
def repeated
    (step : Reader (Step α)) : Reader (List α) :=
  fun text => repeatedAtMost step (text.length + 1) text

end Reader

namespace Toml

------------------------------------------------------------
-- Characters
------------------------------------------------------------

/- Whether a character is white space within a line. -/
def isSpace
    (c : Char) : Bool :=
  c = ' ' || c = '\t'

/-
  Whether a character can stand in a comment or in a text: all
  but the control characters of ASCII, of which a tab can.
-/
def isPrintable
    (c : Char) : Bool :=
  c = '\t' || (0x20 ≤ c.toNat && c.toNat ≠ 0x7f)

------------------------------------------------------------
-- What separates values
------------------------------------------------------------

/- Skip white space within a line. -/
def skipSpaces
    (text : List Char) : List Char :=
  text.dropWhile isSpace

/- Skip the end of a line that is not the last. -/
def newline : List Char → Option (List Char)
  | '\n' :: rest => some rest
  | '\r' :: '\n' :: rest => some rest
  | _ => none

/- Skip a comment if there is one. -/
def skipComment : List Char → List Char
  | '#' :: rest => rest.dropWhile isPrintable
  | text => text

/- Skip what may follow a value until the next line. -/
def lineEnd
    (text : List Char) : Option (List Char) :=
  match skipComment (skipSpaces text) with
  | [] => some []
  | rest => newline rest

/-
  Skip white space, comments and ends of lines, from within a
  comment or not.
-/
def skipBlank
    (inComment : Bool) : List Char → Option (List Char)
  | [] => some []
  | '\n' :: rest => skipBlank false rest
  | '\r' :: '\n' :: rest => skipBlank false rest
  | c :: rest =>
      if inComment then
        if isPrintable c then skipBlank true rest else none
      else if isSpace c then skipBlank false rest
      else if c = '#' then skipBlank true rest
      else some (c :: rest)

end Toml

end SnapTree
