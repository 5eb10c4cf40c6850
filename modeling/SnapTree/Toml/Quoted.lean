import SnapTree.Toml.Numeral
import SnapTree.Toml.Reader

/-
  This file defines texts between quotes.  Between double
  quotes a backslash starts an escape, between single quotes
  it does not.  Three quotes on either side make a text that
  may go over several lines, each ended by a line feed.

  Key definitions include:
    * `Toml.escape`
    * `Toml.lineStep`
    * `Toml.linesStep`
    * `Toml.quotedLine`
    * `Toml.quoted`
-/

namespace SnapTree

namespace Toml

/- The quote of texts in which backslashes are plain. -/
def singleQuote : Char :=
  Char.ofNat 39

/- Whether a character starts a quoted text. -/
def isQuote
    (c : Char) : Bool :=
  c = '"' || c = singleQuote

------------------------------------------------------------
-- Escapes
------------------------------------------------------------

/- Read a character given by so many hexadecimal digits. -/
def codePoint
    (width : Nat) : Reader Char :=
  fun text =>
    let digits := text.take width
    let n := Numeral.ofDigits 16 digits
    if digits.length = width ∧
        digits.all (Numeral.isDigit 16) ∧ n.isValidChar then
      some (Char.ofNat n, text.drop width)
    else none

/- Read what follows a backslash within a line. -/
def escape : Reader Char
  | 'b' :: rest => some (Char.ofNat 8, rest)
  | 't' :: rest => some ('\t', rest)
  | 'n' :: rest => some ('\n', rest)
  | 'f' :: rest => some (Char.ofNat 12, rest)
  | 'r' :: rest => some ('\r', rest)
  | '"' :: rest => some ('"', rest)
  | '\\' :: rest => some ('\\', rest)
  | 'u' :: rest => codePoint 4 rest
  | 'U' :: rest => codePoint 8 rest
  | _ => none

/- Read an escape as a step within a text. -/
def escapeStep : Reader (Reader.Step Char) :=
  fun text =>
    (escape text).map (fun (c, rest) => (.more [c], rest))

------------------------------------------------------------
-- Texts on one line
------------------------------------------------------------

/- Read one character of a text, or the quote at its end. -/
def lineStep
    (quote : Char) : Reader (Reader.Step Char)
  | [] => none
  | c :: rest =>
      if c = quote then some (.done [], rest)
      else if c = '\\' && quote = '"' then escapeStep rest
      else if isPrintable c then some (.more [c], rest)
      else none

/- Read a text on one line behind its first quote. -/
def line
    (quote : Char) : Reader String :=
  fun text =>
    (Reader.repeated (lineStep quote) text).map
      (fun (chars, rest) => (String.ofList chars, rest))

------------------------------------------------------------
-- Texts on several lines
------------------------------------------------------------

/- Skip white space and ends of lines. -/
def skipLines : List Char → List Char
  | ' ' :: rest => skipLines rest
  | '\t' :: rest => skipLines rest
  | '\n' :: rest => skipLines rest
  | '\r' :: '\n' :: rest => skipLines rest
  | text => text

/-
  Read a row of quotes.  Fewer than three belong to the text.
  Otherwise the last three of at most five end it.
-/
def quotesStep
    (quote : Char) : Reader (Reader.Step Char) :=
  fun text =>
    let count := (text.takeWhile (· = quote)).length
    if count < 3 then
      some
        (.more (List.replicate count quote), text.drop count)
    else
      let within := min (count - 3) 2
      some
        (.done (List.replicate within quote),
          text.drop (within + 3))

/-
  Read one character of a text on several lines, or the quotes
  at its end.  A backslash at the end of a line skips all
  white space that follows.
-/
def linesStep
    (quote : Char) : Reader (Reader.Step Char)
  | [] => none
  | c :: rest =>
      if c = quote then quotesStep quote (c :: rest)
      else if c = '\\' && quote = '"' then
        match newline (skipSpaces rest) with
        | some rest => some (.more [], skipLines rest)
        | none => escapeStep rest
      else if isPrintable c then some (.more [c], rest)
      else
        (newline (c :: rest)).map
          (fun rest => (.more ['\n'], rest))

/-
  Read a text on several lines behind its first quotes.  An
  end of line right behind these does not count.
-/
def lines
    (quote : Char) : Reader String :=
  fun text =>
    let text := (newline text).getD text
    (Reader.repeated (linesStep quote) text).map
      (fun (chars, rest) => (String.ofList chars, rest))

------------------------------------------------------------
-- Any quoted text
------------------------------------------------------------

/- Read a quoted text that must be on one line. -/
def quotedLine : Reader String
  | [] => none
  | c :: rest => if isQuote c then line c rest else none

/- Read a quoted text. -/
def quoted : Reader String
  | [] => none
  | c :: rest =>
      if !isQuote c then none
      else if rest.take 2 = [c, c] then lines c (rest.drop 2)
      else line c rest

end Toml

end SnapTree
