import SnapTree.Toml.Quoted
import SnapTree.Toml.Value

/-
  This file defines the values that are written without
  brackets: texts, truth values, numbers, dates and times.

  Key definitions include:
    * `Toml.integer?`
    * `Toml.isFloat`
    * `Toml.skipDateTime`
    * `Toml.bare?`
    * `Toml.scalar`
-/

namespace SnapTree

namespace Toml

open Numeral (decimal? fixed? ofDigits splitSign ungrouped?)

------------------------------------------------------------
-- Integers
------------------------------------------------------------

/- An integer, if it has no more than 64 bits. -/
def within64
    (n : Int) : Option Int :=
  if Int64.minValue.toInt ≤ n ∧ n ≤ Int64.maxValue.toInt then
    some n
  else none

/- An integer written in decimal or behind the name of a base. -/
def integer? : List Char → Option Int
  | '0' :: 'x' :: digits => ofBase 16 digits
  | '0' :: 'o' :: digits => ofBase 8 digits
  | '0' :: 'b' :: digits => ofBase 2 digits
  | numeral => do
      let (negative, numeral) := splitSign numeral
      let n : Int := ofDigits 10 (← decimal? numeral)
      within64 (if negative then -n else n)
where
  ofBase (base : Nat) (digits : List Char) : Option Int := do
    within64 (ofDigits base (← ungrouped? base digits))

------------------------------------------------------------
-- Fractions
------------------------------------------------------------

/- Half a step above the largest number of double precision. -/
def floatBound : Nat :=
  Nat.pow 2 1024 - Nat.pow 2 970

/-
  Whether a decimal is too large for double precision.  Its
  number of digits settles this for all but a few exponents.
-/
def isTooLarge
    (digits : List Char)
    (exponent : Int) : Bool :=
  let significant := digits.dropWhile (· = '0')
  let size := significant.length + exponent
  if significant.isEmpty || size < 300 then false
  else if 320 < size then true
  else
    let n := ofDigits 10 significant
    if 0 ≤ exponent then
      floatBound ≤ n * Nat.pow 10 exponent.toNat
    else floatBound * Nat.pow 10 (-exponent).toNat ≤ n

/- Read the digits of a part of a fraction. -/
def digitRun : Reader (List Char) :=
  fun text =>
    let isPart (c : Char) : Bool :=
      Numeral.isDigit 10 c || c = '_'
    some (text.takeWhile isPart, text.dropWhile isPart)

/- The exponent that a numeral ends with. -/
def exponent? : List Char → Option Int
  | c :: rest => do
      if c ≠ 'e' && c ≠ 'E' then none
      let (negative, numeral) := splitSign rest
      let n : Int := ofDigits 10 (← ungrouped? 10 numeral)
      some (if negative then -n else n)
  | [] => none

/-
  The digits of a decimal fraction without its point, and the
  power of ten they are to be multiplied with.
-/
def fraction?
    (numeral : List Char) : Option (List Char × Int) := do
  let (whole, rest) ← digitRun numeral
  let digits ← decimal? whole
  match rest with
  | '.' :: rest =>
      let (part, rest) ← digitRun rest
      let more ← ungrouped? 10 part
      let exponent ←
        if rest.isEmpty then some 0 else exponent? rest
      some (digits ++ more, exponent - more.length)
  | rest => some (digits, ← exponent? rest)

/-
  Whether a numeral is a fraction.  One that is too large must
  be negative; none is too small.
-/
def isFloat
    (numeral : List Char) : Bool :=
  let (negative, numeral) := splitSign numeral
  if numeral = ['i', 'n', 'f'] || numeral = ['n', 'a', 'n'] then
    true
  else
    match fraction? numeral with
    | none => false
    | some (digits, exponent) =>
        negative || !isTooLarge digits exponent

------------------------------------------------------------
-- Dates and times
------------------------------------------------------------

/- Skip a certain character. -/
def skipChar
    (c : Char) : List Char → Option (List Char)
  | [] => none
  | d :: rest => if d = c then some rest else none

/- The number of days of a month. -/
def daysOf
    (year month : Nat) : Nat :=
  let leap :=
    year % 4 = 0 && (year % 100 ≠ 0 || year % 400 = 0)
  if month = 2 then if leap then 29 else 28
  else if month ∈ [4, 6, 9, 11] then 30
  else 31

/- Skip a date. -/
def skipDate
    (text : List Char) : Option (List Char) := do
  let (year, rest) ← fixed? 4 0 9999 text
  let rest ← skipChar '-' rest
  let (month, rest) ← fixed? 2 1 12 rest
  let rest ← skipChar '-' rest
  let (_, rest) ← fixed? 2 1 (daysOf year month) rest
  some rest

/- Skip an hour and a minute. -/
def skipMinute
    (text : List Char) : Option (List Char) := do
  let (_, rest) ← fixed? 2 0 23 text
  let rest ← skipChar ':' rest
  let (_, rest) ← fixed? 2 0 59 rest
  some rest

/- Skip a time.  A minute can have a leap second. -/
def skipTime
    (text : List Char) : Option (List Char) := do
  let rest ← skipMinute text
  let rest ← skipChar ':' rest
  let (_, rest) ← fixed? 2 0 60 rest
  match rest with
  | '.' :: part =>
      let digits := part.takeWhile (Numeral.isDigit 10)
      if digits.isEmpty then some rest
      else some (part.drop digits.length)
  | _ => some rest

/- Skip the distance of a time from universal time. -/
def skipOffset : List Char → Option (List Char)
  | c :: rest =>
      if c = 'Z' || c = 'z' then some rest
      else if c = '+' || c = '-' then skipMinute rest
      else none
  | [] => none

/- Skip a time behind a date, if there is one. -/
def skipTimeOfDay
    (text : List Char) : List Char :=
  match text with
  | c :: rest =>
      if c = 'T' || c = 't' || c = ' ' then
        match skipTime rest with
        | none => text
        | some rest => (skipOffset rest).getD rest
      else text
  | [] => text

/- Skip a date, a date with a time, or a time. -/
def skipDateTime
    (text : List Char) : Option (List Char) :=
  match skipDate text with
  | some rest => some (skipTimeOfDay rest)
  | none => skipTime text

------------------------------------------------------------
-- Bare words
------------------------------------------------------------

/- Whether a character can be part of a word. -/
def isWordChar
    (c : Char) : Bool :=
  c.isAlphanum || c = '+' || c = '-' || c = '_' || c = '.' ||
    c = ':'

/- The value of a word. -/
def bare?
    (word : List Char) : Option Toml :=
  if word = ['t', 'r', 'u', 'e'] then some (.bool true)
  else if word = ['f', 'a', 'l', 's', 'e'] then
    some (.bool false)
  else
    match integer? word with
    | some n => some (.integer n)
    | none =>
        if isFloat word then
          some (.float (String.ofList word))
        else none

/- Read a value that has no brackets. -/
def scalar : Reader Toml :=
  fun text =>
    match text with
    | [] => none
    | c :: _ =>
        if isQuote c then
          (quoted text).map (fun (s, rest) => (.text s, rest))
        else
          match skipDateTime text with
          | some rest =>
              let written :=
                text.take (text.length - rest.length)
              some (.dateTime (String.ofList written), rest)
          | none =>
              (bare? (text.takeWhile isWordChar)).map
                (fun v => (v, text.dropWhile isWordChar))

end Toml

end SnapTree
