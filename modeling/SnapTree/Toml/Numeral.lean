/-
  This file defines numerals: digits to some base, grouped by
  single underscores where a number may be.

  Key definitions include:
    * `Numeral.digit?`
    * `Numeral.ofDigits`
    * `Numeral.ungrouped?`
    * `Numeral.splitSign`
-/

namespace SnapTree

namespace Numeral

/- The value of a digit of either case. -/
def value?
    (c : Char) : Option Nat :=
  let n := c.toNat
  if 48 ≤ n ∧ n ≤ 57 then some (n - 48)
  else if 65 ≤ n ∧ n ≤ 90 then some (n - 55)
  else if 97 ≤ n ∧ n ≤ 122 then some (n - 87)
  else none

/- The value of a digit to a base. -/
def digit?
    (base : Nat)
    (c : Char) : Option Nat :=
  (value? c).filter (fun n => n < base)

/- Whether a character is a digit to a base. -/
def isDigit
    (base : Nat)
    (c : Char) : Bool :=
  (digit? base c).isSome

/- The number that digits to a base stand for. -/
def ofDigits
    (base : Nat)
    (digits : List Char) : Nat :=
  digits.foldl
    (fun n c => base * n + (digit? base c).getD 0) 0

/-
  The digits of a numeral without its underscores.  Each of
  these stands between two digits.
-/
def ungrouped?
    (base : Nat) : List Char → Option (List Char)
  | [] => none
  | [c] => if isDigit base c then some [c] else none
  | c :: '_' :: rest =>
      if isDigit base c then
        (ungrouped? base rest).map (c :: ·)
      else none
  | c :: d :: rest =>
      if isDigit base c then
        (ungrouped? base (d :: rest)).map (c :: ·)
      else none

/- The digits of a decimal number: none leads with a zero. -/
def decimal?
    (numeral : List Char) : Option (List Char) :=
  match ungrouped? 10 numeral with
  | some ('0' :: _ :: _) => none
  | digits => digits

/- Split off a sign, and tell whether it was a minus. -/
def splitSign : List Char → Bool × List Char
  | '-' :: rest => (true, rest)
  | '+' :: rest => (false, rest)
  | numeral => (false, numeral)

/- Read a number of exactly so many digits within bounds. -/
def fixed?
    (width low high : Nat)
    (text : List Char) : Option (Nat × List Char) :=
  let digits := text.take width
  let n := ofDigits 10 digits
  if digits.length = width ∧ digits.all (isDigit 10) ∧
      low ≤ n ∧ n ≤ high then
    some (n, text.drop width)
  else none

end Numeral

end SnapTree
