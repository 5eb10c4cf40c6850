/-
  This file defines how text stands out on a terminal.

  Key definitions include:
    * `Style`
    * `Style.apply`
-/

namespace SnapTree

/- The ways in which text can stand out. -/
inductive Style where
  | bold
  | dimmed
  | red
  | green
  | yellow
deriving DecidableEq

namespace Style

/- The code that starts a style. -/
def start : Style → Nat
  | bold => 1
  | dimmed => 2
  | red => 31
  | green => 32
  | yellow => 33

/- The code that ends a style: of weight, or of colour. -/
def stop : Style → Nat
  | bold => 0
  | dimmed => 0
  | red => 39
  | green => 39
  | yellow => 39

/- A terminal's control sequence for a code. -/
def sequence
    (code : Nat) : String :=
  s!"\x1b[{code}m"

/- A text in a style. -/
def apply
    (style : Style)
    (text : String) : String :=
  sequence style.start ++ text ++ sequence style.stop

end Style

end SnapTree
