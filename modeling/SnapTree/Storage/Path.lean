/-
  This file defines paths as texts whose parts are separated
  by slashes.  A path is kept as it was written, since it is
  shown that way; its components are what it means.

  Key definitions include:
    * `Path`
    * `Path.components`
    * `Path.parent?`
    * `Path.fileName?`
    * `Path.join`
    * `Path.portable`
-/

namespace SnapTree

/- A path as it was written. -/
structure Path where
  text : String
deriving DecidableEq

/- What a part of a path stands for. -/
inductive PathComponent where
  | root
  | here
  | up
  | name (text : String)
deriving DecidableEq

namespace Path

instance : Coe String Path :=
  ⟨Path.mk⟩

instance : ToString Path :=
  ⟨Path.text⟩

------------------------------------------------------------
-- Parts
------------------------------------------------------------

/- Split a text at every slash; there is always a last piece. -/
def splitSlashes : List Char → List (List Char)
  | [] => [[]]
  | c :: rest =>
      if c = '/' then [] :: splitSlashes rest
      else
        match splitSlashes rest with
        | [] => [[c]]
        | piece :: pieces => (c :: piece) :: pieces

/- The pieces of a path between its slashes, as written. -/
def pieces
    (p : Path) : List String :=
  (splitSlashes p.text.toList).map String.ofList

/- Whether a path starts at the root. -/
def isAbsolute
    (p : Path) : Bool :=
  p.text.toList.head? == some '/'

/- Whether a piece in the middle of a path says nothing. -/
def isIdle
    (piece : String) : Bool :=
  piece == "" || piece == "."

/-
  The first part of a path if it is not a name: the root of an
  absolute path, or a leading dot.
-/
def lead?
    (p : Path) : Option PathComponent :=
  if p.isAbsolute then some .root
  else if p.pieces.head? = some "." then some .here
  else none

/- The pieces after the first part that is not a name. -/
def body
    (p : Path) : List String :=
  if p.lead?.isSome then p.pieces.drop 1 else p.pieces

/- What a piece that says something stands for. -/
def componentOf
    (piece : String) : PathComponent :=
  if piece = ".." then .up else .name piece

/-
  The components of a path: repeated slashes, a trailing slash
  and dots other than a leading one do not count.
-/
def components
    (p : Path) : List PathComponent :=
  p.lead?.toList ++
    (p.body.filter (fun piece => !isIdle piece)).map componentOf

/- The names among the components of a path. -/
def names
    (p : Path) : List String :=
  p.components.filterMap
    (fun
      | .name text => some text
      | _ => none)

/- The names of a path joined by slashes. -/
def portable
    (p : Path) : String :=
  "/".intercalate p.names

------------------------------------------------------------
-- Parent and file name
------------------------------------------------------------

/- Drop the idle pieces at the end. -/
def dropIdle
    (pieces : List String) : List String :=
  (pieces.reverse.dropWhile isIdle).reverse

/-
  A path without its last component, otherwise as written.
  The root and the empty path have no parent.
-/
def parent?
    (p : Path) : Option Path :=
  match (dropIdle p.body).reverse with
  | _ :: before =>
      let before := dropIdle before.reverse
      let rest := "/".intercalate before
      some <|
        match p.lead? with
        | some .root => ⟨"/" ++ rest⟩
        | some _ =>
            ⟨"." ++ (if before.isEmpty then "" else "/" ++ rest)⟩
        | none => ⟨rest⟩
  | [] => if p.lead? = some .here then some ⟨""⟩ else none

/- The last component of a path if it is a name. -/
def fileName?
    (p : Path) : Option String :=
  match p.components.getLast? with
  | some (.name text) => some text
  | _ => none

/-
  A path and all its parents, the path itself first.  No path
  has more parents than characters.
-/
def ancestors
    (p : Path) : List Path :=
  go (p.text.length + 1) p
where
  go : Nat → Path → List Path
    | 0, _ => []
    | n + 1, p =>
        p ::
          match p.parent? with
          | none => []
          | some parent => go n parent

------------------------------------------------------------
-- Joining
------------------------------------------------------------

/-
  A path seen from another: an absolute path stands alone, and
  any other is written behind the first and a slash.
-/
def join
    (p q : Path) : Path :=
  if q.isAbsolute then q
  else if p.text = "" || p.text.toList.getLast? = some '/' then
    ⟨p.text ++ q.text⟩
  else ⟨p.text ++ "/" ++ q.text⟩

end Path

end SnapTree
