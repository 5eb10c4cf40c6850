import SnapTree.Storage.Path
import Std.Data.ExtTreeMap

/-
  This file defines file trees: directories and files by their
  location, seen from a working directory.  Paths are followed
  part by part, so `a/..` needs a directory `a`.  Names and
  paths have a greatest size, and no path holds a null
  character.

  Key definitions include:
    * `FileError`
    * `FileTree`
    * `FileTree.follow`
    * `FileTree.locate`
    * `FileTree.read`
    * `FileTree.readText`
    * `FileTree.makeDirectories`
    * `FileTree.writeFile`
    * `FileTree.rename`
    * `FileTree.removeFile`
-/

namespace SnapTree

------------------------------------------------------------
-- Errors
------------------------------------------------------------

/- Why a file could not be read or written. -/
inductive FileError where
  | notFound
  | alreadyExists
  | notADirectory
  | isADirectory
  | nameTooLong
  | noSpace
  | nullCharacter
  | notText
deriving DecidableEq

namespace FileError

/- The text of a file error. -/
def message : FileError → String
  | .notFound => "No such file or directory (os error 2)"
  | .alreadyExists => "File exists (os error 17)"
  | .notADirectory => "Not a directory (os error 20)"
  | .isADirectory => "Is a directory (os error 21)"
  | .nameTooLong => "File name too long (os error 36)"
  | .noSpace => "No space left on device (os error 28)"
  | .nullCharacter =>
      "file name contained an unexpected NUL byte"
  | .notText => "stream did not contain valid UTF-8"

end FileError

------------------------------------------------------------
-- Trees
------------------------------------------------------------

/- What can stand at a location. -/
inductive FileNode where
  | file (bytes : List UInt8)
  | directory
deriving DecidableEq

/- A location: the names from the root down. -/
abbrev Location : Type :=
  List String

/- Files and directories, and the directory paths start at. -/
structure FileTree where
  nodes : Std.ExtTreeMap Location FileNode compare
  workingDirectory : Location

namespace FileTree

/- A tree with nothing but its working directory. -/
def ofWorkingDirectory
    (location : Location) : FileTree where
  nodes :=
    Std.ExtTreeMap.ofList
      ((List.range (location.length + 1)).map
        (fun n => (location.take n, .directory))) compare
  workingDirectory := location

/- What stands at a location. -/
def node?
    (t : FileTree)
    (location : Location) : Option FileNode :=
  if location = [] then some .directory
  else t.nodes[location]?

/- The greatest size of a name in a directory, in bytes. -/
def maxNameSize : Nat :=
  255

/- The greatest size of a path, in bytes. -/
def maxPathSize : Nat :=
  4095

/-
  Follow the pieces of a path from a location.  A piece can
  only be followed from a directory; what the last one leads
  to need not exist.  The size of a name is looked at when the
  directory it is followed from has been found.
-/
def follow
    (t : FileTree) :
    List String → Location → Except FileError Location
  | [], location => .ok location
  | piece :: rest, location =>
      match t.node? location with
      | none => .error .notFound
      | some (.file _) => .error .notADirectory
      | some .directory =>
          if Path.isIdle piece then
            follow t rest location
          else if piece = ".." then
            follow t rest location.dropLast
          else if maxNameSize < piece.utf8ByteSize then
            .error .nameTooLong
          else
            follow t rest (location ++ [piece])

/-
  The location that a path leads to.  What is wrong with a path
  as a whole is found before any piece of it is followed.
-/
def locate
    (t : FileTree)
    (p : Path) : Except FileError Location :=
  if p.text.toList.contains (Char.ofNat 0) then
    .error .nullCharacter
  else if p.text = "" then .error .notFound
  else if maxPathSize < p.text.utf8ByteSize then
    .error .nameTooLong
  else
    t.follow p.pieces
      (if p.isAbsolute then [] else t.workingDirectory)

/- What stands where a path leads to. -/
def lookup?
    (t : FileTree)
    (p : Path) : Option FileNode :=
  match t.locate p with
  | .error _ => none
  | .ok location => t.node? location

/- Whether anything stands where a path leads to. -/
def pathExists
    (t : FileTree)
    (p : Path) : Bool :=
  (t.lookup? p).isSome

/- Whether a path leads to a directory. -/
def isDirectory
    (t : FileTree)
    (p : Path) : Bool :=
  t.lookup? p == some .directory

------------------------------------------------------------
-- Reading
------------------------------------------------------------

/- The bytes of the file that a path leads to. -/
def read
    (t : FileTree)
    (p : Path) : Except FileError (List UInt8) :=
  match t.locate p with
  | .error e => .error e
  | .ok location =>
      match t.node? location with
      | none => .error .notFound
      | some .directory => .error .isADirectory
      | some (.file bytes) => .ok bytes

/- The text of the file that a path leads to. -/
def readText
    (t : FileTree)
    (p : Path) : Except FileError String :=
  match t.read p with
  | .error e => .error e
  | .ok bytes =>
      match String.fromUTF8? ⟨bytes.toArray⟩ with
      | none => .error .notText
      | some text => .ok text

------------------------------------------------------------
-- Writing
------------------------------------------------------------

/- Put something at a location, with directories above it. -/
def place
    (t : FileTree)
    (location : Location)
    (node : FileNode) : FileTree :=
  let above :=
    (List.range location.length).map
      (fun n => (location.take n, FileNode.directory))
  { t with
    nodes := (t.nodes.insertMany above).insert location node }

/- Take away what stands at a location. -/
def remove
    (t : FileTree)
    (location : Location) : FileTree :=
  { t with nodes := t.nodes.erase location }

/- Make one directory, in a directory that is there. -/
def makeDirectory
    (t : FileTree)
    (p : Path) : Except FileError FileTree :=
  match t.locate p with
  | .error e => .error e
  | .ok location =>
      match t.node? location with
      | some _ => .error .alreadyExists
      | none =>
          .ok { t with nodes := t.nodes.insert location .directory }

/- Make one directory unless it is there already. -/
def ensureDirectory
    (t : FileTree)
    (p : Path) : Except FileError FileTree :=
  match t.makeDirectory p with
  | .ok t => .ok t
  | .error e => if t.isDirectory p then .ok t else .error e

/-
  Make a directory given with its ancestors, making those
  first that are missing.  A failure leaves the ancestors that
  were made before it.
-/
def makeAll
    (t : FileTree) :
    List Path → Except FileError Unit × FileTree
  | [] => (.ok (), t)
  | p :: parents =>
      if p.text = "" then (.ok (), t)
      else
        match t.ensureDirectory p with
        | .ok t => (.ok (), t)
        | .error .notFound =>
            match makeAll t parents with
            | (.error e, t) => (.error e, t)
            | (.ok _, t) =>
                match t.ensureDirectory p with
                | .ok t => (.ok (), t)
                | .error e => (.error e, t)
        | .error e => (.error e, t)

/- Make a directory and whatever is missing above it. -/
def makeDirectories
    (t : FileTree)
    (p : Path) : Except FileError Unit × FileTree :=
  t.makeAll p.ancestors

/- Write a file in a directory that is there. -/
def writeFile
    (t : FileTree)
    (p : Path)
    (bytes : List UInt8) : Except FileError FileTree :=
  match t.locate p with
  | .error e => .error e
  | .ok location =>
      if t.node? location = some .directory then
        .error .isADirectory
      else
        .ok { t with nodes := t.nodes.insert location (.file bytes) }

/-
  Give a file another path, in a directory that is there.  It
  replaces a file of that path, but not a directory, and only
  files are renamed.
-/
def rename
    (t : FileTree)
    (p q : Path) : Except FileError FileTree :=
  match t.locate p, t.locate q with
  | .error e, _ => .error e
  | _, .error e => .error e
  | .ok source, .ok target =>
      match t.node? source, t.node? target with
      | none, _ => .error .notFound
      | some .directory, _ => .error .isADirectory
      | _, some .directory => .error .isADirectory
      | some (.file bytes), _ =>
          .ok
            { t with
              nodes :=
                (t.nodes.erase source).insert target
                  (.file bytes) }

/- Take a file away; nothing is done if there is none. -/
def removeFile
    (t : FileTree)
    (p : Path) : FileTree :=
  match t.locate p with
  | .error _ => t
  | .ok location =>
      match t.node? location with
      | some (.file _) => t.remove location
      | _ => t

end FileTree

end SnapTree
