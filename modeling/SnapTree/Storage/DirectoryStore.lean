import SnapTree.Storage.AssetError

/-
  This file defines stores that are directories of a file
  tree.  The object of a checksum is a file whose path spells
  the checksum, two digits for a directory and the rest for
  the file; it holds an encoded asset, compressed.

  How assets are compressed is left open.  So is where a disk
  fails, and which identifiers are drawn for files that wait.

  Key definitions include:
    * `Compression`
    * `DiskWrite`
    * `DirectoryStore.objectPath`
    * `DirectoryStore.create`
    * `DirectoryStore.put`
    * `DirectoryStore.fetch`
-/

namespace SnapTree

/-
  How objects are compressed.  Bytes that are no frame are
  refused for a reason.
-/
class Compression where
  encode : List UInt8 → List UInt8
  decode : List UInt8 → Except String (List UInt8)

/-
  Where a disk fails while a file is written by way of one that
  waits: when the directory is made, when the other file is
  created, after some bytes of it, or when it is renamed, and
  then it may be impossible to remove it as well.
-/
inductive DiskFault where
  | directory (error : FileError)
  | create (error : FileError)
  | write (count : Nat) (error : FileError)
  | rename (removed : Bool) (error : FileError)

/-
  What one write meets: the identifier that is drawn for the
  file that waits, and where the disk fails, if it does.
-/
structure DiskWrite where
  id : Uuid := .nil
  fault : Option DiskFault := none

/- A store under a path. -/
structure DirectoryStore where
  root : Path

namespace DirectoryStore

/- The directory of all objects. -/
def objects
    (s : DirectoryStore) : Path :=
  s.root.join "objects"

/- The directory where files wait until they are complete. -/
def staging
    (s : DirectoryStore) : Path :=
  s.root.join "tmp"

/- The path of an object from the root of a store. -/
def relativePath
    (c : Checksum) : Path :=
  let digits := Hex.ofBytes c.toList
  ((Path.mk "objects").join
    ⟨String.ofList (digits.take 2)⟩).join
      ⟨String.ofList (digits.drop 2)⟩

/- The path of the object of a checksum. -/
def objectPath
    (s : DirectoryStore)
    (c : Checksum) : Path :=
  s.root.join (relativePath c)

/- A change to a file tree that may fail half way. -/
abbrev Change : Type :=
  ExceptT AssetError (StateM FileTree) Unit

/- Carry out one step of a change: all of it or nothing. -/
def step
    (f : FileTree → Except FileError FileTree) : Change := do
  match f (← get) with
  | .ok t => set t
  | .error e => throw (.file e)

/- Make a directory and whatever is missing above it. -/
def makeDirectories
    (p : Path) : Change := do
  let (result, t) := (← get).makeDirectories p
  set t
  match result with
  | .ok _ => pure ()
  | .error e => throw (.file e)

/- Make the directories that a store consists of. -/
def create
    (s : DirectoryStore) : Change := do
  makeDirectories s.objects
  makeDirectories s.staging

------------------------------------------------------------
-- Writing
------------------------------------------------------------

/- The path of a file that waits until it is complete. -/
def stagedPath
    (s : DirectoryStore)
    (id : Uuid) : Path :=
  s.staging.join ⟨s!"{id}.tmp"⟩

/- Make the directory that a file is to be in. -/
def makeParent
    (target : Path) : Option DiskFault → Change
  | some (.directory e) => throw (.file e)
  | _ => makeDirectories (target.parent?.getD ⟨""⟩)

/- Write a file; a disk that fails may have written a part. -/
def fill
    (p : Path)
    (bytes : List UInt8) : Option DiskFault → Change
  | some (.create e) => throw (.file e)
  | some (.write count e) => do
      step (fun t => t.writeFile p (bytes.take count))
      throw (.file e)
  | _ => step (fun t => t.writeFile p bytes)

/- Rename a file, or else remove it; a disk may fail in both. -/
def settle
    (p target : Path) : Option DiskFault → Change
  | some (.rename removed e) => do
      if removed then modify (fun t => t.removeFile p)
      throw (.file e)
  | _ => do
      match (← get).rename p target with
      | .ok t => set t
      | .error e =>
          modify (fun t => t.removeFile p)
          throw (.file e)

/- Write a file by way of one in the staging directory. -/
def writeStaged
    (s : DirectoryStore)
    (w : DiskWrite)
    (target : Path)
    (bytes : List UInt8) : Change := do
  makeParent target w.fault
  fill (s.stagedPath w.id) bytes w.fault
  settle (s.stagedPath w.id) target w.fault

variable [Compression]

/- Put an asset under a checksum; the first one put stays. -/
def put
    (s : DirectoryStore)
    (w : DiskWrite)
    (c : Checksum)
    (a : Asset) : Change := do
  unless (← get).pathExists (s.objectPath c) do
    s.writeStaged w (s.objectPath c)
      (Compression.encode a.encode)

------------------------------------------------------------
-- Reading
------------------------------------------------------------

/- Read the file of an object; a missing file is no object. -/
def readObject
    (s : DirectoryStore)
    (t : FileTree)
    (c : Checksum) : Except AssetError (Option (Checksum × List UInt8)) :=
  match t.read (s.objectPath c) with
  | .ok bytes => .ok (some (c, bytes))
  | .error .notFound => .ok none
  | .error e => .error (.file e)

/- Read the asset in an object. -/
def decodeObject
    (object : Checksum × List UInt8) :
    Except AssetError (Checksum × Asset) :=
  match Compression.decode object.2 with
  | .error reason =>
      .error (.malformed (.frame object.1 reason))
  | .ok bytes =>
      match Asset.decode? bytes with
      | none => .error (.malformed (.asset object.1))
      | some a => .ok (object.1, a)

/-
  The assets held under the given checksums, in that order.
  Checksums that are not known are left out.  All objects are
  read before the first is decoded.
-/
def fetch
    (s : DirectoryStore)
    (t : FileTree)
    (cancelled : Bool)
    (request : List Checksum) :
    Except AssetError (List (Checksum × Asset)) :=
  if cancelled then .error .cancelled
  else
    match request.mapM (s.readObject t) with
    | .error e => .error e
    | .ok found => (found.filterMap id).mapM decodeObject

end DirectoryStore

end SnapTree
