import SnapTree.Compare.SnapshotDiff
import SnapTree.Json.Value

/-
  This file defines the JSON form of the difference of two
  snapshots.

  Key definitions include:
    * `SnapshotDiff.json`
-/

namespace SnapTree

open Json (maybe many)

def DocumentChange.json
    (c : DocumentChange) : Json :=
  .record
    [("kind", .text c.kind.name),
      ("name", .text c.name),
      ("file_path", maybe .text c.filePath),
      ("change", .text c.change.name)]

def ProjectEntry.json
    (p : ProjectEntry) : Json :=
  .record
    [("id", .shown p.id),
      ("name", .text p.name)]

def ProjectChange.json
    (c : ProjectChange) : Json :=
  .record
    [("id", .shown c.id),
      ("name", .text c.name),
      ("parts", many (fun part => .text part.name) c.parts),
      ("documents", many DocumentChange.json c.documents)]

/- The difference of two snapshots. -/
def SnapshotDiff.json
    (d : SnapshotDiff) : Json :=
  .record
    [("old", .shown d.old),
      ("new", .shown d.new),
      ("solution",
        many (fun part => .text part.name) d.solution),
      ("projects_added",
        many ProjectEntry.json d.projectsAdded),
      ("projects_removed",
        many ProjectEntry.json d.projectsRemoved),
      ("projects_changed",
        many ProjectChange.json d.projectsChanged)]

end SnapTree
