import SnapTree.Compare.SnapshotDiff
import SnapTree.Proofs.Workspace.Tree

/-
  This file proves that a snapshot is made of parts: those of
  the solution, those of each project, and each document.
  Snapshots are the same if all their parts are, and the
  checksums of a part tell of that part alone.

  Key definitions include:
    * `SnapshotPart`
    * `Solution.part`
    * `Solution.checksumsOf`

  Key theorems include:
    * `ProjectPart.checksum_node`
    * `Solution.checksumsOf_congr`
    * `Project.WellFormed.document?_including`
    * `Project.WellFormed.document?_excluding`
    * `Project.WellFormed.document?_putDocument`
    * `Solution.getElem?_projects_eq_of_parts`
    * `Solution.eq_of_parts`
-/

namespace SnapTree

------------------------------------------------------------
-- Parts
------------------------------------------------------------

/- What a part of a solution holds. -/
abbrev SolutionPart.Content : SolutionPart → Type
  | .attributes => SolutionAttributes
  | .analyzerReferences => List AnalyzerReference
  | .frozenDocument => Option FrozenDocument

/- What a part of a project holds. -/
abbrev ProjectPart.Content : ProjectPart → Type
  | .attributes => ProjectAttributes
  | .compilationOptions => CompilationOptions
  | .parseOptions => ParseOptions
  | .projectReferences => List ProjectReference
  | .metadataReferences => List MetadataReference
  | .analyzerReferences => List AnalyzerReference

/-
  A place in a snapshot that can be changed on its own: a part
  of the solution, a part of a project, or a document.
-/
inductive SnapshotPart where
  | solution (part : SolutionPart)
  | project (project : ProjectId) (part : ProjectPart)
  | document (project : ProjectId) (document : DocumentId)
deriving DecidableEq

namespace SnapshotPart

/- The project that a part belongs to. -/
def project? : SnapshotPart → Option ProjectId
  | .solution _ => none
  | .project p _ => some p
  | .document p _ => some p

/-
  What a part of a snapshot holds.  Projects and documents may
  be absent, and then so is what they hold.
-/
abbrev Content : SnapshotPart → Type
  | .solution part => part.Content
  | .project _ part => Option part.Content
  | .document _ _ => Option Document

end SnapshotPart

namespace Project

/- What a part of a project holds. -/
def content
    (p : Project) : (part : ProjectPart) → part.Content
  | .attributes => p.attributes
  | .compilationOptions => p.compilationOptions
  | .parseOptions => p.parseOptions
  | .projectReferences => p.projectReferences
  | .metadataReferences => p.metadataReferences
  | .analyzerReferences => p.analyzerReferences

/- A project with one part replaced. -/
def replace
    (p : Project) : (part : ProjectPart) → part.Content → Project
  | .attributes, a => { p with attributes := a }
  | .compilationOptions, o => { p with compilationOptions := o }
  | .parseOptions, o => { p with parseOptions := o }
  | .projectReferences, rs => { p with projectReferences := rs }
  | .metadataReferences, rs => { p with metadataReferences := rs }
  | .analyzerReferences, rs => { p with analyzerReferences := rs }

section

variable
  (p : Project)
  (part : ProjectPart)
  (o : part.Content)

@[simp]
theorem content_replace_self :
    (p.replace part o).content part = o := by
  cases part <;> rfl

theorem content_replace_of_ne
    {other : ProjectPart}
    (hOther : other ≠ part) :
    (p.replace part o).content other = p.content other := by
  cases part <;> cases other <;>
    first | rfl | exact absurd rfl hOther

@[simp]
theorem document?_replace
    (id : DocumentId) :
    (p.replace part o).document? id = p.document? id := by
  cases part <;> rfl

end

end Project

namespace Solution

/- What a part of a solution holds. -/
def content
    (s : Solution) : (part : SolutionPart) → part.Content
  | .attributes => s.attributes
  | .analyzerReferences => s.analyzerReferences
  | .frozenDocument => s.frozen

/- A solution with one part replaced. -/
def replace
    (s : Solution) :
    (part : SolutionPart) → part.Content → Solution
  | .attributes, a => { s with attributes := a }
  | .analyzerReferences, rs => { s with analyzerReferences := rs }
  | .frozenDocument, f => { s with frozen := f }

/- What a part of a snapshot holds. -/
def part
    (s : Solution) : (x : SnapshotPart) → x.Content
  | .solution part => s.content part
  | .project id part =>
      s.projects[id]?.map (fun p => p.content part)
  | .document project id => s.document? project id

section

variable (s : Solution)

@[simp]
theorem part_solution
    (part : SolutionPart) :
    s.part (.solution part) = s.content part :=
  rfl

@[simp]
theorem part_project
    (id : ProjectId)
    (part : ProjectPart) :
    s.part (.project id part) =
      s.projects[id]?.map (fun p => p.content part) :=
  rfl

@[simp]
theorem part_document
    (project : ProjectId)
    (id : DocumentId) :
    s.part (.document project id) =
      s.projects[project]?.bind (fun p => p.document? id) :=
  rfl

end

end Solution

------------------------------------------------------------
-- Checksums of parts
------------------------------------------------------------

/- The checksum of what a part of a project holds. -/
def ProjectPart.digest :
    (part : ProjectPart) → part.Content → Checksum
  | .attributes, a => AssetValue.checksum a
  | .compilationOptions, o => AssetValue.checksum o
  | .parseOptions, o => AssetValue.checksum o
  | .projectReferences, rs =>
      Collection.compute .projectReferences
        (rs.map AssetValue.checksum)
  | .metadataReferences, rs =>
      Collection.compute .metadataReferences
        (rs.map AssetValue.checksum)
  | .analyzerReferences, rs =>
      Collection.compute .analyzerReferences
        (rs.map AssetValue.checksum)

/- The node of a project has the checksums of its parts. -/
theorem ProjectPart.checksum_node
    (part : ProjectPart)
    (p : Project) :
    part.checksum p.node = part.digest (p.content part) := by
  cases part <;> simp [checksum, digest, Project.content]

/- Projects with the same part have the same checksum of it. -/
theorem ProjectPart.checksum_congr
    (part : ProjectPart)
    {p q : Project}
    (hSame : p.content part = q.content part) :
    part.checksum p.node = part.checksum q.node := by
  rw [part.checksum_node, part.checksum_node, hSame]

namespace Solution

/-
  The checksums under which the nodes of a snapshot hold a
  part of it.
-/
def checksumsOf
    (s : Solution) : SnapshotPart → List Checksum
  | .solution .attributes => [s.node.attributes]
  | .solution .analyzerReferences =>
      [s.node.analyzerReferences.checksum]
  | .solution .frozenDocument =>
      [s.node.frozenIdentity, s.node.frozenText]
  | .project id part =>
      (s.projects[id]?.map (fun p => part.checksum p.node)).toList
  | .document project id =>
      ((s.document? project id).map Document.checksum).toList

/- The checksums of a part tell of that part alone. -/
theorem checksumsOf_congr
    {s t : Solution}
    {x : SnapshotPart}
    (hSame : s.part x = t.part x) :
    s.checksumsOf x = t.checksumsOf x := by
  cases x with
  | solution part =>
      cases part with
      | attributes =>
          have hSame : s.attributes = t.attributes := hSame
          simp only [checksumsOf, attributes_node, hSame]
      | analyzerReferences =>
          have hSame :
              s.analyzerReferences = t.analyzerReferences :=
            hSame
          simp only [checksumsOf, analyzerReferences_node, hSame]
      | frozenDocument =>
          have hSame : s.frozen = t.frozen := hSame
          simp only [checksumsOf, frozenIdentity_node,
            frozenText_node, hSame]
  | project id part =>
      have hDigests := congrArg (Option.map part.digest) hSame
      rw [part_project, part_project, Option.map_map,
        Option.map_map] at hDigests
      simp only [checksumsOf, part.checksum_node]
      exact congrArg Option.toList hDigests
  | document project id =>
      have hSame :
          s.document? project id = t.document? project id :=
        hSame
      simp only [checksumsOf, hSame]

end Solution

------------------------------------------------------------
-- Documents that are looked up
------------------------------------------------------------

namespace Project

/- What is found depends on what stands under the identity. -/
theorem document?_congr
    {p q : Project}
    {id : DocumentId}
    (hSame :
      ∀ kind,
        (p.documents.get kind)[id]? =
          (q.documents.get kind)[id]?) :
    p.document? id = q.document? id := by
  unfold document?
  simp only [hSame]

theorem document?_eq_none
    {p : Project}
    {id : DocumentId}
    (hNone : ∀ kind, (p.documents.get kind)[id]? = none) :
    p.document? id = none := by
  unfold document?
  rw [List.findSome?_eq_none_iff]
  intro kind _
  exact hNone kind

namespace WellFormed

variable
  {p : Project}
  (hWell : p.WellFormed)

include hWell

/- What stands in the map of a kind is found, and is of it. -/
theorem getElem?_documents
    (kind : DocumentKind)
    (id : DocumentId) :
    (p.documents.get kind)[id]? =
      (p.document? id).filter (fun d => d.kind = kind) := by
  cases hStands : (p.documents.get kind)[id]? with
  | some d =>
      rw [hWell.document?_eq hStands]
      have hKind := (hWell.keyed kind id d hStands).2
      rw [Option.filter_some, if_pos (decide_eq_true hKind)]
  | none =>
      cases hFound : p.document? id with
      | none => rfl
      | some d =>
          rcases document?_eq_some hFound with ⟨other, hOther⟩
          have hKind := (hWell.keyed other id d hOther).2
          have hApart : other ≠ kind := by
            rintro rfl
            rw [hStands] at hOther
            cases hOther
          rw [Option.filter_some, hKind, if_neg (by simpa)]

/- Documents that are added stand before those there were. -/
theorem document?_including
    {kind : DocumentKind}
    {ds : List DocumentDescription}
    (hNodup : (ds.map DocumentDescription.id).Nodup)
    (hFree : ∀ d ∈ ds, p.containsDocument d.id = false)
    (id : DocumentId) :
    (p.including kind ds).document? id =
      ((ds.find? (fun d => d.id = id)).map
        (.ofDescription kind)).or (p.document? id) := by
  cases hFind : ds.find? (fun d => decide (d.id = id)) with
  | some d =>
      have hId : d.id = id := by
        simpa using List.find?_some hFind
      have hMem := List.mem_of_find?_eq_some hFind
      apply (hWell.including hNodup hFree).document?_eq
      unfold Project.including DocumentMap.including
      rw [ByKind.get_set_self, ← hId]
      exact getElem?_entering_of_mem hNodup hMem
  | none =>
      have hOther : id ∉ ds.map DocumentDescription.id := by
        intro hMem
        rcases List.mem_map.1 hMem with ⟨d, hD, rfl⟩
        simpa using List.find?_eq_none.1 hFind d hD
      apply document?_congr
      intro other
      unfold Project.including DocumentMap.including
      by_cases hKind : other = kind
      · subst hKind
        rw [ByKind.get_set_self]
        exact getElem?_entering_of_notMem hOther
      · rw [ByKind.get_set_of_ne _ hKind]

/- Documents that are removed are found no longer. -/
theorem document?_excluding
    {kind : DocumentKind}
    {ids : List DocumentId}
    (hPresent : ∀ id ∈ ids, id ∈ p.documents.get kind)
    (id : DocumentId) :
    (p.excluding kind ids).document? id =
      if id ∈ ids then none else p.document? id := by
  split
  · next hGone =>
      apply document?_eq_none
      intro other
      unfold Project.excluding
      by_cases hKind : other = kind
      · subst hKind
        rw [ByKind.get_set_self, DocumentMap.getElem?_excluding,
          if_pos hGone]
      · rw [ByKind.get_set_of_ne _ hKind]
        apply Std.ExtTreeMap.getElem?_eq_none
        intro hMem
        exact hKind (hWell.apart other kind id hMem
          (hPresent id hGone))
  · next hKept =>
      apply document?_congr
      intro other
      unfold Project.excluding
      by_cases hKind : other = kind
      · subst hKind
        rw [ByKind.get_set_self, DocumentMap.getElem?_excluding,
          if_neg hKept]
      · rw [ByKind.get_set_of_ne _ hKind]

/- A document that is replaced is found in its new form. -/
theorem document?_putDocument
    {d e : Document}
    (hStands : (p.documents.get d.kind)[d.id]? = some d)
    (hId : e.id = d.id)
    (hKind : e.kind = d.kind)
    (id : DocumentId) :
    (p.putDocument e).document? id =
      if id = d.id then some e else p.document? id := by
  split
  · next hSame =>
      apply (hWell.putDocument hStands hId hKind).document?_eq
      unfold Project.putDocument
      rw [ByKind.get_set_self, hSame, ← hId]
      exact Std.ExtTreeMap.getElem?_insert_self
  · next hOther =>
      apply document?_congr
      intro other
      unfold Project.putDocument
      by_cases hIsKind : other = e.kind
      · subst hIsKind
        rw [ByKind.get_set_self, Std.ExtTreeMap.getElem?_insert,
          if_neg]
        intro hEq
        rw [hId] at hEq
        exact hOther (Std.LawfulEqOrd.eq_of_compare hEq).symm
      · rw [ByKind.get_set_of_ne _ hIsKind]

end WellFormed

------------------------------------------------------------
-- Snapshots with the same parts
------------------------------------------------------------

/- Projects in order with the same parts are the same. -/
theorem eq_of_parts
    {p q : Project}
    (hP : p.WellFormed)
    (hQ : q.WellFormed)
    (hContent : ∀ part, p.content part = q.content part)
    (hDocument : ∀ id, p.document? id = q.document? id) :
    p = q := by
  have hDocuments : p.documents = q.documents := by
    apply ByKind.ext_get
    intro kind
    apply Std.ExtTreeMap.ext_getElem?
    intro id
    rw [hP.getElem?_documents, hQ.getElem?_documents,
      hDocument]
  cases p
  cases q
  rw [Project.mk.injEq]
  exact ⟨hContent .attributes, hContent .compilationOptions,
    hContent .parseOptions, hContent .projectReferences,
    hContent .metadataReferences, hContent .analyzerReferences,
    hDocuments⟩

end Project

namespace Solution

variable {s t : Solution}

/- Solutions that agree on the parts of a project agree on it. -/
theorem getElem?_projects_eq_of_parts
    (hS : s.WellFormed)
    (hT : t.WellFormed)
    {id : ProjectId}
    (hSame :
      ∀ x : SnapshotPart,
        x.project? = some id → s.part x = t.part x) :
    s.projects[id]? = t.projects[id]? := by
  have hContent :
      ∀ part,
        s.projects[id]?.map (fun p => p.content part) =
          t.projects[id]?.map (fun p => p.content part) :=
    fun part => hSame (.project id part) rfl
  have hDocument :
      ∀ d, s.document? id d = t.document? id d :=
    fun d => hSame (.document id d) rfl
  unfold document? project? at hDocument
  cases hP : s.projects[id]? with
  | none =>
      have hNone := hContent .attributes
      rw [hP] at hNone
      exact (Option.map_eq_none_iff.1 hNone.symm).symm
  | some p =>
      cases hQ : t.projects[id]? with
      | none =>
          have hNone := hContent .attributes
          rw [hP, hQ] at hNone
          cases hNone
      | some q =>
          rw [hP, hQ] at hContent hDocument
          rw [Project.eq_of_parts (hS.project id p hP)
            (hT.project id q hQ)
            (fun part => Option.some.inj (hContent part))
            hDocument]

/- Solutions in order with the same parts are the same. -/
theorem eq_of_parts
    (hS : s.WellFormed)
    (hT : t.WellFormed)
    (hSame : ∀ x, s.part x = t.part x) :
    s = t := by
  have hProjects : s.projects = t.projects := by
    apply Std.ExtTreeMap.ext_getElem?
    intro id
    exact getElem?_projects_eq_of_parts hS hT
      (fun x _ => hSame x)
  have hAttributes := hSame (.solution .attributes)
  have hAnalyzers := hSame (.solution .analyzerReferences)
  have hFrozen := hSame (.solution .frozenDocument)
  cases s
  cases t
  rw [Solution.mk.injEq]
  exact ⟨hAttributes, hProjects, hAnalyzers, hFrozen⟩

end Solution

end SnapTree
