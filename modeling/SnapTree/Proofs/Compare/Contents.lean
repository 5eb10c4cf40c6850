import SnapTree.Compare.SnapshotDiff
import SnapTree.Proofs.Data.Ascending
import SnapTree.Proofs.Sync.ProjectStages

/-
  This file describes the difference of two snapshots by what
  the snapshots hold, not by their checksum trees, and proves
  that this difference is exact: it lists every part, project
  and document that differs, and nothing else.  Parts of two
  snapshots have different checksums exactly if they differ.

  Key definitions include:
    * `Solution.differsIn`
    * `Project.differsIn`
    * `Project.changeTo`
    * `Solution.differenceTo`
    * `ProjectChange.IsExact`
    * `SnapshotDiff.IsExact`

  Key theorems include:
    * `Project.isExact_changeTo`
    * `Solution.isExact_differenceTo`
    * `Solution.isEmpty_differenceTo_iff`
    * `Solution.Comparable.changed_node`
    * `Project.Comparable.changed_node`
-/

namespace SnapTree

------------------------------------------------------------
-- Differences of contents
------------------------------------------------------------

/- Whether a part of two solutions differs. -/
def Solution.differsIn
    (s t : Solution) : SolutionPart → Bool
  | .attributes => s.attributes != t.attributes
  | .analyzerReferences =>
      s.analyzerReferences != t.analyzerReferences
  | .frozenDocument => s.frozen != t.frozen

namespace Project

/- Whether a part of two projects differs. -/
def differsIn
    (p q : Project) : ProjectPart → Bool
  | .attributes => p.attributes != q.attributes
  | .compilationOptions =>
      p.compilationOptions != q.compilationOptions
  | .parseOptions => p.parseOptions != q.parseOptions
  | .projectReferences =>
      p.projectReferences != q.projectReferences
  | .metadataReferences =>
      p.metadataReferences != q.metadataReferences
  | .analyzerReferences =>
      p.analyzerReferences != q.analyzerReferences

/- The attributes of the documents that are not there alike. -/
def departingAttributes
    (p q : Project)
    (kind : DocumentKind) : DocumentsById :=
  (departing (p.documents.get kind) (q.documents.get kind)).map
    (fun _ d => d.attributes)

/- The changes from the documents of a kind to others. -/
def documentChanges
    (p q : Project)
    (kind : DocumentKind) : List DocumentChange :=
  DocumentChange.list kind (p.departingAttributes q kind)
    (q.departingAttributes p kind)

/- The change from one project to another. -/
def changeTo
    (p q : Project) : ProjectChange where
  id := q.id
  name := q.attributes.name
  parts := ProjectPart.all.filter (p.differsIn q)
  documents := DocumentKind.all.flatMap (p.documentChanges q)

/- A project that is on one side only. -/
def entry
    (p : Project) : ProjectEntry :=
  ⟨p.id, p.attributes.name⟩

end Project

/- The difference from one solution to another. -/
def Solution.differenceTo
    (s t : Solution) : SnapshotDiff where
  old := s.checksum
  new := t.checksum
  solution := SolutionPart.all.filter (s.differsIn t)
  projectsAdded :=
    (comers s.projects t.projects).map Project.entry
  projectsRemoved :=
    (comers t.projects s.projects).map Project.entry
  projectsChanged :=
    (changers s.projects t.projects).map
      (fun pair => pair.1.changeTo pair.2)

------------------------------------------------------------
-- Exact differences
------------------------------------------------------------

/-
  Whether a change happens to a document of a kind on the way
  from one project to another.  A document that goes or is
  modified is the old one, a document that comes the new one.
-/
def ChangeKind.Affects
    (p q : Project)
    (kind : DocumentKind)
    (d : Document) : ChangeKind → Prop
  | .removed =>
      (p.documents.get kind)[d.id]? = some d ∧
        d.id ∉ q.documents.get kind
  | .added =>
      (q.documents.get kind)[d.id]? = some d ∧
        d.id ∉ p.documents.get kind
  | .modified =>
      (p.documents.get kind)[d.id]? = some d ∧
        ∃ e, (q.documents.get kind)[d.id]? = some e ∧
          (d.attributes ≠ e.attributes ∨ d.text ≠ e.text)

/- Whether something became of a document of a kind. -/
def DocumentChange.isOf
    (kind : DocumentKind)
    (change : ChangeKind)
    (c : DocumentChange) : Bool :=
  c.kind = kind ∧ c.change = change

/-
  A change tells of two projects which parts of them differ,
  and for each kind, of each document to which something
  happens, what it is: one entry each, in the order of their
  identities.  It never tells nothing.
-/
structure ProjectChange.IsExact
    (x : ProjectChange)
    (p q : Project) : Prop where
  name : x.name = q.attributes.name
  parts : x.parts = ProjectPart.all.filter (p.differsIn q)
  documents :
    ∀ (kind : DocumentKind) (change : ChangeKind),
      ∃ ds : List Document,
        ListsAscending Document.id ds
            (fun d => change.Affects p q kind d) ∧
          x.documents.filter (DocumentChange.isOf kind change) =
            ds.map (fun d => .of kind change d.attributes)
  tells : x.parts ≠ [] ∨ x.documents ≠ []

/-
  A difference tells of two solutions which parts of them
  differ, which projects are on one side only, and which are
  on both sides and differ, with an exact change for each.
-/
structure SnapshotDiff.IsExact
    (d : SnapshotDiff)
    (s t : Solution) : Prop where
  old : d.old = s.checksum
  new : d.new = t.checksum
  solution :
    d.solution = SolutionPart.all.filter (s.differsIn t)
  projectsAdded :
    ListsAscending ProjectEntry.id d.projectsAdded
      (fun entry =>
        ∃ q, t.projects[entry.id]? = some q ∧
          entry.id ∉ s.projects ∧
            entry.name = q.attributes.name)
  projectsRemoved :
    ListsAscending ProjectEntry.id d.projectsRemoved
      (fun entry =>
        ∃ p, s.projects[entry.id]? = some p ∧
          entry.id ∉ t.projects ∧
            entry.name = p.attributes.name)
  projectsChanged :
    ListsAscending id (d.projectsChanged.map ProjectChange.id)
      (fun id =>
        ∃ p q, s.projects[id]? = some p ∧
          t.projects[id]? = some q ∧ p ≠ q)
  changes :
    ∀ x ∈ d.projectsChanged, ∀ p q : Project,
      s.projects[x.id]? = some p →
        t.projects[x.id]? = some q → x.IsExact p q

------------------------------------------------------------
-- The changes to the documents of a kind
------------------------------------------------------------

namespace DocumentChange

variable {kind other : DocumentKind}

/- Only a change of a kind is one of this kind. -/
theorem filter_map_of
    {α : Type}
    (xs : List α)
    (change : α → ChangeKind)
    (attributes : α → DocumentAttributes)
    (sort : ChangeKind) :
    (xs.map (fun x => of kind (change x) (attributes x))).filter
        (isOf other sort) =
      if kind = other then
        (xs.filter (fun x => change x = sort)).map
          (fun x => of kind sort (attributes x))
      else [] := by
  rw [List.filter_map]
  split
  · next hKind =>
      subst hKind
      have hSame :
          xs.filter
              (isOf kind sort ∘
                fun x => of kind (change x) (attributes x)) =
            xs.filter (fun x => change x = sort) := by
        apply List.filter_congr
        intro x _
        simp [isOf, of]
      rw [hSame]
      apply List.map_congr_left
      intro x hX
      rw [of_decide_eq_true (List.mem_filter.1 hX).2]
  · next hKind =>
      rw [List.map_eq_nil_iff, List.filter_eq_nil_iff]
      intro x _
      simp [isOf, of, hKind]

variable (old new : DocumentsById)

/- The entries of two sides to which a change happens. -/
def entries : ChangeKind → List (DocumentId × DocumentAttributes)
  | .removed =>
      old.toList.filter (fun entry => !new.contains entry.1)
  | .added =>
      new.toList.filter (fun entry => !old.contains entry.1)
  | .modified =>
      old.toList.filter (fun entry => new.contains entry.1)

theorem filter_list
    (sort : ChangeKind) :
    (list kind old new).filter (isOf other sort) =
      if kind = other then
        (entries old new sort).map
          (fun entry => of kind sort entry.2)
      else [] := by
  let fate :=
    fun entry : DocumentId × DocumentAttributes =>
      if new.contains entry.1 then ChangeKind.modified
      else .removed
  have hList :
      list kind old new =
        old.toList.map
            (fun entry => of kind (fate entry) entry.2) ++
          (new.toList.filter
            (fun entry => !old.contains entry.1)).map
              (fun entry => of kind .added entry.2) :=
    rfl
  have hNew :
      ∀ xs : List (DocumentId × DocumentAttributes),
        (xs.map (fun entry => of kind .added entry.2)).filter
            (isOf other sort) =
          if kind = other then
            (xs.filter
              (fun _ => ChangeKind.added = sort)).map
                (fun entry => of kind sort entry.2)
          else [] :=
    fun xs =>
      filter_map_of xs (fun _ => .added) (fun entry => entry.2)
        sort
  rw [hList, List.filter_append, filter_map_of, hNew]
  split
  · have hFate :
        ∀ entry, decide (fate entry = sort) =
          match sort with
          | .removed => !new.contains entry.1
          | .added => false
          | .modified => new.contains entry.1 := by
      intro entry
      dsimp only [fate]
      rcases Bool.eq_false_or_eq_true
        (new.contains entry.1) with hHere | hHere
      · simp only [hHere]
        cases sort <;> rfl
      · simp only [hHere]
        cases sort <;> rfl
    simp only [hFate]
    cases sort <;> simp [entries]
  · rfl

end DocumentChange

/- The documents of a kind to which a change happens. -/
def ChangeKind.affected
    (p q : DocumentMap) : ChangeKind → List Document
  | .removed => comers q p
  | .added => comers p q
  | .modified => (changers q p).map Prod.snd

namespace Project

variable
  {p q : Project}
  (hP : p.WellFormed)
  (hQ : q.WellFormed)

include hP hQ

/- The entries of a kind tell what became of its documents. -/
theorem entries_departing
    (kind : DocumentKind)
    (sort : ChangeKind) :
    DocumentChange.entries (p.departingAttributes q kind)
        (q.departingAttributes p kind) sort =
      (sort.affected (p.documents.get kind)
        (q.documents.get kind)).map
          (fun d => (d.id, d.attributes)) := by
  have hContains :
      ∀ (m : DocumentMap) (id : DocumentId),
        (m.map (fun _ d => d.attributes)).contains id =
          m.contains id :=
    fun _ _ => Std.ExtTreeMap.contains_map
  unfold departingAttributes
  cases sort with
  | removed =>
      simp only [DocumentChange.entries, hContains]
      exact filter_toList_departing (hP.isKeyed kind) _
  | added =>
      simp only [DocumentChange.entries, hContains]
      exact filter_toList_departing (hQ.isKeyed kind) _
  | modified =>
      simp only [DocumentChange.entries, hContains]
      rw [filter_toList_departing_changers (hP.isKeyed kind)]
      unfold ChangeKind.affected
      rw [List.map_map]
      rfl

/- They are those to which it happens, by ascending identity. -/
theorem listsAscending_affected
    (kind : DocumentKind)
    (sort : ChangeKind) :
    ListsAscending Document.id
      (sort.affected (p.documents.get kind)
        (q.documents.get kind))
      (fun d => sort.Affects p q kind d) := by
  cases sort with
  | removed => exact listsAscending_comers (hP.isKeyed kind)
  | added => exact listsAscending_comers (hQ.isKeyed kind)
  | modified =>
      have hChanges :=
        listsAscending_changers (hQ.isKeyed kind)
          (hP.isKeyed kind)
      refine (hChanges.map (fun _ _ => rfl)).congr
        (fun d => ?_)
      constructor
      · rintro ⟨⟨e, d⟩, ⟨hE, hD, hNe⟩, rfl⟩
        dsimp only at hE hD hNe ⊢
        have hId : d.id = e.id := hP.isKeyed kind e.id d hD
        rw [← hId] at hE hD
        refine ⟨hD, e, hE, ?_⟩
        by_contra hAlike
        rw [not_or, not_not, not_not] at hAlike
        apply hNe
        rw [Document.mk.injEq]
        exact ⟨(hQ.keyed kind _ e hE).2.trans
            (hP.keyed kind _ d hD).2.symm,
          hAlike.1.symm, hAlike.2.symm⟩
      · rintro ⟨hD, e, hE, hDiffers⟩
        have hId : e.id = d.id := hQ.isKeyed kind d.id e hE
        refine ⟨(e, d), ⟨?_, ?_, ?_⟩, rfl⟩
        · rw [hId]
          exact hE
        · rw [hId]
          exact hD
        · intro hSame
          dsimp only at hSame
          subst hSame
          exact hDiffers.elim (fun h => h rfl) (fun h => h rfl)

theorem filter_documentChanges
    (kind other : DocumentKind)
    (sort : ChangeKind) :
    (p.documentChanges q kind).filter
        (DocumentChange.isOf other sort) =
      if kind = other then
        (sort.affected (p.documents.get kind)
          (q.documents.get kind)).map
            (fun d => .of kind sort d.attributes)
      else [] := by
  unfold documentChanges
  rw [DocumentChange.filter_list, entries_departing hP hQ,
    List.map_map]
  rfl

/- The changes of all kinds are those of each kind. -/
theorem filter_documents_changeTo
    (kind : DocumentKind)
    (sort : ChangeKind) :
    (p.changeTo q).documents.filter
        (DocumentChange.isOf kind sort) =
      (sort.affected (p.documents.get kind)
        (q.documents.get kind)).map
          (fun d => .of kind sort d.attributes) := by
  unfold changeTo
  dsimp only
  rw [List.filter_flatMap]
  simp only [filter_documentChanges hP hQ]
  cases kind <;> simp [DocumentKind.all]

/- Projects that a change tells nothing of are the same. -/
theorem eq_of_changeTo
    (hParts : (p.changeTo q).parts = [])
    (hDocuments : (p.changeTo q).documents = []) :
    p = q := by
  have hAlike :
      ∀ part ∈ ProjectPart.all, p.differsIn q part = false := by
    intro part hPart
    have hNot := List.filter_eq_nil_iff.1 hParts part hPart
    rwa [Bool.not_eq_true] at hNot
  have hKind :
      ∀ kind, p.documents.get kind = q.documents.get kind := by
    intro kind
    have hNone :
        ∀ sort : ChangeKind,
          sort.affected (p.documents.get kind)
            (q.documents.get kind) = [] := by
      intro sort
      have hEntries :=
        filter_documents_changeTo hP hQ kind sort
      rw [hDocuments, List.filter_nil] at hEntries
      exact List.map_eq_nil_iff.1 hEntries.symm
    have hSame :
        changers (q.documents.get kind)
          (p.documents.get kind) = [] :=
      List.map_eq_nil_iff.1 (hNone .modified)
    exact (eq_of_unchanged (hQ.isKeyed kind) (hP.isKeyed kind)
      (hNone .added) (hNone .removed) hSame).symm
  simp only [ProjectPart.all, List.forall_mem_cons, differsIn,
    bne_eq_false_iff_eq] at hAlike
  rcases hAlike with ⟨hA, hC, hO, hR, hM, hZ, -⟩
  cases p
  cases q
  rw [Project.mk.injEq]
  exact ⟨hA, hC, hO, hR, hM, hZ, ByKind.ext_get hKind⟩

theorem isExact_changeTo
    (hNe : p ≠ q) :
    (p.changeTo q).IsExact p q where
  name := rfl
  parts := rfl
  documents kind sort :=
    ⟨_, listsAscending_affected hP hQ kind sort,
      filter_documents_changeTo hP hQ kind sort⟩
  tells := by
    by_contra hNothing
    rw [not_or, not_not, not_not] at hNothing
    exact hNe (eq_of_changeTo hP hQ hNothing.1 hNothing.2)

end Project

------------------------------------------------------------
-- The difference of two solutions
------------------------------------------------------------

namespace Solution

variable
  {s t : Solution}
  (hS : s.WellFormed)
  (hT : t.WellFormed)

include hS hT

omit hS in
/- The projects that only one side has, by ascending identity. -/
theorem listsAscending_entries :
    ListsAscending ProjectEntry.id
      ((comers s.projects t.projects).map Project.entry)
      (fun entry =>
        ∃ q, t.projects[entry.id]? = some q ∧
          entry.id ∉ s.projects ∧
            entry.name = q.attributes.name) := by
  have hComers :
      ListsAscending ProjectEntry.id
        ((comers s.projects t.projects).map Project.entry)
        (fun entry => ∃ q : Project,
          (t.projects[q.id]? = some q ∧
            q.id ∉ s.projects) ∧ q.entry = entry) :=
    (listsAscending_comers hT.isKeyed).map (fun _ _ => rfl)
  refine hComers.congr (fun entry => ?_)
  constructor
  · rintro ⟨q, ⟨hQ, hNot⟩, rfl⟩
    exact ⟨q, hQ, hNot, rfl⟩
  · rintro ⟨q, hQ, hNot, hName⟩
    have hId : q.id = entry.id := hT.isKeyed entry.id q hQ
    rw [← hId] at hQ hNot
    refine ⟨q, ⟨hQ, hNot⟩, ?_⟩
    unfold Project.entry
    rw [hId, ← hName]

theorem isExact_differenceTo :
    (s.differenceTo t).IsExact s t where
  old := rfl
  new := rfl
  solution := rfl
  projectsAdded := listsAscending_entries hT
  projectsRemoved := listsAscending_entries hS
  projectsChanged := by
    unfold differenceTo
    dsimp only
    rw [List.map_map]
    exact listsAscending_keys_changers hS.isKeyed hT.isKeyed
  changes := by
    intro x hX p q hP hQ
    rcases List.mem_map.1 hX with ⟨⟨p', q'⟩, hPair, rfl⟩
    rcases (mem_changers hS.isKeyed).1 hPair with
      ⟨hP', hQ', hNe⟩
    dsimp only [Project.changeTo] at hP hQ ⊢
    rw [hT.isKeyed p'.id q' hQ'] at hP hQ
    rw [hP', Option.some.injEq] at hP
    rw [hQ', Option.some.injEq] at hQ
    subst hP
    subst hQ
    exact Project.isExact_changeTo (hS.project _ p' hP')
      (hT.project _ q' hQ') hNe

/- The difference of two solutions is empty if they are the same. -/
theorem isEmpty_differenceTo_iff :
    (s.differenceTo t).isEmpty = true ↔ s = t := by
  unfold SnapshotDiff.isEmpty differenceTo
  simp only [Bool.and_eq_true, List.isEmpty_iff,
    List.map_eq_nil_iff]
  constructor
  · rintro ⟨⟨⟨hParts, hNew⟩, hGone⟩, hSame⟩
    have hAlike :
        ∀ part ∈ SolutionPart.all,
          s.differsIn t part = false := by
      intro part hPart
      have hNot := List.filter_eq_nil_iff.1 hParts part hPart
      rwa [Bool.not_eq_true] at hNot
    have hProjects : s.projects = t.projects :=
      eq_of_unchanged hS.isKeyed hT.isKeyed hGone hNew hSame
    simp only [SolutionPart.all, List.forall_mem_cons,
      differsIn, bne_eq_false_iff_eq] at hAlike
    rcases hAlike with ⟨hAttributes, hReferences, hFrozen, -⟩
    cases s
    cases t
    rw [Solution.mk.injEq]
    exact ⟨hAttributes, hProjects, hReferences, hFrozen⟩
  · rintro rfl
    refine ⟨⟨⟨?_, comers_self⟩, comers_self⟩, changers_self⟩
    apply List.filter_eq_nil_iff.2
    intro part _
    cases part <;> simp [differsIn]

end Solution

------------------------------------------------------------
-- Parts
------------------------------------------------------------

/- Two pairs that are equal together differ together. -/
theorem bne_congr
    {α β : Type}
    [BEq α]
    [LawfulBEq α]
    [BEq β]
    [LawfulBEq β]
    {a b : α}
    {c d : β}
    (hSame : a = b ↔ c = d) :
    (a != b) = (c != d) := by
  rw [Bool.eq_iff_iff, bne_iff_ne, bne_iff_ne]
  exact not_congr hSame

/- Frozen documents are told apart by the halves of a root. -/
theorem Solution.Comparable.frozen?_eq_iff
    {s t : Solution}
    {assets : Set Asset}
    (hBoth : s.Comparable t assets) :
    s.node.frozen? = t.node.frozen? ↔ s.frozen = t.frozen := by
  rcases Solution.forall_mem_assets.1 hBoth.left_mem with
    ⟨-, -, -, -, hFrozenS⟩
  rcases Solution.forall_mem_assets.1 hBoth.right_mem with
    ⟨-, -, -, -, hFrozenT⟩
  rw [Solution.frozen?_node hBoth.faithful hFrozenS,
    Solution.frozen?_node hBoth.faithful hFrozenT]
  constructor
  · intro hSame
    cases hF : s.frozen with
    | none =>
        rw [hF, Option.map_none] at hSame
        exact (Option.map_eq_none_iff.1 hSame.symm).symm
    | some f =>
        rw [hF, Option.map_some] at hSame
        rcases Option.map_eq_some_iff.1 hSame.symm with
          ⟨g, hG, hHalves⟩
        rcases Prod.mk.inj hHalves with ⟨hIdentity, hText⟩
        rw [hG, FrozenDocument.eq_of_checksums hBoth.faithful
          (hFrozenT g hG) (hFrozenS f hF) hIdentity hText]
  · exact congrArg _

/- The parts of solutions whose checksums differ are those that do. -/
theorem Solution.Comparable.changed_node
    {s t : Solution}
    {assets : Set Asset}
    (hBoth : s.Comparable t assets) :
    SolutionPart.changed s.node t.node =
      SolutionPart.all.filter (s.differsIn t) := by
  rcases Solution.forall_mem_assets.1 hBoth.left_mem with
    ⟨-, hAttributesS, -⟩
  rcases Solution.forall_mem_assets.1 hBoth.right_mem with
    ⟨-, hAttributesT, -⟩
  unfold SolutionPart.changed
  apply List.filter_congr
  intro part _
  cases part with
  | attributes =>
      apply bne_congr
      rw [s.attributes_node, t.attributes_node]
      constructor
      · exact hBoth.faithful.value_eq hAttributesS hAttributesT
          rfl rfl
      · exact congrArg _
  | analyzerReferences =>
      change (s.node.analyzerReferences.checksum !=
        t.node.analyzerReferences.checksum) =
          (s.analyzerReferences != t.analyzerReferences)
      apply bne_congr
      constructor
      · exact hBoth.analyzerReferences_eq
      · intro hSame
        rw [s.analyzerReferences_node, t.analyzerReferences_node,
          hSame]
  | frozenDocument =>
      change (s.node.frozen? != t.node.frozen?) =
        (s.frozen != t.frozen)
      exact bne_congr hBoth.frozen?_eq_iff

namespace Project.Comparable

variable
  {p q : Project}
  {assets : Set Asset}
  (hBoth : p.Comparable q assets)

include hBoth

/- The parts of projects whose checksums differ are those that do. -/
theorem changed_node :
    ProjectPart.changed p.node q.node =
      ProjectPart.all.filter (p.differsIn q) := by
  unfold ProjectPart.changed
  apply List.filter_congr
  intro part _
  have hSame := hBoth.content_eq_iff part
  cases part <;> exact bne_congr hSame

end Project.Comparable

end SnapTree
