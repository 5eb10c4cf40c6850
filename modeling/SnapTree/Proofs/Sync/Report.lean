import SnapTree.Proofs.Sync.Convergence
import SnapTree.Proofs.Workspace.Places

/-
  This file proves that the report on a synchronization says
  what happened: which projects went, came, changed or were
  left out, and how many documents came, changed or went, each
  counted by its place in the two solutions.

  What is reported is put together from differences of nodes,
  kind by kind and project by project.  The counts are brought
  to the places of documents one kind at a time, then over the
  kinds of a project, then over the projects.

  Key definitions include:
    * `Solution.revisedAt`
    * `SyncReport.IsExact`

  Key theorems include:
    * `Synchronizer.documentsAdded_migration`
    * `Synchronizer.documentsRemoved_migration`
    * `Synchronizer.documentsUpdated_migration`
    * `Synchronizer.isExact_reported`
    * `Synchronizer.synchronizeWithReport_exact`
-/

namespace SnapTree

------------------------------------------------------------
-- The documents of two projects
------------------------------------------------------------

namespace Project

variable {p q : Project} {kind : DocumentKind}

/- What comes to a kind is what the other side lacks. -/
theorem length_comersTo
    (hQ : q.WellFormed) :
    (p.comersTo q kind).length =
      (q.documentsOf kind).countP
        (fun e => !(p.documents.get kind).contains e.id) := by
  unfold comersTo
  rw [comers_eq (hQ.isKeyed kind), List.countP_eq_length_filter]
  rfl

/- What changes in a kind stands for something different. -/
theorem length_changersTo
    (hP : p.WellFormed)
    (hQ : q.WellFormed) :
    (p.changersTo q kind).length =
      (q.documentsOf kind).countP
        (isChanged Document.id (p.documents.get kind)) := by
  have hAfter :=
    map_snd_changers (hP.isKeyed kind) (hQ.isKeyed kind)
  unfold changersTo
  rw [← List.length_map Prod.snd, hAfter,
    List.countP_eq_length_filter]
  rfl

/- What goes from a kind comes when it is seen from there. -/
theorem length_removed_planTo
    (hP : p.WellFormed) :
    (p.planTo q kind).removed.length =
      (q.comersTo p kind).length := by
  unfold planTo comersTo
  rw [DocumentPlan.removed_between, leavers_eq (hP.isKeyed kind),
    List.length_map]

/- Only kinds that differ have documents that do. -/
theorem Comparable.sum_changedKinds
    {assets : Set Asset}
    (hBoth : p.Comparable q assets)
    {f : DocumentKind → Nat}
    (hNone :
      ∀ kind, p.documents.get kind = q.documents.get kind →
        f kind = 0) :
    ((p.changedKinds q).map f).sum =
      (DocumentKind.all.map f).sum := by
  unfold changedKinds
  rw [sum_map_filter]
  congr 1
  apply List.map_congr_left
  intro kind _
  split
  next => rfl
  next hSame =>
      have hOther : kind ∉ p.changedKinds q := by
        unfold changedKinds
        rw [List.mem_filter]
        exact fun hMem => hSame hMem.2
      exact (hNone kind
        (hBoth.documents_eq_of_notMem hOther)).symm

end Project

------------------------------------------------------------
-- Reports on projects that change
------------------------------------------------------------

namespace SyncReport

/- A count grows by what each project that changes adds to it. -/
theorem renewing_add
    {f : SyncReport → Nat}
    {g : Project → Project → Nat}
    (hField : ∀ r p q, f (r.updating p q) = f r + g p q)
    (r : SyncReport)
    (done : List (Project × Project)) :
    f (r.renewing done) =
      f r + (done.map (fun pair => g pair.1 pair.2)).sum := by
  unfold renewing
  induction done generalizing r with
  | nil => rfl
  | cons pair rest ih =>
      rw [List.foldl_cons, ih, hField, List.map_cons,
        List.sum_cons, Nat.add_assoc]

/- The projects that change are listed one after another. -/
theorem projectsUpdated_renewing
    (r : SyncReport)
    (done : List (Project × Project)) :
    (r.renewing done).projectsUpdated =
      r.projectsUpdated ++ done.map (fun pair => pair.1.id) := by
  unfold renewing
  induction done generalizing r with
  | nil => simp
  | cons pair rest ih =>
      rw [List.foldl_cons, ih, List.map_cons]
      dsimp only [updating, revising, removing]
      rw [List.append_assoc]
      rfl

/- What a migration does not touch stays as it was. -/
theorem migrating_of_steps
    {α : Type}
    {f : SyncReport → α}
    (hDropping : ∀ r done, f (r.dropping done) = f r)
    (hJoining :
      ∀ r supports done, f (r.joining supports done) = f r)
    (hUpdating : ∀ r p q, f (r.updating p q) = f r)
    (r : SyncReport)
    (supports : Project → Bool)
    (m target : ProjectMap) :
    f (r.migrating supports m target) = f r := by
  unfold migrating
  rw [renewing_of_updating hUpdating, hJoining, hDropping]

@[simp]
theorem baseline_migrating
    (r : SyncReport)
    (supports : Project → Bool)
    (m target : ProjectMap) :
    (r.migrating supports m target).baseline = r.baseline := by
  apply migrating_of_steps (f := baseline)
  all_goals
    intros
    dsimp only [dropping, joining, updating, revising, removing]

@[simp]
theorem target_migrating
    (r : SyncReport)
    (supports : Project → Bool)
    (m target : ProjectMap) :
    (r.migrating supports m target).target = r.target := by
  apply migrating_of_steps (f := SyncReport.target)
  all_goals
    intros
    dsimp only [dropping, joining, updating, revising, removing]

@[simp]
theorem upToDate_migrating
    (r : SyncReport)
    (supports : Project → Bool)
    (m target : ProjectMap) :
    (r.migrating supports m target).upToDate = r.upToDate := by
  apply migrating_of_steps (f := upToDate)
  all_goals
    intros
    dsimp only [dropping, joining, updating, revising, removing]

end SyncReport

namespace Solution

/- Whether both sides have a document at a place that differs. -/
def revisedAt
    (s t : Solution)
    (place : DocumentPlace) : Bool :=
  match s.documentAt? place, t.documentAt? place with
  | some d, some e =>
      d.attributes != e.attributes || d.text != e.text
  | _, _ => false

/- What another version of a project lacks, place by place. -/
theorem sum_comersTo
    {s : Solution}
    {p q : Project}
    (hQ : q.WellFormed)
    (hHere : s.projects[q.id]? = some p) :
    (DocumentKind.all.map
        (fun kind => (p.comersTo q kind).length)).sum =
      q.documentPlaces.countP
        (fun place => (s.documentAt? place).isNone) := by
  rw [hQ.countP_documentPlaces]
  congr 1
  apply List.map_congr_left
  intro kind _
  rw [Project.length_comersTo hQ]
  apply List.countP_congr
  intro e _
  unfold documentAt? project?
  dsimp only
  rw [hHere, Option.bind_some,
    Std.ExtTreeMap.contains_eq_isSome_getElem?,
    Option.not_isSome]

/- What differs in another version, place by place. -/
theorem sum_changersTo
    {s t : Solution}
    {p q : Project}
    (hP : p.WellFormed)
    (hQ : q.WellFormed)
    (hHere : s.projects[q.id]? = some p)
    (hThere : t.projects[q.id]? = some q) :
    (DocumentKind.all.map
        (fun kind => (p.changersTo q kind).length)).sum =
      q.documentPlaces.countP (s.revisedAt t) := by
  rw [hQ.countP_documentPlaces]
  congr 1
  apply List.map_congr_left
  intro kind _
  rw [Project.length_changersTo hP hQ]
  apply List.countP_congr
  intro e hListed
  have hE := hQ.mem_documentsOf.1 hListed
  have hRight :
      t.documentAt? ⟨q.id, kind, e.id⟩ = some e :=
    documentAt?_eq_some_iff.2 ⟨q, hThere, hE⟩
  have hLeft :
      s.documentAt? ⟨q.id, kind, e.id⟩ =
        (p.documents.get kind)[e.id]? := by
    unfold documentAt? project?
    dsimp only
    rw [hHere, Option.bind_some]
  unfold revisedAt isChanged
  rw [hRight, hLeft]
  cases hD : (p.documents.get kind)[e.id]? with
  | none => rfl
  | some d =>
      -- Both are documents of this kind, so the rest decides.
      have hKinds : d.kind = e.kind :=
        (hP.keyed kind e.id d hD).2.trans
          (hQ.keyed kind e.id e hE).2.symm
      have hSame :
          d = e ↔
            d.attributes = e.attributes ∧ d.text = e.text := by
        rw [Document.mk.injEq]
        exact and_iff_right hKinds
      dsimp only
      rw [bne_iff_ne, ne_eq, hSame, Bool.or_eq_true,
        bne_iff_ne, bne_iff_ne, Classical.not_and_iff_not_or_not]

namespace Comparable

variable
  {s t : Solution}
  {assets : Set Asset}
  (hBoth : s.Comparable t assets)

include hBoth

/-
  Over the projects that change, what is counted on the second
  side is counted by place.
-/
theorem sum_changers_right
    (c : DocumentPlace → Bool) :
    ((changers s.projects t.projects).map
        (fun pair => pair.2.documentPlaces.countP c)).sum =
      t.documentPlaces.countP
        (fun place =>
          decide (place.project ∈
            (changers s.projects t.projects).map
              (fun pair => pair.1.id)) && c place) := by
  have hS := hBoth.left.isKeyed
  have hT := hBoth.right.isKeyed
  have hAfter :
      ListsAscending Project.id
        ((changers s.projects t.projects).map Prod.snd)
        (fun q => ∃ pair : Project × Project,
          (s.projects[pair.1.id]? = some pair.1 ∧
            t.projects[pair.1.id]? = some pair.2 ∧
              pair.1 ≠ pair.2) ∧ pair.2 = q) :=
    (listsAscending_changers hS hT).map (fun _ _ => rfl)
  have hChanged :
      t.projectList.filter
          (fun q => decide (q.id ∈
            (changers s.projects t.projects).map
              (fun pair => pair.2.id))) =
        (changers s.projects t.projects).map Prod.snd := by
    have hKeys :=
      (listsAscending_values hT).filter_keys hAfter (by
        intro q hMem
        rcases (hAfter.mem_iff q).1 hMem with
          ⟨pair, ⟨-, hThere, -⟩, rfl⟩
        exact mem_values hThere)
    rw [List.map_map] at hKeys
    exact hKeys
  rw [← map_key_changers hBoth.left.isKeyed hT,
    hBoth.right.countP_documentPlaces_of
      (fun id => decide (id ∈
        (changers s.projects t.projects).map
          (fun pair => pair.2.id))), hChanged, List.map_map]
  rfl

/- The same holds of what is counted on the first side. -/
theorem sum_changers_left
    (c : DocumentPlace → Bool) :
    ((changers s.projects t.projects).map
        (fun pair => pair.1.documentPlaces.countP c)).sum =
      s.documentPlaces.countP
        (fun place =>
          decide (place.project ∈
            (changers s.projects t.projects).map
              (fun pair => pair.1.id)) && c place) := by
  have hBack :=
    changers_swap hBoth.left.isKeyed hBoth.right.isKeyed
  have hRight := hBoth.swap.sum_changers_right c
  rw [← map_key_changers hBoth.right.isKeyed
    hBoth.left.isKeyed, hBack, List.map_map, List.map_map]
    at hRight
  exact hRight

/- The documents of the projects that come, by place. -/
theorem sum_comers
    (supports : Project → Bool) :
    (((comers s.projects t.projects).filter supports).map
        (fun q => q.node.allDocuments.length)).sum =
      t.documentPlaces.countP
        (fun place =>
          decide (place.project ∈
            ((comers s.projects t.projects).filter
              supports).map Project.id)) := by
  have hT := hBoth.right.isKeyed
  have hComers :=
    (listsAscending_comers (p := s.projects) hT).filter supports
  have hAll :=
    (listsAscending_values hT).filter_keys hComers (by
      intro q hMem
      exact mem_values ((hComers.mem_iff q).1 hMem).1.1)
  have hCount :=
    hBoth.right.countP_documentPlaces_of
      (fun id => decide (id ∈
        ((comers s.projects t.projects).filter supports).map
          Project.id)) (fun _ => true)
  simp only [Bool.and_true, List.countP_true] at hCount
  rw [hCount]
  unfold projectList
  rw [hAll]
  congr 1
  apply List.map_congr_left
  intro q _
  unfold Project.documentPlaces
  rw [q.allDocuments_node, List.length_map, List.length_map]

end Comparable

end Solution

------------------------------------------------------------
-- What is reported about a migration
------------------------------------------------------------

namespace Synchronizer

section Migration

variable (sync : Synchronizer) (s t : Solution)

theorem projectsRemoved_migration :
    (sync.migration s t).projectsRemoved =
      leavers s.projects t.projects := by
  unfold migration SyncReport.migrating
  rw [SyncReport.renewing_of_updating
    (f := SyncReport.projectsRemoved)]
  · dsimp only [SyncReport.joining, SyncReport.dropping]
    rw [List.nil_append]
  · intro r p q
    dsimp only [SyncReport.updating, SyncReport.revising,
      SyncReport.removing]

theorem projectsAdded_migration :
    (sync.migration s t).projectsAdded =
      ((comers s.projects t.projects).filter
        sync.supports).map Project.id := by
  unfold migration SyncReport.migrating
  rw [SyncReport.renewing_of_updating
    (f := SyncReport.projectsAdded)]
  · dsimp only [SyncReport.joining, SyncReport.dropping]
    rw [List.nil_append]
  · intro r p q
    dsimp only [SyncReport.updating, SyncReport.revising,
      SyncReport.removing]

theorem projectsUpdated_migration :
    (sync.migration s t).projectsUpdated =
      (changers s.projects t.projects).map
        (fun pair => pair.1.id) := by
  unfold migration SyncReport.migrating
  rw [SyncReport.projectsUpdated_renewing]
  rfl

end Migration

variable
  {sync : Synchronizer}
  {s t : Solution}
  {assets : Set Asset}
  (hBoth : s.Comparable t assets)

include hBoth

/-
  The documents of projects that come, and those of projects
  that change which were not there before.
-/
theorem documentsAdded_migration :
    (sync.migration s t).documentsAdded =
      t.documentPlaces.countP
          (fun place =>
            decide (place.project ∈
              (sync.migration s t).projectsAdded)) +
        t.documentPlaces.countP
          (fun place =>
            decide (place.project ∈
              (sync.migration s t).projectsUpdated) &&
                (s.documentAt? place).isNone) := by
  rw [projectsAdded_migration, projectsUpdated_migration,
    ← hBoth.sum_changers_right, ← hBoth.sum_comers]
  unfold migration SyncReport.migrating
  rw [SyncReport.renewing_add (f := SyncReport.documentsAdded)
    (g := fun p q => ((p.changedKinds q).map
      (fun kind => (p.comersTo q kind).length)).sum)
    (fun _ _ _ => rfl)]
  congr 1
  · exact Nat.zero_add _
  · congr 1
    apply List.map_congr_left
    rintro ⟨p, q⟩ hPair
    rcases (mem_changers hBoth.left.isKeyed).1 hPair with
      ⟨hP, hQ, -⟩
    have hKey := hBoth.right.isKeyed p.id q hQ
    have hProjects := hBoth.project hP hQ
    dsimp only
    rw [hProjects.sum_changedKinds]
    · apply Solution.sum_comersTo hProjects.right
      rw [hKey]
      exact hP
    · intro kind hSame
      unfold Project.comersTo
      rw [hSame, comers_self]
      rfl

/- The documents of projects that change which are gone. -/
theorem documentsRemoved_migration :
    (sync.migration s t).documentsRemoved =
      s.documentPlaces.countP
        (fun place =>
          decide (place.project ∈
            (sync.migration s t).projectsUpdated) &&
              (t.documentAt? place).isNone) := by
  rw [projectsUpdated_migration, ← hBoth.sum_changers_left]
  unfold migration SyncReport.migrating
  rw [SyncReport.renewing_add (f := SyncReport.documentsRemoved)
    (g := fun p q => ((p.changedKinds q).map
      (fun kind => (p.planTo q kind).removed.length)).sum)
    (fun _ _ _ => rfl)]
  refine (Nat.zero_add _).trans ?_
  congr 1
  apply List.map_congr_left
  rintro ⟨p, q⟩ hPair
  rcases (mem_changers hBoth.left.isKeyed).1 hPair with ⟨hP, hQ, -⟩
  have hProjects := hBoth.project hP hQ
  have hGone :
      ∀ kind, (p.planTo q kind).removed.length =
        (q.comersTo p kind).length :=
    fun _ => Project.length_removed_planTo hProjects.left
  simp only [hGone]
  rw [hProjects.sum_changedKinds]
  · exact Solution.sum_comersTo hProjects.left hQ
  · intro kind hSame
    unfold Project.comersTo
    rw [hSame, comers_self]
    rfl

/- The documents of projects that change which differ. -/
theorem documentsUpdated_migration :
    (sync.migration s t).documentsUpdated =
      t.documentPlaces.countP
        (fun place =>
          decide (place.project ∈
            (sync.migration s t).projectsUpdated) &&
              s.revisedAt t place) := by
  rw [projectsUpdated_migration, ← hBoth.sum_changers_right]
  unfold migration SyncReport.migrating
  rw [SyncReport.renewing_add (f := SyncReport.documentsUpdated)
    (g := fun p q => ((p.changedKinds q).map
      (fun kind => (p.changersTo q kind).length)).sum)
    (fun _ _ _ => rfl)]
  refine (Nat.zero_add _).trans ?_
  congr 1
  apply List.map_congr_left
  rintro ⟨p, q⟩ hPair
  rcases (mem_changers hBoth.left.isKeyed).1 hPair with ⟨hP, hQ, -⟩
  have hKey := hBoth.right.isKeyed p.id q hQ
  have hProjects := hBoth.project hP hQ
  dsimp only
  rw [hProjects.sum_changedKinds]
  · rw [← hKey] at hP hQ
    exact Solution.sum_changersTo hProjects.left
      hProjects.right hP hQ
  · intro kind hSame
    unfold Project.changersTo
    rw [hSame, changers_self]
    rfl

end Synchronizer

------------------------------------------------------------
-- Exact reports
------------------------------------------------------------

/-
  What a report says that is exact: the projects that went,
  that were left out, that came and that changed, each listed
  once and by ascending identity; and the documents that came
  or changed, counted by place over the projects that came or
  changed.
-/
structure SyncReport.IsExact
    (r : SyncReport)
    (settings : SyncSettings)
    (s t : Solution) : Prop where
  baseline : r.baseline = s.checksum
  target : r.target = t.checksum
  projectsRemoved :
    ListsAscending id r.projectsRemoved
      (fun id => id ∈ s.projects ∧ id ∉ t.projects)
  skippedProjects :
    ListsAscending SkippedProject.id r.skippedProjects
      (fun x => ∃ q, t.projects[x.id]? = some q ∧
        x.id ∉ s.projects ∧
          settings.supports q.attributes.language = false ∧
            x.name = q.attributes.name ∧
              x.language = q.attributes.language)
  projectsAdded :
    ListsAscending id r.projectsAdded
      (fun id => ∃ q, t.projects[id]? = some q ∧
        id ∉ s.projects ∧
          settings.supports q.attributes.language = true)
  projectsUpdated :
    ListsAscending id r.projectsUpdated
      (fun id => ∃ p q, s.projects[id]? = some p ∧
        t.projects[id]? = some q ∧ p ≠ q)
  documentsAdded :
    r.documentsAdded =
      t.documentPlaces.countP
          (fun place =>
            decide (place.project ∈ r.projectsAdded)) +
        t.documentPlaces.countP
          (fun place =>
            decide (place.project ∈ r.projectsUpdated) &&
              (s.documentAt? place).isNone)
  documentsUpdated :
    r.documentsUpdated =
      t.documentPlaces.countP
        (fun place =>
          decide (place.project ∈ r.projectsUpdated) &&
            s.revisedAt t place)
  upToDate : r.upToDate = false
  usedFallback : r.usedFallback = false
  validated :
    r.validated = true ↔
      settings.validate.isEnabled = true ∧
        r.skippedProjects = []

/- How much was fetched is not part of what is exact. -/
theorem SyncReport.IsExact.fetched
    {r : SyncReport}
    {settings : SyncSettings}
    {s t : Solution}
    (hExact : r.IsExact settings s t)
    (f : FetchCounts) :
    { r with fetch := f }.IsExact settings s t :=
  { hExact with }

namespace Synchronizer

variable
  {sync : Synchronizer}
  {s t : Solution}
  {assets : Set Asset}

/- The projects that are left out, by ascending identity. -/
theorem listsAscending_skipped
    (hT : IsKeyed Project.id t.projects) :
    ListsAscending SkippedProject.id
      ((sync.leftOut s t).map Project.skipped)
      (fun x => ∃ q, t.projects[x.id]? = some q ∧
        x.id ∉ s.projects ∧
          sync.settings.supports q.attributes.language = false ∧
            x.name = q.attributes.name ∧
              x.language = q.attributes.language) := by
  have hLeft := (listsAscending_comers (p := s.projects) hT).filter
    (fun q => !sync.supports q)
  have hSkipped :
      ListsAscending SkippedProject.id
        ((sync.leftOut s t).map Project.skipped)
        (fun x => ∃ q, ((t.projects[q.id]? = some q ∧
          q.id ∉ s.projects) ∧ (!sync.supports q) = true) ∧
            q.skipped = x) := by
    rw [leftOut_eq hT]
    exact hLeft.map (fun _ _ => rfl)
  refine hSkipped.congr (fun x => ?_)
  rcases x with ⟨id, name, language⟩
  constructor
  · rintro ⟨q, ⟨⟨hThere, hNew⟩, hNot⟩, hSame⟩
    cases hSame
    rw [Bool.not_eq_true'] at hNot
    exact ⟨q, hThere, hNew, hNot, rfl, rfl⟩
  · rintro ⟨q, hThere, hNew, hNot, rfl, rfl⟩
    have hKey := hT id q hThere
    subst hKey
    refine ⟨q, ⟨⟨hThere, hNew⟩, ?_⟩, rfl⟩
    rw [Bool.not_eq_true']
    exact hNot

/- The projects that come and are taken in. -/
theorem listsAscending_added
    (hT : IsKeyed Project.id t.projects) :
    ListsAscending id
      (((comers s.projects t.projects).filter
        sync.supports).map Project.id)
      (fun id => ∃ q, t.projects[id]? = some q ∧
        id ∉ s.projects ∧
          sync.settings.supports q.attributes.language =
            true) := by
  have hComers :=
    (listsAscending_comers (p := s.projects) hT).filter
      sync.supports
  have hIds :
      ListsAscending id
        (((comers s.projects t.projects).filter
          sync.supports).map Project.id)
        (fun id => ∃ q, ((t.projects[q.id]? = some q ∧
          q.id ∉ s.projects) ∧ sync.supports q = true) ∧
            q.id = id) :=
    hComers.map (fun _ _ => rfl)
  refine hIds.congr (fun id => ?_)
  constructor
  · rintro ⟨q, ⟨⟨hThere, hNew⟩, hSupported⟩, rfl⟩
    exact ⟨q, hThere, hNew, hSupported⟩
  · rintro ⟨q, hThere, hNew, hSupported⟩
    have hKey := hT id q hThere
    subst hKey
    exact ⟨q, ⟨⟨hThere, hNew⟩, hSupported⟩, rfl⟩

/- The projects that are there before and after, and differ. -/
theorem listsAscending_updated
    (hS : IsKeyed Project.id s.projects)
    (hT : IsKeyed Project.id t.projects) :
    ListsAscending id
      ((changers s.projects t.projects).map
        (fun pair => pair.1.id))
      (fun id => ∃ p q, s.projects[id]? = some p ∧
        t.projects[id]? = some q ∧ p ≠ q) := by
  rw [← map_key_changers hS hT]
  exact listsAscending_keys_changers hS hT

/- What is reported in the end is exact. -/
theorem isExact_reported
    (hBoth : s.Comparable t assets)
    (hDiffer : s.checksum ≠ t.checksum) :
    (sync.reported s t).IsExact sync.settings s t := by
  have hS := hBoth.left.isKeyed
  have hT := hBoth.right.isKeyed
  have hSkipped :
      (sync.migration s t).skippedProjects =
        (sync.leftOut s t).map Project.skipped :=
    skippedProjects_migration hT
  unfold reported
  rw [if_neg hDiffer]
  constructor
  case baseline =>
    dsimp only
    unfold migration
    rw [SyncReport.baseline_migrating]
  case target =>
    dsimp only
    unfold migration
    rw [SyncReport.target_migrating]
  case projectsRemoved =>
    dsimp only
    rw [projectsRemoved_migration]
    exact listsAscending_leavers
  case skippedProjects =>
    dsimp only
    rw [hSkipped]
    exact listsAscending_skipped hT
  case projectsAdded =>
    dsimp only
    rw [projectsAdded_migration]
    exact listsAscending_added hT
  case projectsUpdated =>
    dsimp only
    rw [projectsUpdated_migration]
    exact listsAscending_updated hS hT
  case documentsAdded => exact documentsAdded_migration hBoth
  case documentsUpdated =>
    exact documentsUpdated_migration hBoth
  case upToDate =>
    dsimp only
    unfold migration
    rw [SyncReport.upToDate_migrating]
  case usedFallback =>
    dsimp only
    unfold migration
    rw [SyncReport.usedFallback_migrating]
  case validated =>
    dsimp only [SyncReport.isPartial]
    rw [Bool.and_eq_true, Bool.not_not, List.isEmpty_iff]

/-
  Between different versions of one solution that keep what
  has to stay, a synchronization succeeds, and whenever one
  succeeds, what it reports is exact, whatever the settings.
-/
theorem synchronizeWithReport_exact
    {session : Session}
    (hS : s.Reachable)
    (hT : t.Reachable)
    (hAtHand : sync.AtHand s t session)
    (hDiffer : s.checksum ≠ t.checksum) :
    (s.id = t.id →
      s.attributes.filePath = t.attributes.filePath →
        s.KeepsFields t →
          ∃ (o : SyncOutcome) (after : Session),
            (sync.synchronizeWithReport s
              t.checksum).start session = (.ok o, after)) ∧
    ∀ (o : SyncOutcome) (after : Session),
      (sync.synchronizeWithReport s t.checksum).start session =
          (.ok o, after) →
        o.report.IsExact sync.settings s t := by
  constructor
  · intro hId hPath hKeeps
    have hLineage : s.sameLineage t.attributes = true :=
      Solution.sameLineage_eq_true_iff.2 ⟨hId, hPath⟩
    rcases hAtHand.exists_run hS hT hLineage hKeeps with
      ⟨f, after, hRun⟩
    exact ⟨_, after, hRun⟩
  · intro o after hRun
    have hHolds :=
      (hAtHand.spec_synchronizeWithReport hS hT).holds session rfl
    rw [hRun] at hHolds
    rcases hHolds with ⟨-, f, rfl⟩
    have hExact :
        (sync.reported s t).IsExact sync.settings s t :=
      isExact_reported (hAtHand.comparable hS hT) hDiffer
    exact hExact.fetched f

theorem small_exact_edited :
    ∃ (o : SyncOutcome) (after : Session),
      (toEdited.synchronizeWithReport Solution.small
          Solution.edited.checksum).start {} = (.ok o, after) ∧
        o.report.IsExact toEdited.settings Solution.small
            Solution.edited ∧
          o.report.documentsUpdated = 1 := by
  rcases synchronizeWithReport_exact Solution.reachable_small
      Solution.reachable_edited atHand_edited
      (by decide +kernel) with ⟨hExists, hExact⟩
  rcases hExists (by decide +kernel) (by decide +kernel)
      keepsFields_edited with ⟨o, after, hRun⟩
  have hReport := hExact o after hRun
  have hUpdated :
      (default : ProjectId) ∈ o.report.projectsUpdated :=
    (hReport.projectsUpdated.mem_iff default).2
      ⟨(Solution.small.projects[(default : ProjectId)]?).get
          (by decide +kernel),
        (Solution.edited.projects[(default : ProjectId)]?).get
          (by decide +kernel),
        (Option.some_get _).symm, (Option.some_get _).symm,
        by decide +kernel⟩
  have hProject :
      ∀ place ∈ Solution.edited.documentPlaces,
        place.project = default := by
    decide +kernel
  refine ⟨o, after, hRun, hReport, ?_⟩
  rw [hReport.documentsUpdated,
    List.countP_congr (q := fun place =>
      Solution.small.revisedAt .edited place) ?_]
  · decide +kernel
  · intro place hPlace
    rw [hProject place hPlace, decide_eq_true hUpdated,
      Bool.true_and]

end Synchronizer

end SnapTree
