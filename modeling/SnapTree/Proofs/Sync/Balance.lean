import SnapTree.Proofs.Sync.Report

/-
  This file proves how the counts of documents in a report
  balance.  The documents of a project that comes are counted
  as documents that came, but those of a project that goes are
  not counted as documents that went: the report only names
  the project.  With them, the counts balance; without them,
  they balance only if no project with documents went.

  Key theorems include:
    * `Solution.documentCount_balance`
    * `Synchronizer.countP_missing_right`
    * `Synchronizer.countP_missing_left`
    * `Synchronizer.synchronizeWithReport_balance`
-/

namespace SnapTree

------------------------------------------------------------
-- Counting places
------------------------------------------------------------

/- What holds for one of two reasons, and never for both. -/
theorem countP_eq_add
    {α : Type}
    {xs : List α}
    {a b c : α → Bool}
    (hEither : ∀ x ∈ xs, a x = (b x || c x))
    (hApart : ∀ x ∈ xs, b x = true → c x = false) :
    xs.countP a = xs.countP b + xs.countP c := by
  induction xs with
  | nil => rfl
  | cons x xs ih =>
      have hRest :=
        ih (fun y hY => hEither y (List.mem_cons_of_mem x hY))
          (fun y hY => hApart y (List.mem_cons_of_mem x hY))
      have hX := hEither x List.mem_cons_self
      have hNot := hApart x List.mem_cons_self
      rw [List.countP_cons, List.countP_cons, List.countP_cons,
        hRest, hX]
      cases hB : b x with
      | false => simp; omega
      | true => simp [hNot hB]; omega

namespace Solution

variable {s t : Solution}

/- Places of both sides count the same on either side. -/
theorem countP_common
    (hS : s.WellFormed)
    (hT : t.WellFormed) :
    t.documentPlaces.countP
        (fun place => !(s.documentAt? place).isNone) =
      s.documentPlaces.countP
        (fun place => !(t.documentAt? place).isNone) := by
  rw [List.countP_eq_length_filter, List.countP_eq_length_filter]
  apply List.Perm.length_eq
  rw [List.perm_ext_iff_of_nodup
    (hT.nodup_documentPlaces.filter _)
    (hS.nodup_documentPlaces.filter _)]
  intro place
  have hListed :
      ∀ u : Solution, u.WellFormed →
        (place ∈ u.documentPlaces ↔
          (!(u.documentAt? place).isNone) = true) := by
    intro u hU
    rw [hU.mem_documentPlaces, Option.not_isNone,
      Option.isSome_iff_exists]
  rw [List.mem_filter, List.mem_filter, hListed t hT,
    hListed s hS]
  exact and_comm

/-
  What one side has and what the other lacks of it make up for
  each other.
-/
theorem documentCount_balance
    (hS : s.WellFormed)
    (hT : t.WellFormed) :
    t.documentCount +
        s.documentPlaces.countP
          (fun place => (t.documentAt? place).isNone) =
      s.documentCount +
        t.documentPlaces.countP
          (fun place => (s.documentAt? place).isNone) := by
  have hSplit :
      ∀ u v : Solution,
        u.documentCount =
          u.documentPlaces.countP
              (fun place => (v.documentAt? place).isNone) +
            u.documentPlaces.countP
              (fun place => !(v.documentAt? place).isNone) := by
    intro u v
    rw [← u.length_documentPlaces, ← countP_eq_add
      (a := fun _ => true), List.countP_true]
    · intro place _
      exact (Bool.or_not_self _).symm
    · intro place _ hNone
      rw [hNone]
      rfl
  rw [hSplit t s, hSplit s t, countP_common hS hT]
  omega

end Solution

namespace Solution

variable {s t : Solution} {place : DocumentPlace}

/- Nothing is at a place whose project is missing. -/
theorem isNone_documentAt?
    (hMissing : place.project ∉ s.projects) :
    (s.documentAt? place).isNone = true := by
  rw [Std.ExtTreeMap.mem_iff_isSome_getElem?,
    Option.not_isSome_iff_eq_none] at hMissing
  unfold documentAt? project?
  rw [hMissing]
  rfl

/- Projects that differ in a document are not the same. -/
theorem ne_of_isNone_documentAt?
    {p q : Project}
    {e : Document}
    (hP : s.projects[place.project]? = some p)
    (hQ : (q.documents.get place.kind)[place.document]? = some e)
    (hNone : (s.documentAt? place).isNone = true) :
    p ≠ q := by
  rintro rfl
  rw [documentAt?_eq_some_iff.2 ⟨p, hP, hQ⟩] at hNone
  cases hNone

/-
  The places of one side that the other lacks are in projects
  that the other lacks, or in projects that differ.
-/
theorem countP_missing
    (hT : t.WellFormed)
    {new changed : List ProjectId}
    (hNew :
      ∀ id, id ∈ new ↔ id ∈ t.projects ∧ id ∉ s.projects)
    (hChanged :
      ∀ id, id ∈ changed ↔
        ∃ p q, s.projects[id]? = some p ∧
          t.projects[id]? = some q ∧ p ≠ q) :
    t.documentPlaces.countP
        (fun place => (s.documentAt? place).isNone) =
      t.documentPlaces.countP
          (fun place => decide (place.project ∈ new)) +
        t.documentPlaces.countP
          (fun place =>
            decide (place.project ∈ changed) &&
              (s.documentAt? place).isNone) := by
  apply countP_eq_add
  · intro place hPlace
    rcases hT.mem_documentPlaces.1 hPlace with ⟨e, hE⟩
    rcases documentAt?_eq_some_iff.1 hE with ⟨q, hQ, hStands⟩
    by_cases hHere : place.project ∈ s.projects
    · have hOld : place.project ∉ new := by
        rw [hNew]
        exact fun hBoth => hBoth.2 hHere
      rw [decide_eq_false hOld, Bool.false_or]
      cases hNone : (s.documentAt? place).isNone with
      | false => rw [Bool.and_false]
      | true =>
          rcases mem_iff_exists_getElem?.1 hHere with ⟨p, hP⟩
          have hDiffers := (hChanged place.project).2
            ⟨p, q, hP, hQ,
              ne_of_isNone_documentAt? hP hStands hNone⟩
          rw [decide_eq_true hDiffers, Bool.true_and]
    · have hThere : place.project ∈ t.projects :=
        mem_of_getElem? hQ
      rw [isNone_documentAt? hHere,
        decide_eq_true ((hNew place.project).2 ⟨hThere, hHere⟩),
        Bool.true_or]
  · intro place _ hComes
    rcases (hNew place.project).1 (of_decide_eq_true hComes)
      with ⟨-, hMissing⟩
    rw [Bool.and_eq_false_iff, decide_eq_false_iff_not, hChanged]
    left
    rintro ⟨p, -, hP, -⟩
    exact hMissing (mem_of_getElem? hP)

end Solution

namespace Synchronizer

section

variable
  {sync : Synchronizer}
  {s t : Solution}
  {assets : Set Asset}
  (hBoth : s.Comparable t assets)

include hBoth

/-
  The places that the baseline lacks are those that are counted
  as having come, unless a project was left out.
-/
theorem countP_missing_right
    (hWhole : sync.leftOut s t = []) :
    t.documentPlaces.countP
        (fun place => (s.documentAt? place).isNone) =
      (sync.migration s t).documentsAdded := by
  have hT := hBoth.right.isKeyed
  rw [documentsAdded_migration hBoth, projectsAdded_migration,
    projectsUpdated_migration]
  refine Solution.countP_missing hBoth.right (fun id => ?_)
    (listsAscending_updated hBoth.left.isKeyed hT).mem_iff
  rw [(listsAscending_added hT).mem_iff]
  constructor
  · rintro ⟨q, hQ, hNew, -⟩
    exact ⟨mem_of_getElem? hQ, hNew⟩
  · rintro ⟨hThere, hNew⟩
    rcases mem_iff_exists_getElem?.1 hThere with ⟨q, hQ⟩
    have hKey := hT id q hQ
    subst hKey
    -- Nothing is left out, so a project that is new came.
    rw [leftOut_eq hT, List.filter_eq_nil_iff] at hWhole
    have hSupported : sync.supports q = true := by
      simpa using hWhole q ((mem_comers hT).2 ⟨hQ, hNew⟩)
    exact ⟨q, hQ, hNew, hSupported⟩

/-
  The places that the target lacks are those that are counted
  as having gone, and those of the projects that went.
-/
theorem countP_missing_left :
    s.documentPlaces.countP
        (fun place => (t.documentAt? place).isNone) =
      s.documentPlaces.countP
          (fun place =>
            decide (place.project ∈
              (sync.migration s t).projectsRemoved)) +
        (sync.migration s t).documentsRemoved := by
  have hUpdated := (listsAscending_updated hBoth.left.isKeyed
    hBoth.right.isKeyed).mem_iff
  rw [documentsRemoved_migration hBoth,
    projectsRemoved_migration, projectsUpdated_migration]
  refine Solution.countP_missing hBoth.left
    (fun _ => mem_leavers) (fun id => ?_)
  rw [hUpdated]
  constructor
  · rintro ⟨p, q, hP, hQ, hNe⟩
    exact ⟨q, p, hQ, hP, hNe.symm⟩
  · rintro ⟨q, p, hQ, hP, hNe⟩
    exact ⟨p, q, hP, hQ, hNe.symm⟩

/-
  With the documents of the projects that went, what is
  reported balances, unless a project was left out.
-/
theorem reported_balance
    (hWhole : sync.leftOut s t = []) :
    t.documentCount + (sync.reported s t).documentsRemoved +
        s.documentPlaces.countP
          (fun place =>
            decide (place.project ∈
              (sync.reported s t).projectsRemoved)) =
      s.documentCount + (sync.reported s t).documentsAdded := by
  unfold reported
  split
  next hSame =>
      rw [hBoth.eq_of_checksum hSame]
      simp
  next =>
      have hCounts :=
        Solution.documentCount_balance hBoth.left hBoth.right
      have hGone := sync.countP_missing_left hBoth
      rw [countP_missing_right hBoth hWhole, hGone] at hCounts
      dsimp only
      omega

end

------------------------------------------------------------
-- What comes of a synchronization
------------------------------------------------------------

/-
  When no project was left out, the documents of the result
  and those reported as removed, together with those of the
  projects that went, are as many as the documents of the
  baseline and those reported as added.  So the report alone
  balances exactly if no project that went had a document.
-/
theorem synchronizeWithReport_balance
    {sync : Synchronizer}
    {s t : Solution}
    {session after : Session}
    {o : SyncOutcome}
    (hS : s.Reachable)
    (hT : t.Reachable)
    (hAtHand : sync.AtHand s t session)
    (hRun :
      (sync.synchronizeWithReport s t.checksum).start session =
        (.ok o, after))
    (hWhole : o.report.skippedProjects = []) :
    o.solution.documentCount + o.report.documentsRemoved +
          s.documentPlaces.countP
            (fun place =>
              decide (place.project ∈ o.report.projectsRemoved)) =
        s.documentCount + o.report.documentsAdded ∧
      (o.solution.documentCount + o.report.documentsRemoved =
          s.documentCount + o.report.documentsAdded ↔
        ∀ place ∈ s.documentPlaces,
          place.project ∉ o.report.projectsRemoved) := by
  have hBoth := hAtHand.comparable hS hT
  have hHolds :=
    (hAtHand.spec_synchronizeWithReport hS hT).holds session rfl
  rw [hRun] at hHolds
  rcases hHolds with ⟨-, f, rfl⟩
  have hNone : sync.leftOut s t = [] := by
    dsimp only at hWhole
    rwa [hAtHand.skippedProjects_reported hS hT,
      List.map_eq_nil_iff] at hWhole
  have hBalance := reported_balance hBoth hNone
  have hCount :
      (sync.attained s t).documentCount = t.documentCount :=
    congrArg Solution.documentCount
      (attained_eq hT.wellFormed hNone)
  rw [← hCount] at hBalance
  refine ⟨hBalance, ?_⟩
  have hGone :
      s.documentPlaces.countP
          (fun place =>
            decide (place.project ∈
              (sync.reported s t).projectsRemoved)) = 0 ↔
        ∀ place ∈ s.documentPlaces,
          place.project ∉
            (sync.reported s t).projectsRemoved := by
    rw [List.countP_eq_zero]
    simp only [decide_eq_true_iff]
  rw [← hGone]
  dsimp only
  omega

/- A link to a source that holds the bare solution. -/
def toBare : Synchronizer where
  link := { source := .ofEntries Solution.bare.publication }
  settings := { supportedLanguages := ["C#"] }

theorem atHand_bare :
    toBare.AtHand Solution.small Solution.bare {} := by
  apply AtHand.of_empty rfl (Source.holds_ofEntries _)
  exact Solution.faithful_small.mono (fun _ hA => hA.symm)

theorem keepsFields_bare :
    Solution.small.KeepsFields Solution.bare := by
  constructor
  · intro id p q _ hQ
    rw [show Solution.bare.projects = ∅ from rfl,
      Std.ExtTreeMap.getElem?_empty] at hQ
    cases hQ
  · intro id p q kind document d e _ hQ
    rw [show Solution.bare.projects = ∅ from rfl,
      Std.ExtTreeMap.getElem?_empty] at hQ
    cases hQ

/- The bare solution is reached, and nothing is left out. -/
theorem exists_run_bare :
    ∃ (o : SyncOutcome) (after : Session),
      (toBare.synchronizeWithReport Solution.small
          Solution.bare.checksum).start {} = (.ok o, after) ∧
        o.report.skippedProjects = [] ∧
          o.report.usedFallback = false ∧
            o.solution.documentCount = 0 ∧
              o.report.documentsRemoved = 0 ∧
                o.report.documentsAdded = 0 := by
  have hLineage :
      Solution.small.sameLineage Solution.bare.attributes =
        true := by
    decide +kernel
  rcases atHand_bare.exists_run Solution.reachable_small
      Solution.reachable_bare hLineage keepsFields_bare with
    ⟨f, after, hRun⟩
  refine ⟨_, after, hRun, ?_⟩
  dsimp only
  decide +kernel

/- The documents of the project that goes make up for it. -/
theorem small_balance_bare :
    ∃ (o : SyncOutcome) (after : Session),
      (toBare.synchronizeWithReport Solution.small
          Solution.bare.checksum).start {} = (.ok o, after) ∧
        o.solution.documentCount + o.report.documentsRemoved +
            Solution.small.documentPlaces.countP
              (fun place => decide
                (place.project ∈ o.report.projectsRemoved)) =
          Solution.small.documentCount +
            o.report.documentsAdded := by
  rcases exists_run_bare with ⟨o, after, hRun, hWhole, -⟩
  exact ⟨o, after, hRun, (synchronizeWithReport_balance
    Solution.reachable_small Solution.reachable_bare atHand_bare
    hRun hWhole).1⟩

/-
  A project with one document goes, and the report counts no
  document as removed, so that it does not balance.
-/
theorem small_unbalanced_bare :
    Solution.small.Reachable ∧ Solution.bare.Reachable ∧
      toBare.AtHand Solution.small Solution.bare {} ∧
        ∃ (o : SyncOutcome) (after : Session),
          (toBare.synchronizeWithReport Solution.small
              Solution.bare.checksum).start {} =
                (.ok o, after) ∧
            o.report.skippedProjects = [] ∧
              o.report.usedFallback = false ∧
                o.solution.documentCount +
                    o.report.documentsRemoved ≠
                  Solution.small.documentCount +
                    o.report.documentsAdded := by
  have hSmall : Solution.small.documentCount = 1 := by
    decide +kernel
  rcases exists_run_bare with
    ⟨o, after, hRun, hWhole, hFallback, hCount, hRemoved,
      hAdded⟩
  refine ⟨Solution.reachable_small, Solution.reachable_bare,
    atHand_bare, o, after, hRun, hWhole, hFallback, ?_⟩
  omega

end Synchronizer

end SnapTree
