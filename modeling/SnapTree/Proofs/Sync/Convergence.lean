import SnapTree.Proofs.Exchange.Serving
import SnapTree.Proofs.Sync.Synchronize
import SnapTree.Proofs.Workspace.Identification
import SnapTree.Proofs.Workspace.Publication

/-
  This file proves what comes of a synchronization of two
  snapshots, when the source holds what was published of the
  target: the target is reached wherever it can be, and the
  reasons why it may not be reached are told apart.

  Key definitions include:
    * `Solution.KeepsFields`
    * `Source.Holds`
    * `Synchronizer.AtHand`

  Key theorems include:
    * `Synchronizer.AtHand.spec_synchronizeWithReport`
    * `Synchronizer.AtHand.spec_newProjects_ne`
    * `Synchronizer.AtHand.spec_planDocuments_ne`
    * `Synchronizer.AtHand.spec_isIncrementalUpdate`
    * `Synchronizer.synchronizeWithReport_converges`
    * `Synchronizer.synchronize_classified`
-/

namespace SnapTree

------------------------------------------------------------
-- Fields that stay
------------------------------------------------------------

/-
  Projects of both sides agree in language and in being a
  submission, and documents of both sides of one kind agree in
  name, file path, and in how they are made.
-/
structure Solution.KeepsFields
    (s t : Solution) : Prop where
  project :
    ∀ (id : ProjectId) (p q : Project),
      s.projects[id]? = some p → t.projects[id]? = some q →
        p.attributes.language = q.attributes.language ∧
          p.attributes.isSubmission = q.attributes.isSubmission
  document :
    ∀ (id : ProjectId) (p q : Project) (kind : DocumentKind)
      (document : DocumentId) (d e : Document),
      s.projects[id]? = some p → t.projects[id]? = some q →
        (p.documents.get kind)[document]? = some d →
          (q.documents.get kind)[document]? = some e →
            d.attributes.name = e.attributes.name ∧
              d.attributes.filePath = e.attributes.filePath ∧
                d.attributes.isGenerated =
                  e.attributes.isGenerated ∧
                  d.attributes.designTimeOnly =
                    e.attributes.designTimeOnly

/- Whether they do can be found out entry by entry. -/
theorem Solution.keepsFields_iff
    {s t : Solution} :
    s.KeepsFields t ↔
      ∀ entry ∈ s.projects.toList, ∀ q ∈ t.projects[entry.1]?,
        (entry.2.attributes.language = q.attributes.language ∧
          entry.2.attributes.isSubmission =
            q.attributes.isSubmission) ∧
        ∀ kind ∈ DocumentKind.all,
          ∀ document ∈ (entry.2.documents.get kind).toList,
            ∀ e ∈ (q.documents.get kind)[document.1]?,
              document.2.attributes.name = e.attributes.name ∧
                document.2.attributes.filePath =
                  e.attributes.filePath ∧
                  document.2.attributes.isGenerated =
                    e.attributes.isGenerated ∧
                    document.2.attributes.designTimeOnly =
                      e.attributes.designTimeOnly := by
  simp only [Prod.forall,
    Std.ExtTreeMap.mem_toList_iff_getElem?_eq_some,
    Option.mem_def]
  constructor
  · intro hKeeps id p hP q hQ
    refine ⟨hKeeps.project id p q hP hQ, ?_⟩
    intro kind _ document d hD e hE
    exact hKeeps.document id p q kind document d e hP hQ hD hE
  · intro hAll
    constructor
    · intro id p q hP hQ
      exact (hAll id p hP q hQ).1
    · intro id p q kind document d e hP hQ hD hE
      exact (hAll id p hP q hQ).2 kind kind.mem_all document d
        hD e hE

instance
    (s t : Solution) :
    Decidable (s.KeepsFields t) :=
  decidable_of_iff _ Solution.keepsFields_iff.symm

/- Names never change, so that these are all fields that stay. -/
theorem Solution.continues_iff_keepsFields
    {s t : Solution}
    (hS : s.WellFormed)
    (hT : t.WellFormed) :
    s.Continues t ↔ s.KeepsFields t := by
  constructor
  · intro hContinues
    constructor
    · intro id p q hP hQ
      have hSame := (hContinues id p q hP hQ).attributes
      exact
        (ProjectAttributes.changedIdentity?_eq_none_iff.1
          hSame).2
    · intro id p q kind document d e hP hQ hD hE
      have hSame :=
        (hContinues id p q hP hQ).documents kind document d e
          hD hE
      exact
        (DocumentAttributes.changedIdentity?_eq_none_iff.1
          hSame).2
  · intro hKeeps id p q hP hQ
    have hIds : p.attributes.id = q.attributes.id :=
      (hS.keyed id p hP).trans (hT.keyed id q hQ).symm
    constructor
    · exact ProjectAttributes.changedIdentity?_eq_none_iff.2
        ⟨hIds, hKeeps.project id p q hP hQ⟩
    · intro kind document d e hD hE
      have hWellP := hS.project id p hP
      have hWellQ := hT.project id q hQ
      have hNames : d.attributes.id = e.attributes.id :=
        (hWellP.isKeyed kind document d hD).trans
          (hWellQ.isKeyed kind document e hE).symm
      exact DocumentAttributes.changedIdentity?_eq_none_iff.2
        ⟨hNames, hKeeps.document id p q kind document d e hP hQ
          hD hE⟩

/- Two versions of a solution share identity and file path. -/
theorem Solution.sameLineage_eq_true_iff
    {s t : Solution} :
    s.sameLineage t.attributes = true ↔
      s.id = t.id ∧
        s.attributes.filePath = t.attributes.filePath := by
  unfold sameLineage
  rw [Bool.and_eq_true, beq_iff_eq, beq_iff_eq]
  rfl

/-
  Why a target may not be reached although it is at hand: it
  is another solution, or something changed that has to stay.
-/
def Solution.Refuses
    (s t : Solution)
    (e : SyncError) : Prop :=
  (¬s.sameLineage t.attributes = true ∧
    ∃ field, e = .notIncremental s.id t.checksum field) ∨
  (s.sameLineage t.attributes = true ∧ ¬s.KeepsFields t ∧
    ∃ v : Violation, e = .protocolViolation v ∧ v.cause? = none)

/- Versions of one solution that keep what has to stay. -/
theorem Solution.not_refuses
    {s t : Solution}
    (hLineage : s.sameLineage t.attributes = true)
    (hKeeps : s.KeepsFields t)
    (e : SyncError) :
    ¬s.Refuses t e := by
  rintro (⟨hNot, -⟩ | ⟨-, hNot, -⟩)
  · exact hNot hLineage
  · exact hNot hKeeps

/-
  Between reachable solutions, a synchronization attains what
  can be attained of the target, unless the two are no versions
  of each other, or the supply lacks something.
-/
theorem Supply.gives_bring_or_lacks
    {sync : Synchronizer}
    (S : Supply sync.link)
    {s t : Solution}
    {A : Set Asset}
    {K : Set Asset}
    (hS : s.Reachable)
    (hT : t.Reachable)
    (hBoth : s.Comparable t A)
    (hWanted : ∀ a, s.Needs t a → a ∈ S.wanted) :
    S.Gives K (sync.bring s t.checksum)
      (s.sameLineage t.attributes = true ∧ s.KeepsFields t)
      ⟨sync.attained s t, sync.reported s t⟩ K
      (fun e =>
        s.Refuses t e ∨
          ∃ cause, S.lack cause ∧ e = .ofAsset cause) := by
  have hFields : s.Continues t ↔ s.KeepsFields t :=
    Solution.continues_iff_keepsFields hS.wellFormed
      hT.wellFormed
  rw [← hFields]
  apply S.gives_bring ?_ hBoth hWanted
  · intro hLineage field
    exact Or.inl (Or.inl ⟨hLineage, field, rfl⟩)
  · intro hLineage hNot v hCause
    rw [hFields] at hNot
    exact Or.inl (Or.inr ⟨hLineage, hNot, v, rfl, hCause⟩)
  · exact fun cause hCause => Or.inr ⟨cause, hCause, rfl⟩

------------------------------------------------------------
-- Targets at hand
------------------------------------------------------------

/-
  Asked for keys of the given entries, a source answers with
  the entries under these keys.
-/
def Source.Holds
    (source : Source)
    (entries : List (Checksum × Asset)) : Prop :=
  source.Serves {c | ∃ a, (c, a) ∈ entries}
    {entry | entry ∈ entries}

/-
  A target is at hand for a baseline if nobody gives up, if
  the source holds what was published of the target, if what
  is cached was published of some solutions, and if checksums
  tell all these assets apart.
-/
structure Synchronizer.AtHand
    (sync : Synchronizer)
    (s t : Solution)
    (session : Session) : Prop where
  never : sync.link.cancellation = .never
  holds : sync.link.source.Holds t.publication
  cache :
    ∀ (c : Checksum) (a : Asset),
      session.cache[c]? = some a →
        ∃ u : Solution, u.Reachable ∧ (c, a) ∈ u.publication
  pool : session.pool.Reachable
  faithful :
    Faithful
      {a | a ∈ s.assets ∨ a ∈ t.assets ∨
        ∃ c : Checksum, session.cache[c]? = some a}

/- A source that answers with the entries of a list. -/
def Source.ofEntries
    (entries : List (Checksum × Asset)) : Source :=
  fun _ request =>
    .ok (entries.filter (fun entry => entry.1 ∈ request))

/- It can be asked for anything. -/
theorem Source.serves_ofEntries
    (entries : List (Checksum × Asset))
    (keys : Set Checksum) :
    (ofEntries entries).Serves keys
      {entry | entry ∈ entries} := by
  intro earlier request _
  refine ⟨_, rfl, ?_⟩
  intro entry
  rw [List.mem_filter, decide_eq_true_iff]
  rfl

theorem Source.holds_ofEntries
    (entries : List (Checksum × Asset)) :
    (ofEntries entries).Holds entries :=
  serves_ofEntries entries _

namespace Synchronizer

/- What is reported does not depend on what was fetched. -/
theorem spec_synchronizeWithReport
    {sync : Synchronizer}
    {s : Solution}
    {c : Checksum}
    {pre : Session → Prop}
    {post : SyncOutcome → Session → Prop}
    {fail : SyncError → Prop}
    (hBring : Run.Spec pre (sync.bring s c) post fail) :
    Run.Spec pre (sync.synchronizeWithReport s c)
      (fun o v =>
        ∃ (o' : SyncOutcome) (f : FetchCounts), post o' v ∧
          o = { o' with report := { o'.report with fetch := f } })
      fail := by
  constructor
  intro u hU
  have hResult := hBring.holds u hU
  unfold synchronizeWithReport
  rw [Run.start_bind, Run.start_get]
  dsimp only
  rw [Run.start_bind]
  revert hResult
  cases (sync.bring s c).start u with
  | mk result v =>
      cases result with
      | error e => exact id
      | ok o =>
          intro hO
          exact ⟨o, v.counts.since u.counts, hO, rfl⟩

/- The solution of a result is what it was brought to. -/
theorem spec_synchronize
    {sync : Synchronizer}
    {s : Solution}
    {c : Checksum}
    {pre : Session → Prop}
    {post : SyncOutcome → Session → Prop}
    {fail : SyncError → Prop}
    (hBring : Run.Spec pre (sync.bring s c) post fail) :
    Run.Spec pre (sync.synchronize s c)
      (fun x v => ∃ o, post o v ∧ x = o.solution) fail := by
  unfold synchronize
  apply (spec_synchronizeWithReport hBring).bind
  intro o
  apply Run.Spec.of_pure
  rintro v ⟨o', f, hPost, rfl⟩
  exact ⟨o', hPost, rfl⟩

namespace AtHand

variable
  {sync : Synchronizer}
  {s t : Solution}
  {session : Session}

/- At first, only the assets of both sides have to differ. -/
theorem of_empty
    (hNever : sync.link.cancellation = .never)
    (hHolds : sync.link.source.Holds t.publication)
    (hFaithful :
      Faithful {a | a ∈ s.assets ∨ a ∈ t.assets}) :
    sync.AtHand s t {} where
  never := hNever
  holds := hHolds
  cache c a hCached := by
    rw [Std.ExtTreeMap.getElem?_empty] at hCached
    cases hCached
  pool := .ofMaxRetained _
  faithful := by
    apply hFaithful.mono
    rintro a (hA | hA | ⟨c, hCached⟩)
    · exact Or.inl hA
    · exact Or.inr hA
    · rw [Std.ExtTreeMap.getElem?_empty] at hCached
      cases hCached

variable (hAtHand : sync.AtHand s t session)

include hAtHand

/- More of what was published of the target may be cached. -/
theorem keep
    (hT : t.Reachable)
    {c : Checksum}
    {a : Asset}
    (hEntry : (c, a) ∈ t.publication) :
    sync.AtHand s t (session.keep c a) where
  never := hAtHand.never
  holds := hAtHand.holds
  cache d b hCached := by
    rcases Session.eq_or_of_keep hCached with ⟨rfl, rfl⟩ | hOld
    · exact ⟨t, hT, hEntry⟩
    · exact hAtHand.cache d b hOld
  pool := hAtHand.pool
  faithful := by
    apply hAtHand.faithful.mono
    rintro b (hB | hB | ⟨d, hCached⟩)
    · exact Or.inl hB
    · exact Or.inr (Or.inl hB)
    · rcases Session.eq_or_of_keep hCached with ⟨rfl, rfl⟩ | hOld
      · exact Or.inr (Or.inl
          (Solution.mem_of_mem_publication hEntry).1)
      · exact Or.inr (Or.inr ⟨d, hOld⟩)

/- The two solutions can be compared. -/
theorem comparable
    (hS : s.Reachable)
    (hT : t.Reachable) :
    s.Comparable t
      {a | a ∈ s.assets ∨ a ∈ t.assets ∨
        ∃ c : Checksum, session.cache[c]? = some a} where
  faithful := hAtHand.faithful
  left := hS.wellFormed
  right := hT.wellFormed
  left_mem _ hA := Or.inl hA
  right_mem _ hA := Or.inr (Or.inl hA)

/- The session knows nothing but published assets. -/
theorem knows :
    session.Knows
      {a | a ∈ s.assets ∨ a ∈ t.assets ∨
        ∃ c : Checksum, session.cache[c]? = some a} ∅ where
  entry := by
    intro c a hCached
    rcases hAtHand.cache c a hCached with ⟨u, -, hMem⟩
    rcases Solution.mem_of_mem_publication hMem with
      ⟨hAsset, hChecksum⟩
    exact ⟨hChecksum, Or.inr (Or.inr ⟨c, hCached⟩),
      u.isSealed_of_mem_assets a hAsset⟩
  known := by
    intro a hA
    cases hA
  clean := hAtHand.pool.isClean

/- All assets of the target can be had. -/
def serving
    (hAtHand : sync.AtHand s t session) : Serving sync.link where
  assets :=
    {a | a ∈ s.assets ∨ a ∈ t.assets ∨
      ∃ c : Checksum, session.cache[c]? = some a}
  wanted := {a | a ∈ t.assets}
  held := {a | a ∈ t.assets}
  faithful := hAtHand.faithful
  wanted_mem a hA :=
    ⟨Or.inr (Or.inl hA), t.isSealed_of_mem_assets a hA⟩
  held_mem a hA :=
    ⟨Or.inr (Or.inl hA), t.isSealed_of_mem_assets a hA⟩
  never := hAtHand.never
  serves := by
    have hEntry :
        ∀ (c : Checksum) (a : Asset),
          (c, a) ∈ t.publication ↔
            a ∈ t.assets ∧ a.checksum = c :=
      fun _ _ => Solution.mem_publication_iff hAtHand.faithful
        (fun _ hA => Or.inr (Or.inl hA))
    intro earlier request hRequest
    rcases hAtHand.holds earlier request (by
        intro c hC
        rcases hRequest c hC with ⟨a, hA, hChecksum⟩
        exact ⟨a, (hEntry c a).2 ⟨hA, hChecksum⟩⟩)
      with ⟨found, hSource, hFound⟩
    refine ⟨found, hSource, ?_⟩
    rintro ⟨c, a⟩
    rw [hFound]
    exact and_congr_left (fun _ => hEntry c a)

/-
  A synchronization attains what can be attained of the target,
  unless the two solutions are no versions of each other.
-/
theorem spec_synchronizeWithReport
    (hS : s.Reachable)
    (hT : t.Reachable) :
    Run.Spec (fun u => u = session)
      (sync.synchronizeWithReport s t.checksum)
      (fun o _ =>
        (s.sameLineage t.attributes = true ∧ s.KeepsFields t) ∧
          ∃ f : FetchCounts,
            o = ⟨sync.attained s t,
              { sync.reported s t with fetch := f }⟩)
      (s.Refuses t) := by
  have hBring :=
    hAtHand.serving.supply.gives_bring_or_lacks (K := ∅) hS hT
      (hAtHand.comparable hS hT) (fun _ hA => hA.mem_assets)
  apply (Synchronizer.spec_synchronizeWithReport hBring).conseq
  · rintro u rfl
    exact hAtHand.knows
  · rintro o v ⟨o', f, ⟨⟨hMay, rfl⟩, -⟩, rfl⟩
    exact ⟨hMay, f, rfl⟩
  · -- Nothing that is wanted is missing.
    rintro e (hRefuses | ⟨cause, ⟨a, hWanted, hNotHeld, -⟩, -⟩)
    · exact hRefuses
    · exact absurd hWanted hNotHeld

/-
  Updating a project takes for granted that its checksum on
  both sides is not the same: of the projects of the baseline
  whose checksums are gone and the nodes that were fetched for
  the checksums that are new, no two with one identity agree.
-/
theorem spec_newProjects_ne
    (hS : s.Reachable)
    (hT : t.Reachable)
    (K : Set Asset) :
    let difference :=
      CollectionDiff.between s.node.projects.members
        t.node.projects.members
    let before :=
      s.projects.filter
        (fun _ p => difference.removedOnly.contains p.checksum)
    Run.Spec (hAtHand.serving.supply.knows K)
      (sync.newProjects difference.addedOnly.toList)
      (fun after _ =>
        ∀ (id : ProjectId) (p : Project) (n : ProjectNode),
          before[id]? = some p → after[id]? = some n →
            p.checksum ≠ n.checksum)
      (fun _ => True) := by
  have hBoth := hAtHand.comparable hS hT
  intro difference before
  have hDifference :
      difference =
        differenceOf Project.checksum s.projects t.projects := by
    change CollectionDiff.between _ _ = _
    rw [s.projects_node, t.projects_node, Collection.members_of,
      Collection.members_of]
    rfl
  have hBefore : before = departing s.projects t.projects := by
    change s.projects.filter _ = _
    rw [hDifference]
    exact filter_removedOnly_eq hBoth.toldApart
      hBoth.left.isKeyed hBoth.right.isKeyed
  have hNodes :
      hAtHand.serving.supply.Gives K
        (sync.newProjects
          (differenceOf Project.checksum s.projects
            t.projects).addedOnly.toList)
        True
        ((departing t.projects s.projects).map
          (fun _ q => q.node))
        K (fun _ => True) :=
    (hAtHand.serving.supply.gives_arrivals (fun _ _ => trivial)
      hBoth (fun _ hA => hA.mem_assets)).keep
        Set.subset_union_left
  rw [hBefore, hDifference]
  apply Run.Spec.conseq hNodes (fun _ h => h) ?_ (fun _ h => h)
  rintro after v ⟨⟨-, rfl⟩, -⟩ id p n hP hN
  rw [Std.ExtTreeMap.getElem?_map,
    Option.map_eq_some_iff] at hN
  rcases hN with ⟨q, hQ, rfl⟩
  exact hBoth.toldApart.check_ne hP hQ

/- So does updating a document, of those that are planned for. -/
theorem spec_planDocuments_ne
    (hS : s.Reachable)
    (hT : t.Reachable)
    {id : ProjectId}
    {p q r : Project}
    (hP : s.projects[id]? = some p)
    (hQ : t.projects[id]? = some q)
    {x : Solution}
    (hStands : x.projects[id]? = some r)
    (hDocuments : r.documents = p.documents)
    (K : Set Asset)
    (kind : DocumentKind) :
    Run.Spec (hAtHand.serving.supply.knows K)
      (sync.planDocuments x id kind (p.node.documents.get kind)
        (q.node.documents.get kind))
      (fun plan _ =>
        ∀ change ∈ plan.changed,
          change.2.1.checksum ≠ change.2.2.checksum)
      (fun _ => True) := by
  have hBoth := (hAtHand.comparable hS hT).project hP hQ
  have hWanted :
      ∀ a, p.Needs q a → a ∈ hAtHand.serving.supply.wanted :=
    fun a hA =>
      Solution.project_assets_subset (mem_values hQ)
        hA.mem_assets
  have hPlan :
      hAtHand.serving.supply.Gives K
        (sync.planDocuments x id kind
          (p.node.documents.get kind)
          (q.node.documents.get kind))
        True
        (.between kind (p.documents.get kind)
          (q.documents.get kind))
        K (fun _ => True) :=
    hAtHand.serving.supply.gives_planDocuments
      (fun _ _ => trivial) hBoth hWanted hStands hDocuments kind
  apply Run.Spec.conseq hPlan (fun _ h => h) ?_ (fun _ h => h)
  rintro plan v ⟨⟨-, rfl⟩, -⟩ change hChange
  exact hBoth.checksum_ne_of_mem_changed hChange

/- Whether a target is a version of the same solution. -/
theorem spec_isIncrementalUpdate :
    Run.Spec (fun u => u = session)
      (sync.isIncrementalUpdate s t.checksum)
      (fun answer _ => answer = s.sameLineage t.attributes)
      (fun _ => False) := by
  let S := hAtHand.serving.supply
  have hLack :
      ∀ e, S.lack e → (fun _ : SyncError => False) (.ofAsset e) := by
    rintro e ⟨a, hWanted, hNotHeld, -⟩
    exact hNotHeld hWanted
  have hNode :
      S.Gives ∅ (sync.fetch t.checksum) True t.node ∅
        (fun _ => False) := by
    rw [← t.checksum_toAsset_node]
    exact S.gives_fetch_keep hLack
      (show Asset.solutionNode t.node ∈ t.assets by
        simp [Solution.assets])
  have hAttributes :
      S.Gives ∅ (sync.fetch t.node.attributes) True t.attributes
        ∅ (fun _ => False) := by
    rw [t.attributes_node]
    exact S.gives_fetch_keep hLack
      (show Asset.solutionAttributes t.attributes ∈ t.assets by
        simp [Solution.assets])
  have hAll :
      S.Gives ∅ (sync.isIncrementalUpdate s t.checksum) True
        (s.sameLineage t.attributes) ∅ (fun _ => False) := by
    unfold isIncrementalUpdate
    apply hNode.bind
    apply hAttributes.bind
    exact Supply.Gives.of_pure _
  apply Run.Spec.conseq hAll ?_ (fun _ _ hPost => hPost.1.2)
    (fun _ h => h)
  rintro u rfl
  exact hAtHand.knows

/- The projects that are left out are reported. -/
theorem skippedProjects_reported
    (hS : s.Reachable)
    (hT : t.Reachable) :
    (sync.reported s t).skippedProjects =
      (sync.leftOut s t).map Project.skipped := by
  have hBoth := hAtHand.comparable hS hT
  have hKeyed := hBoth.right.isKeyed
  unfold reported
  split
  · next hSame =>
      have hEq := hBoth.eq_of_checksum hSame
      rw [leftOut_eq hKeyed, ← hEq, comers_self]
      rfl
  · exact skippedProjects_migration hKeyed

/- Between versions that keep what has to stay, it succeeds. -/
theorem exists_run
    (hS : s.Reachable)
    (hT : t.Reachable)
    (hLineage : s.sameLineage t.attributes = true)
    (hKeeps : s.KeepsFields t) :
    ∃ (f : FetchCounts) (after : Session),
      (sync.synchronizeWithReport s t.checksum).start session =
        (.ok ⟨sync.attained s t,
          { sync.reported s t with fetch := f }⟩, after) := by
  have hRun :=
    (hAtHand.spec_synchronizeWithReport hS hT).holds session rfl
  revert hRun
  cases (sync.synchronizeWithReport s t.checksum).start
      session with
  | mk result after =>
      cases result with
      | error e =>
          exact fun hRefuses => absurd hRefuses
            (Solution.not_refuses hLineage hKeeps e)
      | ok o =>
          rintro ⟨-, f, rfl⟩
          exact ⟨f, after, rfl⟩

omit hAtHand in
theorem usedFallback_reported :
    (sync.reported s t).usedFallback = false := by
  unfold reported
  split
  · rfl
  · exact SyncReport.usedFallback_migrating _ _ _ _

/- A synchronization has one of three results. -/
theorem result_cases
    (hS : s.Reachable)
    (hT : t.Reachable) :
    let result :=
      ((sync.synchronize s t.checksum).start session).1
    (∃ x, result = .ok x ∧
      s.sameLineage t.attributes = true ∧ s.KeepsFields t) ∨
    (∃ field,
      result =
          .error (.notIncremental s.id t.checksum field) ∧
        ¬s.sameLineage t.attributes = true) ∨
    (∃ v : Violation,
      result = .error (.protocolViolation v) ∧
        v.cause? = none ∧ s.sameLineage t.attributes = true ∧
          ¬s.KeepsFields t) := by
  intro result
  have hSpec :
      Run.Spec (fun u => u = session)
        (sync.synchronize s t.checksum)
        (fun _ _ =>
          s.sameLineage t.attributes = true ∧ s.KeepsFields t)
        (s.Refuses t) := by
    unfold synchronize
    apply (hAtHand.spec_synchronizeWithReport hS hT).bind
    intro o
    exact Run.Spec.of_pure (fun _ hPost => hPost.1)
  have hRun := hSpec.holds session rfl
  have hResult :
      result =
        ((sync.synchronize s t.checksum).start session).1 :=
    rfl
  revert hRun hResult
  cases (sync.synchronize s t.checksum).start session with
  | mk r after =>
      cases r with
      | ok x =>
          intro hMay hResult
          exact Or.inl ⟨x, hResult, hMay⟩
      | error e =>
          intro hRefuses hResult
          rcases hRefuses with
            ⟨hLineage, field, rfl⟩ |
              ⟨hLineage, hKeeps, v, rfl, hCause⟩
          · exact Or.inr (Or.inl ⟨field, hResult, hLineage⟩)
          · exact Or.inr (Or.inr
              ⟨v, hResult, hCause, hLineage, hKeeps⟩)

/- The question about the lineage is always answered. -/
theorem answer_eq :
    ((sync.isIncrementalUpdate s t.checksum).start session).1 =
      .ok (s.sameLineage t.attributes) := by
  have hRun := hAtHand.spec_isIncrementalUpdate.holds session rfl
  revert hRun
  cases (sync.isIncrementalUpdate s t.checksum).start
      session with
  | mk r after =>
      cases r with
      | ok answer => exact congrArg Except.ok
      | error e => exact False.elim

end AtHand

------------------------------------------------------------
-- What comes of a synchronization
------------------------------------------------------------

variable
  {sync : Synchronizer}
  {s t : Solution}
  {session : Session}

/-
  Any baseline is brought to any version of the same solution
  without a fallback, whatever the settings are.  Only projects
  that it lacks and that cannot be held are left out, with the
  frozen document if it belongs to one of them, and they are
  named in the report.
-/
theorem synchronizeWithReport_converges
    (hS : s.Reachable)
    (hT : t.Reachable)
    (hId : s.id = t.id)
    (hPath : s.attributes.filePath = t.attributes.filePath)
    (hKeeps : s.KeepsFields t)
    (hAtHand : sync.AtHand s t session) :
    ∃ (o : SyncOutcome) (after : Session),
      (sync.synchronizeWithReport s t.checksum).start session =
          (.ok o, after) ∧
        o.report.usedFallback = false ∧
          o.solution =
            t.restricted
              (t.projects.filter
                (fun id q =>
                  s.containsProject id ||
                    sync.settings.supports
                      q.attributes.language)) ∧
            o.report.skippedProjects =
                (sync.leftOut s t).map Project.skipped ∧
              (sync.leftOut s t = [] → o.solution = t) := by
  have hLineage : s.sameLineage t.attributes = true :=
    Solution.sameLineage_eq_true_iff.2 ⟨hId, hPath⟩
  rcases hAtHand.exists_run hS hT hLineage hKeeps with
    ⟨f, after, hRun⟩
  refine ⟨_, after, hRun, ?_, rfl, ?_, ?_⟩
  · exact AtHand.usedFallback_reported
  · exact hAtHand.skippedProjects_reported hS hT
  · exact attained_eq hT.wellFormed

/- A link to a source that holds a solution. -/
def toHolder
    (t : Solution)
    (settings : SyncSettings) : Synchronizer where
  link := { source := .ofEntries t.publication }
  settings := settings

theorem atHand_toHolder
    {settings : SyncSettings}
    (hFaithful :
      Faithful {a | a ∈ s.assets ∨ a ∈ t.assets}) :
    (toHolder t settings).AtHand s t {} :=
  .of_empty rfl (Source.holds_ofEntries _) hFaithful

def toSmall : Synchronizer :=
  toHolder .small { supportedLanguages := ["C#"] }

theorem atHand_small :
    toSmall.AtHand Solution.bare Solution.small {} :=
  atHand_toHolder Solution.faithful_small

theorem keepsFields_small :
    Solution.bare.KeepsFields Solution.small := by
  decide +kernel

/- Here all changed documents are fetched in bulk. -/
def toEdited : Synchronizer :=
  toHolder .edited { bulkDocumentThreshold := 0 }

theorem atHand_edited :
    toEdited.AtHand Solution.small Solution.edited {} :=
  atHand_toHolder Solution.faithful_edited

/- A session in which the root of the edited one is cached. -/
def rooted : Session :=
  ({} : Session).keep Solution.edited.checksum
    (.solutionNode Solution.edited.node)

theorem rootEntry_edited :
    (Solution.edited.checksum,
        Asset.solutionNode Solution.edited.node) ∈
      Solution.edited.publication := by
  apply (Solution.mem_publication_iff Solution.faithful_edited
    (fun _ hA => Or.inr hA)).2
  exact ⟨by simp [Solution.assets],
    Solution.edited.checksum_toAsset_node⟩

theorem atHand_rooted :
    toEdited.AtHand Solution.small Solution.edited rooted :=
  atHand_edited.keep Solution.reachable_edited rootEntry_edited

theorem keepsFields_edited :
    Solution.small.KeepsFields Solution.edited := by
  decide +kernel

theorem small_converges_edited :
    ∃ (o : SyncOutcome) (after : Session),
      (toEdited.synchronizeWithReport Solution.small
          Solution.edited.checksum).start {} = (.ok o, after) ∧
        o.report.usedFallback = false ∧
          o.solution = Solution.edited := by
  rcases synchronizeWithReport_converges Solution.reachable_small
      Solution.reachable_edited (by decide +kernel)
      (by decide +kernel) keepsFields_edited atHand_edited
    with ⟨o, after, hRun, hFallback, -, -, hWhole⟩
  exact ⟨o, after, hRun, hFallback, hWhole (by decide +kernel)⟩

/-
  A synchronization fails because the target is no version of
  the baseline, or because something changed that has to stay,
  and for no other reason.  The first can be found out before.
-/
theorem synchronize_classified
    {other : Session}
    (hS : s.Reachable)
    (hT : t.Reachable)
    (hAtHand : sync.AtHand s t session)
    (hOther : sync.AtHand s t other) :
    let result :=
      ((sync.synchronize s t.checksum).start session).1
    let answer :=
      ((sync.isIncrementalUpdate s t.checksum).start other).1
    let sameLineage :=
      s.id = t.id ∧
        s.attributes.filePath = t.attributes.filePath
    ((∃ id c field,
        result = .error (.notIncremental id c field)) ↔
      ¬sameLineage) ∧
    (answer = .ok false ↔ ¬sameLineage) ∧
    ((∃ v : Violation,
        result = .error (.protocolViolation v) ∧
          v.cause? = none) ↔
      sameLineage ∧ ¬s.KeepsFields t) ∧
    ((∃ x, result = .ok x) ↔ sameLineage ∧ s.KeepsFields t) := by
  intro result answer sameLineage
  have hSame : s.sameLineage t.attributes = true ↔ sameLineage :=
    Solution.sameLineage_eq_true_iff
  have hAnswer : answer = .ok (s.sameLineage t.attributes) :=
    hOther.answer_eq
  have hFalse : answer = .ok false ↔ ¬sameLineage := by
    rw [hAnswer, ← hSame, Bool.not_eq_true]
    exact ⟨Except.ok.inj, congrArg Except.ok⟩
  refine ⟨?_, hFalse, ?_⟩
  all_goals
    rcases hAtHand.result_cases hS hT with
      ⟨x, hResult, hLineage, hKeeps⟩ |
        ⟨field, hResult, hLineage⟩ |
          ⟨v, hResult, hCause, hLineage, hKeeps⟩
  all_goals
    rw [hSame] at hLineage
    have hResult : result = _ := hResult
    rw [hResult]
  · simp [hLineage]
  · simp [hLineage]
  · simp [hLineage]
  · simp [hLineage, hKeeps]
  · simp [hLineage]
  · simp [hLineage, hKeeps, hCause]

/-
  A text may change, but the language of a project may not, and
  a solution at another place is no version of this one.
-/
theorem small_classified_edited :
    let toPorted := toHolder .ported {}
    let toMoved := toHolder .moved {}
    (∃ x,
      ((toEdited.synchronize Solution.small
        Solution.edited.checksum).start {}).1 = .ok x) ∧
    (∃ v : Violation,
      ((toPorted.synchronize Solution.small
          Solution.ported.checksum).start {}).1 =
            .error (.protocolViolation v) ∧
        v.cause? = none) ∧
    (∃ id c field,
      ((toMoved.synchronize Solution.small
          Solution.moved.checksum).start {}).1 =
            .error (.notIncremental id c field)) ∧
    ((toMoved.isIncrementalUpdate Solution.small
      Solution.moved.checksum).start {}).1 = .ok false := by
  intro toPorted toMoved
  have hPorted : toPorted.AtHand .small .ported {} :=
    atHand_toHolder (Solution.faithful_of_mem_variants
      (by simp [Solution.variants])
      (by simp [Solution.variants]))
  have hMoved : toMoved.AtHand .small .moved {} :=
    atHand_toHolder (Solution.faithful_of_mem_variants
      (by simp [Solution.variants])
      (by simp [Solution.variants]))
  have hSmall := Solution.reachable_small
  rcases synchronize_classified hSmall Solution.reachable_edited
      atHand_edited atHand_edited with ⟨-, -, -, hOk⟩
  rcases synchronize_classified hSmall
      (Solution.reachable_single _) hPorted hPorted with
    ⟨-, -, hViolation, -⟩
  rcases synchronize_classified hSmall
      (Solution.Reachable.empty _) hMoved hMoved with
    ⟨hElsewhere, hAnswer, -, -⟩
  exact ⟨hOk.2 ⟨by decide +kernel, keepsFields_edited⟩,
    hViolation.2 (by decide +kernel),
    hElsewhere.2 (by decide +kernel),
    hAnswer.2 (by decide +kernel)⟩

end Synchronizer

end SnapTree
