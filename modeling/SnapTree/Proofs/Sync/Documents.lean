import SnapTree.Proofs.Sync.Stages

/-
  This file proves that the documents of a project are brought
  to those of the target, unless a document would have to give
  up a field that it keeps as long as it lives.  No change on
  the way is refused.

  Key theorems include:
    * `Supply.gives_updateDocument`
    * `Supply.gives_addAndUpdateDocuments`
    * `Supply.gives_updateDocuments`
-/

namespace SnapTree

------------------------------------------------------------
-- Fields that stay
------------------------------------------------------------

namespace DocumentAttributes

variable {a b : DocumentAttributes}

/- No field is missed that stays as long as a document lives. -/
theorem changedIdentity?_eq_none_iff :
    a.changedIdentity? b = none ↔
      a.id = b.id ∧ a.name = b.name ∧ a.filePath = b.filePath ∧
        a.isGenerated = b.isGenerated ∧
          a.designTimeOnly = b.designTimeOnly := by
  unfold changedIdentity?
  constructor
  · intro hNone
    split at hNone
    · cases hNone
    split at hNone
    · cases hNone
    split at hNone
    · cases hNone
    split at hNone
    · cases hNone
    split at hNone
    · cases hNone
    · next hId hName hPath hGenerated hDesign =>
        rw [not_not] at hId hName hPath hGenerated hDesign
        exact ⟨hId, hName, hPath, hGenerated, hDesign⟩
  · rintro ⟨hId, hName, hPath, hGenerated, hDesign⟩
    simp [hId, hName, hPath, hGenerated, hDesign]

/- The other fields are folders and source kind. -/
theorem eq_of_changedIdentity?
    (hNone : a.changedIdentity? b = none) :
    { a with folders := b.folders, sourceKind := b.sourceKind } =
      b := by
  rcases changedIdentity?_eq_none_iff.1 hNone with
    ⟨hId, hName, hPath, hGenerated, hDesign⟩
  cases a
  cases b
  simp only [mk.injEq] at hId hName hPath hGenerated hDesign ⊢
  exact ⟨hId, hName, trivial, trivial, hPath, hGenerated,
    hDesign⟩

end DocumentAttributes

namespace Project

/- The documents of a kind on both sides keep those fields. -/
def KeepsDocumentsOf
    (p q : Project)
    (kind : DocumentKind) : Prop :=
  ∀ (id : DocumentId) (d e : Document),
    (p.documents.get kind)[id]? = some d →
      (q.documents.get kind)[id]? = some e →
        d.attributes.changedIdentity? e.attributes = none

/- Documents that are the same on both sides do. -/
theorem KeepsDocumentsOf.of_eq
    {p q : Project}
    {kind : DocumentKind}
    (hSame : p.documents.get kind = q.documents.get kind) :
    p.KeepsDocumentsOf q kind := by
  intro id d e hHere hThere
  rw [hSame, hThere] at hHere
  rw [Option.some.inj hHere]
  exact DocumentAttributes.changedIdentity?_eq_none_iff.2
    ⟨rfl, rfl, rfl, rfl, rfl⟩

/- It suffices that the documents that change do. -/
theorem keepsDocumentsOf_iff
    {p q : Project}
    (hP : p.WellFormed)
    {kind : DocumentKind} :
    p.KeepsDocumentsOf q kind ↔
      ∀ pair ∈ p.changersTo q kind,
        pair.1.attributes.changedIdentity? pair.2.attributes =
          none := by
  constructor
  · rintro hKeeps ⟨d, e⟩ hPair
    rcases (mem_changersTo hP).1 hPair with ⟨hHere, hThere, -⟩
    exact hKeeps d.id d e hHere hThere
  · intro hPairs id d e hHere hThere
    by_cases hSame : d = e
    · rw [hSame]
      exact DocumentAttributes.changedIdentity?_eq_none_iff.2
        ⟨rfl, rfl, rfl, rfl, rfl⟩
    · have hId := hP.isKeyed kind id d hHere
      subst hId
      exact hPairs (d, e)
        ((mem_changersTo hP).2 ⟨hHere, hThere, hSame⟩)

end Project

namespace SyncReport

/- A report on documents that were removed, kind by kind. -/
def removing
    (r : SyncReport)
    (p q : Project)
    (kinds : List DocumentKind) : SyncReport :=
  { r with
    documentsRemoved :=
      r.documentsRemoved +
        (kinds.map (fun kind =>
          (p.planTo q kind).removed.length)).sum }

/- A report on documents that came or changed, kind by kind. -/
def revising
    (r : SyncReport)
    (p q : Project)
    (kinds : List DocumentKind) : SyncReport :=
  { r with
    documentsAdded :=
      r.documentsAdded +
        (kinds.map (fun kind => (p.comersTo q kind).length)).sum
    documentsUpdated :=
      r.documentsUpdated +
        (kinds.map (fun kind =>
          (p.changersTo q kind).length)).sum }

section

variable
  (r : SyncReport)
  (p q : Project)
  (done : List DocumentKind)
  (kind : DocumentKind)

theorem removing_concat :
    r.removing p q (done ++ [kind]) =
      { r.removing p q done with
        documentsRemoved :=
          (r.removing p q done).documentsRemoved +
            (p.planTo q kind).removed.length } := by
  unfold removing
  simp only [List.map_append, List.sum_append, List.map_cons,
    List.map_nil, List.sum_cons, List.sum_nil, Nat.add_zero,
    Nat.add_assoc]

theorem revising_concat :
    r.revising p q (done ++ [kind]) =
      { r.revising p q done with
        documentsAdded :=
          (r.revising p q done).documentsAdded +
            (p.comersTo q kind).length
        documentsUpdated :=
          (r.revising p q done).documentsUpdated +
            (p.changersTo q kind).length } := by
  unfold revising
  simp only [List.map_append, List.sum_append, List.map_cons,
    List.map_nil, List.sum_cons, List.sum_nil, Nat.add_zero,
    Nat.add_assoc]

end

end SyncReport

namespace Supply

variable {sync : Synchronizer} (S : Supply sync.link)
variable {K : Set Asset} {fail : SyncError → Prop}

/- A change that is not refused. -/
theorem gives_ofEdit
    {α : Type}
    {x : Except EditError α}
    {v : α}
    (hOk : x = .ok v) :
    S.Gives K (SyncRun.ofEdit x) True v K fail := by
  rw [hOk]
  exact Gives.of_pure v

variable (hLack : ∀ e, S.lack e → fail (.ofAsset e))

include hLack

/- A value that is fetched, whatever is known afterwards. -/
theorem gives_fetch_keep
    {α : Type}
    [AssetValue α]
    [LawfulValue α]
    {v : α}
    (hWanted : AssetValue.toAsset v ∈ S.wanted) :
    S.Gives K (sync.fetch (AssetValue.checksum v)) True v K
      fail :=
  (S.gives_fetch hLack hWanted).keep (Set.subset_insert _ _)

------------------------------------------------------------
-- One document
------------------------------------------------------------

section Document

variable
  {s : Solution}
  {p : ProjectId}
  {r : Project}
  (hWell : r.WellFormed)
  {d e : Document}
  (hStands : (r.documents.get d.kind)[d.id]? = some d)
  (hId : e.id = d.id)
  (hKind : e.kind = d.kind)
  (hWanted : ∀ a ∈ e.assets, a ∈ S.wanted)
  (hField :
    d.attributes.changedIdentity? e.attributes ≠ none →
      ∀ v : Violation, v.cause? = none →
        fail (.protocolViolation v))

include hWell hStands hId hKind hWanted hField

/-
  A document that is not ordinary is rebuilt if its folders or
  its source kind differ.
-/
theorem gives_updateAttributes_of_rebuilt
    (hRebuilt :
      d.kind ≠ .ordinary ∧
        (d.attributes.folders ≠ e.attributes.folders ∨
          d.attributes.sourceKind ≠ e.attributes.sourceKind)) :
    S.Gives K
      (sync.updateAttributes (s.put p r) p d.id
        e.node)
      (d.attributes.changedIdentity? e.attributes = none)
      (s.put p (r.putDocument e), true) K fail := by
  rcases Document.forall_mem_assets.1 hWanted with
    ⟨-, hWantedAttributes, hWantedText⟩
  have hAttributes :
      S.Gives K (sync.fetch e.node.attributes) True e.attributes
        K fail :=
    S.gives_fetch_keep hLack hWantedAttributes
  have hText :
      S.Gives K (sync.fetch e.node.text) True e.text K fail :=
    S.gives_fetch_keep hLack hWantedText
  have hFound :
      (s.put p r).document? p d.id = some d := by
    rw [Solution.document?_put]
    exact hWell.document?_eq hStands
  have hRemove :
      (s.put p r).removeDocuments p d.kind [d.id] =
        .ok (s.put p (r.excluding d.kind [d.id])) := by
    apply Solution.removeDocuments_put
    intro x hX
    rw [List.mem_singleton.1 hX]
    exact mem_of_getElem? hStands
  have hAdd :
      (s.put p (r.excluding d.kind [d.id])).addDocuments
          p d.kind [⟨e.attributes, e.text⟩] =
        .ok (s.put p (r.putDocument e)) :=
    Solution.addDocuments_put_excluding hWell hStands hId hKind
  unfold Synchronizer.updateAttributes
  apply hAttributes.bind
  rw [hFound]
  dsimp only
  rw [if_pos hRebuilt]
  cases hChanged :
      d.attributes.changedIdentity? e.attributes with
  | some field =>
      exact Gives.of_throw_bind
        (hField (by simp [hChanged]) _ rfl)
  | none =>
      apply Gives.anyway rfl
      apply hText.bind
      apply (S.gives_ofEdit hRemove).bind
      apply (S.gives_ofEdit hAdd).bind
      exact Gives.of_pure _

omit hId hKind in
/- Any other document gets its attributes where it stands. -/
theorem gives_updateAttributes_in_place
    (hInPlace :
      ¬(d.kind ≠ .ordinary ∧
        (d.attributes.folders ≠ e.attributes.folders ∨
          d.attributes.sourceKind ≠ e.attributes.sourceKind))) :
    S.Gives K
      (sync.updateAttributes (s.put p r) p d.id
        e.node)
      (d.attributes.changedIdentity? e.attributes = none)
      (s.put p
        (r.putDocument { d with attributes := e.attributes }),
        false)
      K fail := by
  have hAttributes :
      S.Gives K (sync.fetch e.node.attributes) True e.attributes
        K fail :=
    S.gives_fetch_keep hLack
      (Document.forall_mem_assets.1 hWanted).2.1
  have hFound :
      (s.put p r).document? p d.id = some d := by
    rw [Solution.document?_put]
    exact hWell.document?_eq hStands
  have hFirst :
      s.put p r = s.put p (r.putDocument d) := by
    rw [Project.putDocument_self hStands]
  have hOrdinary :
      d.attributes.folders ≠ e.attributes.folders ∨
          d.attributes.sourceKind ≠ e.attributes.sourceKind →
        d.kind = .ordinary := by
    intro hDiffers
    by_contra hOther
    exact hInPlace ⟨hOther, hDiffers⟩
  -- The folders change first, and then the source kind.
  let d₁ : Document :=
    { d with
      attributes :=
        { d.attributes with folders := e.attributes.folders } }
  let d₂ : Document :=
    { d₁ with
      attributes :=
        { d₁.attributes with
          sourceKind := e.attributes.sourceKind } }
  unfold Synchronizer.updateAttributes
  apply hAttributes.bind
  rw [hFound]
  dsimp only
  rw [if_neg hInPlace]
  cases hChanged :
      d.attributes.changedIdentity? e.attributes with
  | some field =>
      exact Gives.of_throw_bind
        (hField (by simp [hChanged]) _ rfl)
  | none =>
      have hLast :
          d₂ = { d with attributes := e.attributes } := by
        rw [← DocumentAttributes.eq_of_changedIdentity?
          hChanged]
      dsimp only
      refine Gives.bindEither
        (v := s.put p (r.putDocument d₁)) ?_ ?_ ?_
      · intro hFolders
        apply S.gives_ofEdit
        rw [hFirst]
        exact Solution.withDocumentFolders_put hWell hStands rfl
          rfl (hOrdinary (Or.inl hFolders)) _
      · intro hFolders
        rw [not_not] at hFolders
        have hSame : d₁ = d := by
          unfold d₁
          rw [← hFolders]
        rw [hSame, ← hFirst]
        exact Gives.of_pure _
      refine Gives.bindEither
        (v := s.put p (r.putDocument d₂)) ?_ ?_ ?_
      · intro hSource
        apply S.gives_ofEdit
        exact Solution.withDocumentSourceKind_put (e := d₁)
          hWell hStands rfl rfl (hOrdinary (Or.inr hSource)) _
      · intro hSource
        rw [not_not] at hSource
        have hSame : d₂ = d₁ := by
          unfold d₂ d₁
          rw [← hSource]
        rw [hSame]
        exact Gives.of_pure _
      · rw [hLast]
        exact Gives.anyway rfl (Gives.of_pure _)

omit hField in
/-
  A document that has its attributes gets its text, unless that
  is the same.
-/
theorem gives_updateText
    (hSame : d.node.text = e.node.text → d.text = e.text) :
    S.Gives K
      (if (!false && d.node.text != e.node.text) = true then do
        let text : String ← sync.fetch e.node.text
        SyncRun.ofEdit
          ((s.put p (r.putDocument
            { d with attributes := e.attributes })).withDocumentText
              p d.id text)
      else
        pure (s.put p (r.putDocument
          { d with attributes := e.attributes })))
      True (s.put p (r.putDocument e)) K fail := by
  let d' : Document := { d with attributes := e.attributes }
  split
  · have hFetch :
        S.Gives K (sync.fetch e.node.text) True e.text K fail :=
      S.gives_fetch_keep hLack
        (Document.forall_mem_assets.1 hWanted).2.2
    have hChange :
        (s.put p (r.putDocument d')).withDocumentText p d.id
            e.text =
          .ok (s.put p
            (r.putDocument { d' with text := e.text })) :=
      Solution.withDocumentText_put (e := d') hWell hStands hId
        rfl e.text
    have hLast : { d' with text := e.text } = e := by
      unfold d'
      rw [← hKind]
    rw [hLast] at hChange
    exact hFetch.bind (S.gives_ofEdit hChange)
  · next hText =>
      have hLast : d' = e := by
        unfold d'
        rw [hSame (by simpa using hText), ← hKind]
      change S.Gives K (pure (s.put p (r.putDocument d'))) True
        (s.put p (r.putDocument e)) K fail
      rw [hLast]
      exact Gives.of_pure _

/-
  A document becomes the one of the target.  Equal checksums
  mean equal parts, so that nothing is left as it was that
  differs.
-/
theorem gives_updateDocument
    {assets : Set Asset}
    (hFaithful : Faithful assets)
    (hAssetsD : ∀ a ∈ d.assets, a ∈ assets)
    (hAssetsE : ∀ a ∈ e.assets, a ∈ assets) :
    S.Gives K
      (sync.updateDocument (s.put p r) p d.id d.node
        e.node)
      (d.attributes.changedIdentity? e.attributes = none)
      (s.put p (r.putDocument e)) K fail := by
  rcases Document.forall_mem_assets.1 hAssetsD with
    ⟨-, hAttributesD, hTextD⟩
  rcases Document.forall_mem_assets.1 hAssetsE with
    ⟨-, hAttributesE, hTextE⟩
  have hSameAttributes :
      d.node.attributes = e.node.attributes →
        d.attributes = e.attributes :=
    fun hSame =>
      hFaithful.value_eq hAttributesD hAttributesE rfl rfl hSame
  have hText :=
    S.gives_updateText (K := K) (s := s) (p := p) hLack hWell
      hStands hId hKind hWanted
      (fun hSame =>
        hFaithful.value_eq hTextD hTextE rfl rfl hSame)
  unfold Synchronizer.updateDocument
  apply (S.gives_checkCancelled hLack).bind
  dsimp only
  by_cases hSame : d.node.attributes = e.node.attributes
  · have hFirst :
        s.put p r =
          s.put p (r.putDocument
            { d with attributes := e.attributes }) := by
      rw [← hSameAttributes hSame, Project.putDocument_self hStands]
    rw [if_neg (not_not.2 hSame), hFirst]
    have hNone :
        d.attributes.changedIdentity? e.attributes = none := by
      rw [hSameAttributes hSame]
      exact DocumentAttributes.changedIdentity?_eq_none_iff.2
        ⟨rfl, rfl, rfl, rfl, rfl⟩
    apply Gives.anyway hNone
    apply Gives.bind (Gives.of_pure _)
    exact hText
  · rw [if_pos hSame]
    by_cases hRebuilt :
        d.kind ≠ .ordinary ∧
          (d.attributes.folders ≠ e.attributes.folders ∨
            d.attributes.sourceKind ≠ e.attributes.sourceKind)
    · have hDone :
          S.Gives K
            (if (!true && d.node.text != e.node.text) = true then do
              let text : String ← sync.fetch e.node.text
              SyncRun.ofEdit
                ((s.put p (r.putDocument e)).withDocumentText
                  p d.id text)
            else pure (s.put p (r.putDocument e)))
            True (s.put p (r.putDocument e)) K fail := by
        rw [if_neg (by simp)]
        exact Gives.of_pure _
      apply Gives.bindAlways
        (S.gives_updateAttributes_of_rebuilt hLack hWell hStands
          hId hKind hWanted hField hRebuilt)
      exact hDone
    · apply Gives.bindAlways
        (S.gives_updateAttributes_in_place hLack hWell hStands
          hWanted hField hRebuilt)
      exact hText

end Document

------------------------------------------------------------
-- The documents of a project
------------------------------------------------------------

section Project

variable
  {p q : Project}
  (s : Solution)
  (id : ProjectId)
  (x : Project)
  (r : SyncReport)
  {kinds done : List DocumentKind}
  {kind : DocumentKind}

omit hLack in
/- The documents of a kind that go are removed. -/
theorem gives_removeDocuments
    (hLater : kind ∉ done) :
    S.Gives K
      (Synchronizer.removeDocuments id
        ⟨s.put id (x.holding (p.thinned q done)),
          r.removing p q done⟩
        (p.planTo q kind))
      True
      ⟨s.put id (x.holding (p.thinned q (done ++ [kind]))),
        r.removing p q (done ++ [kind])⟩ K fail := by
  have hHere :
      (p.thinned q done).get kind = p.documents.get kind := by
    unfold Project.thinned
    rw [ByKind.get_ofFn, if_neg hLater]
  have hRemove :
      (s.put id (x.holding (p.thinned q done))).removeDocuments
          id kind (p.planTo q kind).removed =
        .ok (s.put id
          (x.holding (p.thinned q (done ++ [kind])))) := by
    rw [Solution.removeDocuments_put]
    · unfold Project.excluding
      rw [Project.documents_holding, hHere,
        ← Project.thinned_concat]
      rfl
    · intro y hY
      rw [Project.documents_holding, hHere]
      unfold Project.planTo at hY
      rw [DocumentPlan.removed_between] at hY
      exact (mem_leavers.1 hY).1
  unfold Synchronizer.removeDocuments
  apply (S.gives_ofEdit hRemove).bind
  rw [SyncReport.removing_concat]
  exact Gives.of_pure _

variable
  {assets : Set Asset}
  (hBoth : p.Comparable q assets)
  (hWanted : ∀ a, p.Needs q a → a ∈ S.wanted)
  (hSame :
    ∀ kind, kind ∉ kinds →
      p.documents.get kind = q.documents.get kind)
  (hField :
    ¬p.KeepsDocumentsOf q kind →
      ∀ v : Violation, v.cause? = none →
        fail (.protocolViolation v))

include hBoth hWanted hSame hField

/- The documents of a kind that change are replaced. -/
theorem gives_changers :
    S.Gives K
      ((p.planTo q kind).changed.foldlM (sync.countedUpdate id)
        ⟨s.put id (x.holding
          ((p.settled q kinds done).set kind (p.filled q kind))),
          r⟩)
      (p.KeepsDocumentsOf q kind)
      ⟨s.put id (x.holding
        (p.settled q kinds (done ++ [kind]))),
        { r with
          documentsUpdated :=
            r.documentsUpdated + (p.changersTo q kind).length }⟩
      K fail := by
  have hP := hBoth.left
  have hQ := hBoth.right
  let value (changed : List (Document × Document)) :
      SyncOutcome :=
    ⟨s.put id (x.holding
      ((p.settled q kinds done).set kind
        (p.revised q kind changed))),
      { r with
        documentsUpdated :=
          r.documentsUpdated + changed.length }⟩
  have hLast :
      value (p.changersTo q kind) =
        ⟨s.put id (x.holding
          (p.settled q kinds (done ++ [kind]))),
          { r with
            documentsUpdated :=
              r.documentsUpdated +
                (p.changersTo q kind).length }⟩ := by
    unfold value
    rw [Project.revised_changersTo hP hQ,
      Project.settled_concat]
  rw [Project.changed_planTo q hP, List.foldlM_map, ← hLast,
    Project.keepsDocumentsOf_iff hP]
  refine Gives.foldlM value ?_
  rintro changed ⟨d, e⟩ rest hSplit -
  have hMem : (d, e) ∈ p.changersTo q kind := mem_of_later hSplit
  have hChanged : changed.Sublist (p.changersTo q kind) :=
    sublist_of_later hSplit
  rcases (Project.mem_changersTo hP).1 hMem with
    ⟨hHere, hThere, hNe⟩
  have hId := Project.id_of_mem_changersTo hP hQ hMem
  have hNew :
      (departing (q.documents.get kind)
        (p.documents.get kind))[d.id]? = some e := by
    rw [getElem?_departing, hHere]
    exact ⟨hThere, fun hSame => hNe (Option.some.inj hSame)⟩
  have hKindD := (hP.keyed kind d.id d hHere).2
  have hKindE := (hQ.keyed kind d.id e hThere).2
  have hStands :
      (((p.settled q kinds done).set kind
          (p.revised q kind changed)).get d.kind)[d.id]? =
        some d := by
    rw [hKindD, ByKind.get_set_self]
    exact Project.getElem?_revised_of_later hP hQ hSplit
  have hUpdate :=
    S.gives_updateDocument (K := K) (s := s) (p := id) hLack
      (Project.wellFormed_holding_revised hP hQ hSame hChanged x)
      hStands hId (hKindE.trans hKindD.symm)
      (fun a hA => hWanted a (hBoth.needs_document hNew a hA))
      (by
        intro hChangedField
        apply hField
        intro hKeeps
        exact hChangedField (hKeeps d.id d e hHere hThere))
      hBoth.faithful (hBoth.document_mem (mem_values hHere))
      (hBoth.swap.document_mem (mem_values hThere))
  rw [Project.putDocument_holding_revised (d := d) x _ changed
    hKindE] at hUpdate
  unfold Synchronizer.countedUpdate
  apply hUpdate.bindAlways
  unfold value
  rw [List.length_append]
  exact Gives.of_pure _

omit hSame hField in
/- Documents that come or change may be fetched in bulk. -/
theorem gives_fetchInBulk :
    S.Gives K (sync.fetchInBulk (p.planTo q kind).new) True ()
      K fail := by
  let es :=
    (departing (q.documents.get kind)
      (p.documents.get kind)).toList.map Prod.snd
  have hEs : ∀ e ∈ es, ∀ a ∈ e.assets, a ∈ S.wanted := by
    intro e hE
    rcases exists_key_of_mem_values hE with ⟨i, hI⟩
    intro a hA
    exact hWanted a (hBoth.needs_document hI a hA)
  have hChecksums :
      (p.planTo q kind).new.toList.map
          (fun entry => entry.2.checksum) =
        es.map Document.checksum := by
    unfold Project.planTo DocumentPlan.between
    dsimp only
    rw [Std.ExtTreeMap.toList_map, List.map_map, List.map_map]
    rfl
  unfold Synchronizer.fetchInBulk
  rw [hChecksums]
  split
  · exact ((S.gives_fetchDocuments hEs).failingAs hLack).keep
      (fun a hA => Or.inl hA)
  · exact Gives.of_pure ()

omit hSame hField in
/- Those that come are described. -/
theorem gives_describeComers :
    S.Gives K
      ((p.planTo q kind).added.mapM
        (fun node => sync.documentDescription node.checksum))
      True ((p.comersTo q kind).map Document.describe) K
      fail := by
  rw [Project.added_planTo, List.mapM_map]
  apply Gives.mapM
  intro e hE
  rcases (mem_comers (hBoth.right.isKeyed kind)).1 hE with
    ⟨hThere, hAbsent⟩
  have hNew :
      (departing (q.documents.get kind)
        (p.documents.get kind))[e.id]? = some e := by
    refine getElem?_departing.2 ⟨hThere, fun hHere => hAbsent ?_⟩
    exact mem_of_getElem? hHere
  exact (S.gives_documentDescription hLack
    (fun a hA => hWanted a (hBoth.needs_document hNew a hA))).keep
      (fun a hA => Or.inl hA)

/- The documents of a kind become those of the target. -/
theorem gives_placeDocuments
    (hKind : kind ∈ kinds)
    (hLater : kind ∉ done) :
    S.Gives K
      (sync.placeDocuments id
        ⟨s.put id (x.holding (p.settled q kinds done)),
          r.revising p q done⟩
        (p.planTo q kind))
      (p.KeepsDocumentsOf q kind)
      ⟨s.put id (x.holding
        (p.settled q kinds (done ++ [kind]))),
        r.revising p q (done ++ [kind])⟩ K fail := by
  have hAdd :=
    Project.addDocuments_put_settled hBoth.right hSame hKind
      hLater s id x
  unfold Synchronizer.placeDocuments
  apply (S.gives_describeComers hLack hBoth hWanted).bind
  apply (S.gives_ofEdit hAdd).bind
  rw [List.length_map, SyncReport.revising_concat]
  exact S.gives_changers hLack s id x _ hBoth hWanted hSame hField

theorem gives_addAndUpdateDocuments
    (hKind : kind ∈ kinds)
    (hLater : kind ∉ done) :
    S.Gives K
      (sync.addAndUpdateDocuments id
        ⟨s.put id (x.holding (p.settled q kinds done)),
          r.revising p q done⟩
        (p.planTo q kind))
      (p.KeepsDocumentsOf q kind)
      ⟨s.put id (x.holding
        (p.settled q kinds (done ++ [kind]))),
        r.revising p q (done ++ [kind])⟩ K fail := by
  unfold Synchronizer.addAndUpdateDocuments
  apply (S.gives_checkCancelled hLack).bind
  apply (S.gives_fetchInBulk hLack hBoth hWanted).bind
  exact S.gives_placeDocuments hLack s id x r hBoth hWanted
    hSame hField hKind hLater

omit hField in
/- All documents become those of the target. -/
theorem gives_updateDocuments
    (hNodup : kinds.Nodup)
    (hField :
      ¬(∀ kind, p.KeepsDocumentsOf q kind) →
        ∀ v : Violation, v.cause? = none →
          fail (.protocolViolation v)) :
    S.Gives K
      (sync.updateDocuments id
        ⟨s.put id (x.holding p.documents), r⟩
        (kinds.map (p.planTo q)))
      (∀ kind, p.KeepsDocumentsOf q kind)
      ⟨s.put id (x.holding q.documents),
        (r.removing p q kinds).revising p q kinds⟩ K fail := by
  have hRemovals :
      S.Gives K
        ((kinds.map (p.planTo q)).foldlM
          (Synchronizer.removeDocuments id)
          ⟨s.put id (x.holding (p.thinned q [])),
            r.removing p q []⟩)
        True
        ⟨s.put id (x.holding (p.thinned q kinds)),
          r.removing p q kinds⟩ K fail := by
    rw [List.foldlM_map]
    apply Gives.foldlM_always (fun done =>
      (⟨s.put id (x.holding (p.thinned q done)),
        r.removing p q done⟩ : SyncOutcome)) rfl
    intro done kind rest hSplit
    exact S.gives_removeDocuments s id x r
      (notMem_of_later hNodup hSplit)
  have hUpdates :
      S.Gives K
        ((kinds.map (p.planTo q)).foldlM
          (sync.addAndUpdateDocuments id)
          ⟨s.put id (x.holding (p.settled q kinds [])),
            (r.removing p q kinds).revising p q []⟩)
        (∀ kind ∈ kinds, p.KeepsDocumentsOf q kind)
        ⟨s.put id (x.holding (p.settled q kinds kinds)),
          (r.removing p q kinds).revising p q kinds⟩ K
        fail := by
    rw [List.foldlM_map]
    apply Gives.foldlM (fun done =>
      (⟨s.put id (x.holding (p.settled q kinds done)),
        (r.removing p q kinds).revising p q done⟩ : SyncOutcome))
    intro done kind rest hSplit _
    have hKind : kind ∈ kinds := mem_of_later hSplit
    refine S.gives_addAndUpdateDocuments hLack s id x _ hBoth
      hWanted hSame ?_ hKind (notMem_of_later hNodup hSplit)
    intro hNot
    exact hField (fun hKeeps => hNot (hKeeps kind))
  rw [Project.thinned_nil] at hRemovals
  rw [Project.settled_nil, Project.settled_all p q hSame]
    at hUpdates
  unfold Synchronizer.updateDocuments
  apply Gives.conseq (hRemovals.bind hUpdates) subset_rfl ?_
    subset_rfl (fun _ h => h)
  intro hKeeps kind
  by_cases hKind : kind ∈ kinds
  · exact hKeeps kind hKind
  · exact Project.KeepsDocumentsOf.of_eq (hSame kind hKind)

end Project

end Supply

end SnapTree
