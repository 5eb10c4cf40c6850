import SnapTree.Proofs.Data.Departing
import SnapTree.Proofs.Sync.Materialize
import SnapTree.Proofs.Workspace.Needs
import SnapTree.Proofs.Workspace.Parts
import SnapTree.Sync.DocumentPlan

/-
  This file proves that the plan for the documents of a kind is
  the exact difference of what two projects have of it: the
  documents that go, those that come, and those that change.

  Key definitions include:
    * `ToldApart`
    * `Project.Comparable`
    * `DocumentPlan.between`

  Key theorems include:
    * `filter_removedOnly_eq`
    * `exists_arriving`
    * `Project.Comparable.content_eq_iff`
    * `DocumentPlan.removed_between`
    * `DocumentPlan.added_between`
    * `DocumentPlan.changed_between`
    * `Supply.gives_planDocuments`
-/

namespace SnapTree

------------------------------------------------------------
-- What a difference of checksums tells
------------------------------------------------------------

section Difference

variable {κ β : Type}
variable {cmp : κ → κ → Ordering}
variable [Std.TransCmp cmp] [Std.LawfulEqCmp cmp]
variable [DecidableEq β]
variable {p q : Std.ExtTreeMap κ β cmp}
variable {key : β → κ} {check : β → Checksum}

/- The difference of the checksums that two maps list. -/
def differenceOf
    (check : β → Checksum)
    (p q : Std.ExtTreeMap κ β cmp) : CollectionDiff :=
  .between ((p.toList.map Prod.snd).map check)
    ((q.toList.map Prod.snd).map check)

/- Values of either map are told apart by their checksums. -/
def ToldApart
    (check : β → Checksum)
    (p q : Std.ExtTreeMap κ β cmp) : Prop :=
  ∀ v w : β,
    v ∈ p.toList.map Prod.snd ++ q.toList.map Prod.snd →
      w ∈ p.toList.map Prod.snd ++ q.toList.map Prod.snd →
        check v = check w → v = w

omit [Std.LawfulEqCmp cmp] [DecidableEq β] in
theorem ToldApart.swap
    (hTold : ToldApart check p q) :
    ToldApart check q p := by
  intro v w hV hW
  rw [List.mem_append, or_comm, ← List.mem_append] at hV hW
  exact hTold v w hV hW

omit [DecidableEq β] in
/- A checksum is common exactly if the entry is. -/
theorem ToldApart.check_mem_iff
    (hTold : ToldApart check p q)
    (hP : IsKeyed key p)
    (hQ : IsKeyed key q)
    {k : κ}
    {v : β}
    (hStands : p[k]? = some v) :
    check v ∈ (q.toList.map Prod.snd).map check ↔
      q[k]? = some v := by
  constructor
  · intro hMem
    rcases List.mem_map.1 hMem with ⟨w, hW, hSame⟩
    have hEq := hTold v w
      (List.mem_append_left _ (mem_values hStands))
      (List.mem_append_right _ hW) hSame.symm
    subst hEq
    rcases exists_key_of_mem_values hW with ⟨l, hL⟩
    rw [← hP k v hStands, hQ l v hL]
    exact hL
  · intro hThere
    exact List.mem_map_of_mem (mem_values hThere)

/- What changes under a key has another checksum than before. -/
theorem ToldApart.check_ne
    (hTold : ToldApart check p q)
    {k : κ}
    {v w : β}
    (hV : (departing p q)[k]? = some v)
    (hW : (departing q p)[k]? = some w) :
    check v ≠ check w := by
  rcases getElem?_departing.1 hV with ⟨hHere, hNot⟩
  rcases getElem?_departing.1 hW with ⟨hThere, -⟩
  intro hSame
  have hEq := hTold v w
    (List.mem_append_left _ (mem_values hHere))
    (List.mem_append_right _ (mem_values hThere)) hSame
  rw [hEq] at hNot
  exact hNot hThere

variable
  (hTold : ToldApart check p q)
  (hP : IsKeyed key p)
  (hQ : IsKeyed key q)

include hTold hP hQ

/- What has a checksum that is gone is what departs. -/
theorem filter_removedOnly_eq :
    p.filter (fun _ v =>
        (differenceOf check p q).removedOnly.contains
          (check v)) =
      departing p q := by
  apply Std.ExtTreeMap.ext_getElem?
  intro k
  apply Option.ext
  intro v
  rw [getElem?_departing, Std.ExtTreeMap.getElem?_filter',
    Option.filter_eq_some_iff, Std.ExtTreeSet.contains_iff_mem,
    differenceOf, CollectionDiff.mem_removedOnly_between]
  constructor
  · rintro ⟨hStands, -, hGone⟩
    exact ⟨hStands, fun hThere =>
      hGone ((hTold.check_mem_iff hP hQ hStands).2 hThere)⟩
  · rintro ⟨hStands, hGone⟩
    exact ⟨hStands, List.mem_map_of_mem (mem_values hStands),
      fun hCommon =>
        hGone ((hTold.check_mem_iff hP hQ hStands).1 hCommon)⟩

/- A checksum is new exactly if it is that of an arrival. -/
theorem mem_addedOnly_iff
    {c : Checksum} :
    c ∈ (differenceOf check p q).addedOnly ↔
      ∃ (k : κ) (e : β),
        (departing q p)[k]? = some e ∧ check e = c := by
  rw [differenceOf, CollectionDiff.mem_addedOnly_between,
    List.mem_map]
  constructor
  · rintro ⟨⟨e, hE, rfl⟩, hNew⟩
    rcases exists_key_of_mem_values hE with ⟨k, hK⟩
    rw [hTold.swap.check_mem_iff hQ hP hK] at hNew
    exact ⟨k, e, getElem?_departing.2 ⟨hK, hNew⟩, rfl⟩
  · rintro ⟨k, e, hE, rfl⟩
    rcases getElem?_departing.1 hE with ⟨hThere, hNew⟩
    refine ⟨⟨e, mem_values hThere, rfl⟩, ?_⟩
    rw [hTold.swap.check_mem_iff hQ hP hThere]
    exact hNew

/-
  The checksums that are new are those of the values that
  arrive, and these have distinct keys.
-/
theorem exists_arriving
    {γ : Type}
    (value : β → γ) :
    ∃ es : List β,
      es.map check = (differenceOf check p q).addedOnly.toList ∧
        (∀ e ∈ es, (departing q p)[key e]? = some e) ∧
          (es.map check).Nodup ∧ (es.map key).Nodup ∧
            entering key value ∅ es =
              (departing q p).map (fun _ e => value e) := by
  have hListed :
      ∀ c ∈ (differenceOf check p q).addedOnly.toList,
        ∃ e ∈ (departing q p).toList.map Prod.snd,
          check e = c := by
    intro c hC
    rw [Std.ExtTreeSet.mem_toList,
      mem_addedOnly_iff hTold hP hQ] at hC
    rcases hC with ⟨k, e, hE, hSame⟩
    exact ⟨e, mem_values hE, hSame⟩
  rcases exists_map_eq hListed with ⟨es, hMap, hEs⟩
  have hStands :
      ∀ e ∈ es, (departing q p)[key e]? = some e := by
    intro e hE
    rcases exists_key_of_mem_values (hEs e hE) with ⟨k, hK⟩
    rw [hQ k e (getElem?_departing.1 hK).1]
    exact hK
  have hValues : ∀ e ∈ es, e ∈ q.toList.map Prod.snd :=
    fun e hE =>
      mem_values (getElem?_departing.1 (hStands e hE)).1
  have hChecks : (es.map check).Nodup := by
    rw [hMap]
    exact Std.ExtTreeSet.distinct_toList.imp
      (fun hNe hSame => hNe (Std.compare_eq_iff_eq.2 hSame))
  have hKeys : (es.map key).Nodup := by
    apply List.Nodup.map_on ?_ hChecks.of_map
    intro d hD e hE hSame
    have hBoth := hStands d hD
    rw [hSame, hStands e hE] at hBoth
    exact (Option.some.inj hBoth).symm
  refine ⟨es, hMap, hStands, hChecks, hKeys, ?_⟩
  apply entering_eq hKeys
  intro k v
  rw [Std.ExtTreeMap.getElem?_map, Option.map_eq_some_iff]
  constructor
  · rintro ⟨e, hE, rfl⟩
    have hNew :
        check e ∈ (differenceOf check p q).addedOnly.toList := by
      rw [Std.ExtTreeSet.mem_toList,
        mem_addedOnly_iff hTold hP hQ]
      exact ⟨k, e, hE, rfl⟩
    rw [← hMap] at hNew
    rcases List.mem_map.1 hNew with ⟨d, hD, hSame⟩
    have hThere := (getElem?_departing.1 hE).1
    have hEq := hTold d e
      (List.mem_append_right _ (hValues d hD))
      (List.mem_append_right _ (mem_values hThere)) hSame
    subst hEq
    exact ⟨d, hD, hQ k d hThere, rfl⟩
  · rintro ⟨e, hE, rfl, rfl⟩
    exact ⟨e, hStands e hE, rfl⟩

omit hTold hP hQ in
/- Whatever arrives is one of the values that were entered. -/
theorem mem_of_entering_eq
    {γ : Type}
    {value : β → γ}
    {es : List β}
    (hStands : ∀ e ∈ es, (departing q p)[key e]? = some e)
    (hKeys : (es.map key).Nodup)
    (hEntered :
      entering key value ∅ es =
        (departing q p).map (fun _ e => value e))
    {k : κ}
    {e : β}
    (hE : (departing q p)[k]? = some e) :
    e ∈ es := by
  have hThere :
      (entering key value (∅ : Std.ExtTreeMap κ γ cmp) es)[k]? =
        some (value e) := by
    rw [hEntered, Std.ExtTreeMap.getElem?_map, hE]
    rfl
  rcases (getElem?_entering hKeys).1 hThere with
    ⟨x, hX, rfl, -⟩ | ⟨-, hNone⟩
  · rw [hStands x hX] at hE
    rw [← Option.some.inj hE]
    exact hX
  · simp at hNone

end Difference

------------------------------------------------------------
-- Projects side by side
------------------------------------------------------------

namespace Project

/- Two projects in order, whose assets are told apart. -/
structure Comparable
    (p q : Project)
    (assets : Set Asset) : Prop where
  faithful : Faithful assets
  left : p.WellFormed
  right : q.WellFormed
  left_mem : ∀ a ∈ p.assets, a ∈ assets
  right_mem : ∀ a ∈ q.assets, a ∈ assets

namespace Comparable

variable
  {p q : Project}
  {assets : Set Asset}
  (hBoth : p.Comparable q assets)

include hBoth

theorem swap :
    q.Comparable p assets where
  faithful := hBoth.faithful
  left := hBoth.right
  right := hBoth.left
  left_mem := hBoth.right_mem
  right_mem := hBoth.left_mem

/- The assets of their documents are among those told apart. -/
theorem document_mem
    {kind : DocumentKind}
    {d : Document}
    (hD : d ∈ p.documentsOf kind) :
    ∀ a ∈ d.assets, a ∈ assets :=
  fun a hA => hBoth.left_mem a (document_assets_subset hD hA)

/- Their values are told apart by their checksums. -/
theorem value_eq
    {α : Type}
    [AssetValue α]
    [LawfulValue α]
    {v w : α}
    (hV : AssetValue.toAsset v ∈ p.assets)
    (hW : AssetValue.toAsset w ∈ q.assets)
    (hSame : AssetValue.checksum v = AssetValue.checksum w) :
    v = w :=
  hBoth.faithful.value_eq (hBoth.left_mem _ hV)
    (hBoth.right_mem _ hW) (isSealed_of_mem_assets _ hV)
    (isSealed_of_mem_assets _ hW) hSame

/- The members of their collections are told apart as well. -/
theorem members_eq
    {kind : CollectionKind}
    {cs ds : List Checksum}
    (hC :
      Collection.of kind cs ∈
        (Asset.projectNode p.node).collections)
    (hD :
      Collection.of kind ds ∈
        (Asset.projectNode q.node).collections)
    (hSame :
      (Collection.of kind cs).checksum =
        (Collection.of kind ds).checksum) :
    cs = ds := by
  rcases forall_mem_assets.1 hBoth.left_mem with ⟨hNodeP, -⟩
  rcases forall_mem_assets.1 hBoth.right_mem with ⟨hNodeQ, -⟩
  exact hBoth.faithful.members_eq hNodeP hNodeQ hC hD hSame

/- So are lists of references. -/
theorem references_eq
    {α : Type}
    [AssetValue α]
    [LawfulValue α]
    {kind : CollectionKind}
    {vs ws : List α}
    (hC :
      Collection.of kind (vs.map AssetValue.checksum) ∈
        (Asset.projectNode p.node).collections)
    (hD :
      Collection.of kind (ws.map AssetValue.checksum) ∈
        (Asset.projectNode q.node).collections)
    (hVs : ∀ v ∈ vs, AssetValue.toAsset v ∈ p.assets)
    (hWs : ∀ w ∈ ws, AssetValue.toAsset w ∈ q.assets)
    (hSame :
      (Collection.of kind (vs.map AssetValue.checksum)).checksum =
        (Collection.of kind
          (ws.map AssetValue.checksum)).checksum) :
    vs = ws := by
  apply eq_of_map_eq ?_ (hBoth.members_eq hC hD hSame)
  intro v hV w hW hChecksum
  exact hBoth.value_eq (hVs v hV) (hWs w hW) hChecksum

/- A part of both is the same exactly if its checksum is. -/
theorem content_eq_iff
    (part : ProjectPart) :
    part.checksum p.node = part.checksum q.node ↔
      p.content part = q.content part := by
  refine ⟨fun hSame => ?_, part.checksum_congr⟩
  rcases (forall_mem_assets (p := p)).1 (fun _ hA => hA) with
    ⟨-, hAttributesP, hCompilationP, hParseP, hProjectsP,
      hMetadataP, hAnalyzersP, -⟩
  rcases (forall_mem_assets (p := q)).1 (fun _ hA => hA) with
    ⟨-, hAttributesQ, hCompilationQ, hParseQ, hProjectsQ,
      hMetadataQ, hAnalyzersQ, -⟩
  rw [part.checksum_node, part.checksum_node] at hSame
  cases part with
  | attributes =>
      exact hBoth.value_eq hAttributesP hAttributesQ hSame
  | compilationOptions =>
      exact hBoth.value_eq hCompilationP hCompilationQ hSame
  | parseOptions =>
      exact hBoth.value_eq hParseP hParseQ hSame
  | projectReferences =>
      exact hBoth.references_eq
        (by simp [Asset.collections, content])
        (by simp [Asset.collections, content])
        hProjectsP hProjectsQ hSame
  | metadataReferences =>
      exact hBoth.references_eq
        (by simp [Asset.collections, content])
        (by simp [Asset.collections, content])
        hMetadataP hMetadataQ hSame
  | analyzerReferences =>
      exact hBoth.references_eq
        (by simp [Asset.collections, content])
        (by simp [Asset.collections, content])
        hAnalyzersP hAnalyzersQ hSame

/- So are their documents of one kind. -/
theorem documents_eq
    {kind : DocumentKind}
    (hSame :
      (p.node.documents.get kind).checksum =
        (q.node.documents.get kind).checksum) :
    p.documents.get kind = q.documents.get kind := by
  have hMem :
      ∀ t : Project,
        Collection.of (.documents kind)
            ((t.documentsOf kind).map Document.checksum) ∈
          (Asset.projectNode t.node).collections := by
    intro t
    rw [← t.documents_node]
    cases kind <;> simp [Asset.collections, ByKind.get]
  apply documents_eq_of_checksums hBoth.faithful hBoth.left
    hBoth.right hBoth.left_mem hBoth.right_mem
  rw [documents_node, documents_node] at hSame
  exact hBoth.members_eq (hMem p) (hMem q) hSame

theorem toldApart
    (kind : DocumentKind) :
    ToldApart Document.checksum (p.documents.get kind)
      (q.documents.get kind) := by
  have hEach :
      ∀ d ∈ p.documentsOf kind ++ q.documentsOf kind,
        d.kind = kind ∧ ∀ a ∈ d.assets, a ∈ assets := by
    intro d hD
    rcases List.mem_append.1 hD with hD | hD
    · exact ⟨(hBoth.left.keyed kind d.id d
        (hBoth.left.mem_documentsOf.1 hD)).2,
        hBoth.document_mem hD⟩
    · exact ⟨(hBoth.right.keyed kind d.id d
        (hBoth.right.mem_documentsOf.1 hD)).2,
        hBoth.swap.document_mem hD⟩
  intro d e hD hE hSame
  rcases hEach d hD with ⟨hKindD, hAssetsD⟩
  rcases hEach e hE with ⟨hKindE, hAssetsE⟩
  exact Document.eq_of_checksum hBoth.faithful hAssetsD hAssetsE
    (hKindD.trans hKindE.symm) hSame

/- A document that is not there as it is to be is needed. -/
theorem needs_document
    {kind : DocumentKind}
    {id : DocumentId}
    {e : Document}
    (hNew :
      (departing (q.documents.get kind)
        (p.documents.get kind))[id]? = some e) :
    ∀ a ∈ e.assets, p.Needs q a := by
  rcases getElem?_departing.1 hNew with ⟨hThere, hNot⟩
  have hListed : e ∈ q.documentsOf kind := mem_values hThere
  intro a hA
  refine .document hListed ?_ hA
  intro hListed
  exact hNot (((hBoth.toldApart kind).swap.check_mem_iff
    (hBoth.right.isKeyed kind) (hBoth.left.isKeyed kind)
    hThere).1 hListed)

end Comparable

/- The documents of a kind that a project lacks as they are. -/
def newcomers
    (p q : Project)
    (kind : DocumentKind) : List Document :=
  (q.documentsOf kind).filter
    (fun e =>
      !((p.documentsOf kind).map Document.checksum).contains
        e.checksum)

/- They are those that arrive. -/
theorem Comparable.newcomers_eq
    {p q : Project}
    {assets : Set Asset}
    (hBoth : p.Comparable q assets)
    (kind : DocumentKind) :
    p.newcomers q kind =
      (departing (q.documents.get kind)
        (p.documents.get kind)).toList.map Prod.snd := by
  unfold newcomers documentsOf DocumentMap.documents
  rw [List.filter_map, show (departing (q.documents.get kind)
      (p.documents.get kind)).toList =
    (q.documents.get kind).toList.filter
      (fun entry =>
        (p.documents.get kind)[entry.1]? ≠ some entry.2) from
      Std.ExtTreeMap.toList_filter]
  congr 1
  apply List.filter_congr
  rintro ⟨id, e⟩ hEntry
  have hThere :=
    Std.ExtTreeMap.mem_toList_iff_getElem?_eq_some.1 hEntry
  have hSame :=
    (hBoth.toldApart kind).swap.check_mem_iff
      (hBoth.right.isKeyed kind) (hBoth.left.isKeyed kind) hThere
  rw [Bool.eq_iff_iff, decide_eq_true_eq]
  dsimp only [Function.comp]
  rw [Bool.not_eq_true', ← Bool.not_eq_true,
    List.contains_iff_mem]
  exact not_congr hSame

/- Collections of documents differ where their documents do. -/
theorem between_members_documents
    (p q : Project)
    (kind : DocumentKind) :
    CollectionDiff.between
        (p.node.documents.get kind).members
        (q.node.documents.get kind).members =
      differenceOf Document.checksum (p.documents.get kind)
        (q.documents.get kind) := by
  rw [p.documents_node, q.documents_node, Collection.members_of,
    Collection.members_of]
  rfl

end Project

/- The node of a document and what it names as attributes. -/
def Document.introduction
    (d : Document) : List Asset :=
  [.documentNode d.node, .documentAttributes d.attributes]

theorem Document.forall_mem_introduction
    {d : Document}
    {P : Asset → Prop} :
    (∀ a ∈ d.introduction, P a) ↔
      P (.documentNode d.node) ∧
        P (.documentAttributes d.attributes) := by
  unfold introduction
  simp only [List.forall_mem_cons, List.not_mem_nil,
    false_implies, implies_true, and_true]

------------------------------------------------------------
-- The documents of a kind
------------------------------------------------------------

namespace DocumentPlan

variable {kind : DocumentKind} {p q : DocumentMap}

/- The plan that brings the documents of a kind to others. -/
def between
    (kind : DocumentKind)
    (p q : DocumentMap) : DocumentPlan where
  kind := kind
  old := departing p q
  new := (departing q p).map (fun _ e => e.node)

theorem removed_between :
    (between kind p q).removed = leavers p q :=
  filter_keys_departing_only Document.node

theorem added_between :
    (between kind p q).added =
      (comers p q).map Document.node := by
  unfold added between comers
  dsimp only
  rw [Std.ExtTreeMap.toList_map, List.filter_map, List.map_map,
    List.map_map]
  rfl

theorem changed_between
    (hKeyed : IsKeyed Document.id p) :
    (between kind p q).changed =
      (changers p q).map
        (fun pair => (pair.1.id, pair.1, pair.2.node)) := by
  unfold changed between changers
  dsimp only
  rw [Std.ExtTreeMap.toList_map, List.filterMap_map,
    List.map_filterMap]
  apply List.filterMap_congr
  rintro ⟨id, e⟩ -
  dsimp only [Function.comp]
  cases hD : (departing p q)[id]? with
  | none => rfl
  | some d =>
      have hId := hKeyed id d (getElem?_departing.1 hD).1
      rw [← hId]
      rfl

end DocumentPlan

/- A document that is to change has another checksum then. -/
theorem Project.Comparable.checksum_ne_of_mem_changed
    {p q : Project}
    {assets : Set Asset}
    (hBoth : p.Comparable q assets)
    {kind : DocumentKind}
    {change : DocumentId × Document × DocumentNode}
    (hChange :
      change ∈
        (DocumentPlan.between kind (p.documents.get kind)
          (q.documents.get kind)).changed) :
    change.2.1.checksum ≠ change.2.2.checksum := by
  unfold DocumentPlan.changed at hChange
  rcases List.mem_filterMap.1 hChange with
    ⟨⟨id, node⟩, hEntry, hFound⟩
  rcases Option.map_eq_some_iff.1 hFound with ⟨d, hD, rfl⟩
  have hNode :=
    Std.ExtTreeMap.mem_toList_iff_getElem?_eq_some.1 hEntry
  unfold DocumentPlan.between at hNode
  rw [Std.ExtTreeMap.getElem?_map,
    Option.map_eq_some_iff] at hNode
  rcases hNode with ⟨e, hE, rfl⟩
  exact (hBoth.toldApart kind).check_ne hD hE

------------------------------------------------------------
-- Plans worked out
------------------------------------------------------------

namespace Supply

variable {sync : Synchronizer} (S : Supply sync.link)
variable {K : Set Asset} {fail : SyncError → Prop}
variable (hLack : ∀ e, S.lack e → fail (.ofAsset e))

include hLack

/-
  Nodes are fetched with the attributes that name them, and
  each is entered under the key that its attributes tell.
-/
theorem gives_enteredNodes
    {X N A κ : Type}
    {cmp : κ → κ → Ordering}
    [Std.TransCmp cmp]
    [Std.LawfulEqCmp cmp]
    [AssetValue N]
    [LawfulValue N]
    [AssetValue A]
    [LawfulValue A]
    {key : X → κ}
    {node : X → N}
    (attributes : X → A)
    (link : N → Checksum)
    (hLink :
      ∀ x, link (node x) = AssetValue.checksum (attributes x))
    {enter :
      Std.ExtTreeMap κ N cmp → N →
        SyncRun (Std.ExtTreeMap κ N cmp)}
    (hEnter :
      ∀ (K : Set Asset) (x : X) (m : Std.ExtTreeMap κ N cmp),
        AssetValue.toAsset (attributes x) ∈ K → key x ∉ m →
          S.Gives K (enter m (node x)) True
            (m.insert (key x) (node x)) K fail)
    {xs : List X}
    (hNodes :
      ∀ x ∈ xs, AssetValue.toAsset (node x) ∈ S.wanted)
    (hAttributes :
      ∀ x ∈ xs, AssetValue.toAsset (attributes x) ∈ S.wanted)
    (hChecksums :
      ((xs.map node).map AssetValue.checksum).Nodup)
    (hKeys : (xs.map key).Nodup) :
    S.Gives K
      (do
        let nodes : List (Checksum × N) ←
          SyncRun.ofAssets
            (sync.link.getMany
              ((xs.map node).map AssetValue.checksum))
        sync.prefetch (nodes.map (fun n => link n.2))
        (nodes.map Prod.snd).foldlM enter ∅)
      True (entering key node ∅ xs)
      (K ∪
        {a | ∃ x ∈ xs,
          a ∈ [AssetValue.toAsset (node x),
            AssetValue.toAsset (attributes x)]})
      fail := by
  let known :=
    xs.map (fun x => AssetValue.toAsset (attributes x))
  let K₁ :=
    K ∪ {a | a ∈ (xs.map node).map AssetValue.toAsset}
  let K₂ := K₁ ∪ {a | a ∈ known}
  have hAsk :
      S.Gives K
        (SyncRun.ofAssets
          (sync.link.getMany
            ((xs.map node).map AssetValue.checksum)))
        True
        ((xs.map node).map (fun n => (AssetValue.checksum n, n)))
        K₁ fail := by
    refine (S.gives_getMany ?_ hChecksums).failingAs hLack
    intro n hN
    rcases List.mem_map.1 hN with ⟨x, hX, rfl⟩
    exact hNodes x hX
  have hPrefetch :
      S.Gives K₁ (sync.prefetch (known.map Asset.checksum)) True
        () K₂ fail := by
    apply S.gives_prefetch_step hLack
    intro a hA
    rcases List.mem_map.1 hA with ⟨x, hX, rfl⟩
    exact hAttributes x hX
  have hFold :
      S.Gives K₂ (xs.foldlM (fun m x => enter m (node x)) ∅)
        True (entering key node ∅ xs) K₂ fail := by
    apply Gives.foldlM_entering hKeys
    intro x hX m hFree
    exact hEnter K₂ x m (Or.inr (List.mem_map.2 ⟨x, hX, rfl⟩))
      hFree
  suffices hAll :
      S.Gives K
        (do
          let nodes : List (Checksum × N) ←
            SyncRun.ofAssets
              (sync.link.getMany
                ((xs.map node).map AssetValue.checksum))
          sync.prefetch (nodes.map (fun n => link n.2))
          (nodes.map Prod.snd).foldlM enter ∅)
        True (entering key node ∅ xs) K₂ fail by
    apply hAll.keep
    rintro a (hA | ⟨x, hX, hA⟩)
    · exact Or.inl (Or.inl hA)
    · rcases List.mem_cons.1 hA with rfl | hA
      · exact Or.inl (Or.inr (List.mem_map.2
          ⟨node x, List.mem_map_of_mem hX, rfl⟩))
      · rw [List.mem_singleton.1 hA]
        exact Or.inr (List.mem_map.2 ⟨x, hX, rfl⟩)
  apply hAsk.bind
  have hListed :
      ((xs.map node).map (fun n => (AssetValue.checksum n, n))).map
          (fun n => link n.2) =
        known.map Asset.checksum := by
    rw [map_linked hLink, List.map_map]
    rfl
  have hSecond :
      ((xs.map node).map (fun n => (AssetValue.checksum n, n))).map
          Prod.snd = xs.map node := by
    rw [List.map_map]
    exact List.map_id' _
  rw [hListed]
  apply hPrefetch.bind
  rw [hSecond, List.foldlM_map]
  exact hFold

/- The nodes of documents, each under its identity. -/
theorem gives_newDocuments
    {es : List Document}
    (hWanted : ∀ e ∈ es, ∀ a ∈ e.assets, a ∈ S.wanted)
    (hChecksums : (es.map Document.checksum).Nodup)
    (hIds : (es.map Document.id).Nodup) :
    S.Gives K (sync.newDocuments (es.map Document.checksum)) True
      (entering Document.id Document.node ∅ es)
      (K ∪ {a | ∃ e ∈ es, a ∈ e.introduction}) fail := by
  rw [map_checksum_documents] at hChecksums ⊢
  refine S.gives_enteredNodes hLack Document.attributes
    DocumentNode.attributes (fun _ => rfl) ?_ ?_ ?_ hChecksums
    hIds
  · intro K e m hKnown hFree
    have hRead :
        S.Gives K (SyncRun.cached e.node.attributes) True
          e.attributes K fail :=
      S.gives_cached_step hLack hKnown
    have hContains : m.contains e.attributes.id = false := by
      rw [← Bool.not_eq_true, Std.ExtTreeMap.contains_iff_mem]
      exact hFree
    unfold Synchronizer.enterDocument
    apply hRead.bind
    rw [hContains]
    exact Gives.of_pure _
  · intro e hE
    exact hWanted e hE _ List.mem_cons_self
  · intro e hE
    exact hWanted e hE _
      (List.mem_cons_of_mem _ List.mem_cons_self)

/- The nodes of the documents that a project lacks. -/
theorem gives_newcomers
    {assets : Set Asset}
    {p q : Project}
    (hBoth : p.Comparable q assets)
    (hWanted : ∀ a, p.Needs q a → a ∈ S.wanted)
    (kind : DocumentKind) :
    S.Gives K
      (sync.newDocuments
        (differenceOf Document.checksum (p.documents.get kind)
          (q.documents.get kind)).addedOnly.toList)
      True
      ((departing (q.documents.get kind)
        (p.documents.get kind)).map (fun _ e => e.node))
      (K ∪
        {a | ∃ e ∈ p.newcomers q kind, a ∈ e.introduction})
      fail := by
  rcases exists_arriving (hBoth.toldApart kind)
      (hBoth.left.isKeyed kind) (hBoth.right.isKeyed kind)
      Document.node with
    ⟨es, hMap, hNew, hChecks, hKeys, hEntered⟩
  have hArriving :
      ∀ e ∈ es, ∀ a ∈ e.assets, a ∈ S.wanted := by
    intro e hE a hA
    exact hWanted a (hBoth.needs_document (hNew e hE) a hA)
  have hNodes :=
    S.gives_newDocuments (K := K) hLack hArriving hChecks hKeys
  rw [hMap, hEntered] at hNodes
  apply hNodes.keep
  rintro a (hA | ⟨e, hE, hA⟩)
  · exact Or.inl hA
  · rw [hBoth.newcomers_eq kind] at hE
    rcases exists_key_of_mem_values hE with ⟨id, hThere⟩
    exact Or.inr
      ⟨e, mem_of_entering_eq hNew hKeys hEntered hThere, hA⟩

/-
  What comes is planned, whatever documents of the kind the
  project has by now.
-/
theorem gives_planned
    {assets : Set Asset}
    {p q r : Project}
    (hBoth : p.Comparable q assets)
    (hWanted : ∀ a, p.Needs q a → a ∈ S.wanted)
    {s : Solution}
    {id : ProjectId}
    (hStands : s.projects[id]? = some r)
    (kind : DocumentKind) :
    S.Gives K
      (sync.planDocuments s id kind (p.node.documents.get kind)
        (q.node.documents.get kind))
      True
      { DocumentPlan.between kind (p.documents.get kind)
          (q.documents.get kind) with
        old :=
          (r.documents.get kind).filter
            (fun _ d =>
              (differenceOf Document.checksum
                (p.documents.get kind)
                (q.documents.get kind)).removedOnly.contains
                  d.checksum) }
      (K ∪
        {a | ∃ e ∈ p.newcomers q kind, a ∈ e.introduction})
      fail := by
  have hNodes :=
    S.gives_newcomers (K := K) hLack hBoth hWanted kind
  unfold Synchronizer.planDocuments Solution.project?
  apply (S.gives_checkCancelled hLack).bind
  apply (S.gives_difference _ _ fail).bind
  rw [Project.between_members_documents, hStands]
  exact hNodes.bind (Gives.of_pure _)

/- The difference of the documents of a kind is planned. -/
theorem gives_planDocuments
    {assets : Set Asset}
    {p q r : Project}
    (hBoth : p.Comparable q assets)
    (hWanted : ∀ a, p.Needs q a → a ∈ S.wanted)
    {s : Solution}
    {id : ProjectId}
    (hStands : s.projects[id]? = some r)
    (hDocuments : r.documents = p.documents)
    (kind : DocumentKind) :
    S.Gives K
      (sync.planDocuments s id kind (p.node.documents.get kind)
        (q.node.documents.get kind))
      True
      (.between kind (p.documents.get kind)
        (q.documents.get kind))
      K fail := by
  have hOld :=
    filter_removedOnly_eq (hBoth.toldApart kind)
      (hBoth.left.isKeyed kind) (hBoth.right.isKeyed kind)
  have hPlan :=
    S.gives_planned (K := K) hLack hBoth hWanted hStands kind
  rw [hDocuments, hOld] at hPlan
  exact hPlan.keep Set.subset_union_left

end Supply

end SnapTree
