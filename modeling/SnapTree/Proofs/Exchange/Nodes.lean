import SnapTree.Proofs.Exchange.Integrity
import SnapTree.Proofs.Exchange.RoundTrip
import SnapTree.Proofs.Merkle.Faithful

/-
  This file proves what a receiver knows of the nodes that it
  gets.  Hashing an answer covers the parts of a node and the
  members of its collections, but none of the checksums that a
  node and its collections carry along: those are right only
  if the answer was sealed.

  Key definitions include:
    * `Asset.carried?`
    * `Asset.IsTrusted`

  Key theorems include:
    * `Asset.isTrusted_iff_isSealed`
    * `Session.isTrusted_iff_of_calls`
    * `Session.exists_untrusted_nodes`
-/

namespace SnapTree

------------------------------------------------------------
-- Checksums that are carried along
------------------------------------------------------------

/- A collection is consistent if it is the one of its members. -/
theorem Collection.isConsistent_iff
    {c : Collection} :
    c.isConsistent = true ↔ c.canonical = c := by
  unfold isConsistent canonical
  rw [beq_iff_eq]
  cases c with
  | mk kind checksum members =>
      simp only [Collection.of, Collection.mk.injEq, true_and,
        and_true]
      rfl

namespace Asset

/- The checksum that a node carries along. -/
def carried? : Asset → Option Checksum
  | .solutionNode n => some n.checksum
  | .projectNode n => some n.checksum
  | .documentNode n => some n.checksum
  | _ => none

/-
  An asset can be taken as it stands under a checksum: this is
  what it carries along, and its collections are consistent.
-/
structure IsTrusted
    (c : Checksum)
    (a : Asset) : Prop where
  carried : ∀ d : Checksum, a.carried? = some d → d = c
  consistent :
    ∀ k ∈ a.collections, k.isConsistent = true

/- Assets under their checksums are trusted if they are sealed. -/
theorem isTrusted_iff_isSealed
    {a : Asset} :
    a.IsTrusted a.checksum ↔ a.IsSealed := by
  constructor
  · rintro ⟨hCarried, hConsistent⟩
    unfold IsSealed
    cases a with
    | solutionNode n =>
        have hChecksum : n.checksum = n.computed :=
          hCarried n.checksum rfl
        simp only [collections, List.forall_mem_cons,
          Collection.isConsistent_iff] at hConsistent
        simp only [canonical, hConsistent.1, hConsistent.2.1,
          ← hChecksum]
    | projectNode n =>
        have hChecksum : n.checksum = n.computed :=
          hCarried n.checksum rfl
        simp only [collections, List.forall_mem_cons,
          Collection.isConsistent_iff] at hConsistent
        rcases hConsistent with
          ⟨hOrdinary, hAdditional, hConfig, hProjects, hMetadata,
            hAnalyzers, -⟩
        simp only [canonical, hOrdinary, hAdditional, hConfig,
          hProjects, hMetadata, hAnalyzers, ← hChecksum]
    | documentNode n =>
        have hChecksum : n.checksum = n.computed :=
          hCarried n.checksum rfl
        simp only [canonical, ← hChecksum]
    | _ => rfl
  · intro hSealed
    unfold IsSealed at hSealed
    constructor
    · intro d hD
      rw [← hSealed] at hD
      cases a <;> cases hD <;> rfl
    · intro k hK
      rw [← hSealed] at hK
      have hCanonical :
          ∀ c : Collection, c.canonical.isConsistent = true :=
        fun c => Collection.isConsistent_iff.2 rfl
      cases a with
      | solutionNode n =>
          simp only [canonical, collections, List.mem_cons,
            List.not_mem_nil, or_false] at hK
          rcases hK with rfl | rfl <;> exact hCanonical _
      | projectNode n =>
          simp only [canonical, collections, List.mem_cons,
            List.not_mem_nil, or_false] at hK
          rcases hK with rfl | rfl | rfl | rfl | rfl | rfl <;>
            exact hCanonical _
      | _ => cases hK

end Asset

------------------------------------------------------------
-- Nodes that are handed out
------------------------------------------------------------

/-
  A value handed out for a checksum, whatever was called
  before, has the parts and the members that this checksum
  stands for.  It can be taken as it stands exactly if it is
  sealed, which nobody has looked at.
-/
theorem Session.isTrusted_iff_of_calls
    {start s t : Session}
    (hEmpty : start.cache = ∅)
    (hCalls : Relation.ReflTransGen Call start s)
    {α : Type}
    [AssetValue α]
    [LawfulValue α]
    {link : Link}
    (hVerifies : link.verifies = true)
    {c : Checksum}
    {v : α}
    (hRun :
      (link.get c : Run AssetError α).start s = (.ok v, t) ∨
        (Run.cached c : Run AssetError α).start s = (.ok v, t) ∨
          ∃ (cs : List Checksum) (found : List (Checksum × α)),
            (link.getMany cs :
              Run AssetError (List (Checksum × α))).start s =
                (.ok found, t) ∧ (c, v) ∈ found) :
    ((AssetValue.toAsset v).IsTrusted c ↔
      (AssetValue.toAsset v).IsSealed) ∧
    ∀ b : Asset, b.IsSealed → b.checksum = c →
      Faithful {a | a = AssetValue.toAsset v ∨ a = b} →
        (AssetValue.toAsset v).canonical = b := by
  have hSuits : (AssetValue.toAsset v).checksum = c := by
    have hLater :
        ∀ r : Session, s.Call r →
          r.cache[c]? = some (AssetValue.toAsset v) →
            (AssetValue.toAsset v).checksum = c :=
      fun r hCall hCached =>
        suits_of_calls hEmpty (hCalls.tail hCall) hCached
    rcases hRun with hGet | hCached | ⟨cs, found, hMany, hMem⟩
    · have hCall := Call.get s α hVerifies c
      rw [hGet] at hCall
      exact hLater t hCall ((Link.spec_get c).of_ok hGet)
    · have hCall := Call.cached s α c
      rw [hCached] at hCall
      exact hLater t hCall
        ((Run.spec_cached _ c).of_ok hCached).1
    · have hCall := Call.getMany s α hVerifies cs
      rw [hMany] at hCall
      exact hLater t hCall
        (((Link.spec_getMany cs).of_ok hMany).2 _ hMem)
  constructor
  · rw [← hSuits]
    exact Asset.isTrusted_iff_isSealed
  · intro b hSealed hChecksum hFaithful
    rw [hFaithful.canonical_eq (Or.inl rfl) (Or.inr rfl)
      (hSuits.trans hChecksum.symm)]
    exact hSealed

/- A source that has one answer to all requests. -/
def Source.constant
    (c : Checksum)
    (a : Asset) : Source :=
  fun _ _ => .ok [(c, a)]

/-
  Whatever hashes to the checksum that it is asked for is
  handed out.
-/
theorem Link.start_get_constant
    {α : Type}
    [AssetValue α]
    [LawfulValue α]
    (v : α) :
    let c := AssetValue.checksum v
    let link : Link :=
      { source := .constant c (AssetValue.toAsset v) }
    ((link.get c : Run AssetError α).start {}).1 = .ok v := by
  intro c link
  have hAccept :
      ∀ s : Session,
        ([(c, AssetValue.toAsset v)].forM link.accept).start s =
          (.ok (), s.keep c (AssetValue.toAsset v)) := by
    intro s
    have hFits :
        (true && (AssetValue.toAsset v).checksum != c) = false := by
      simp [c, AssetValue.checksum]
    change
      (link.accept (c, AssetValue.toAsset v) >>=
        fun _ => pure ()).start s = _
    unfold accept
    dsimp only
    rw [show link.verifies = true from rfl, hFits]
    rfl
  have hKept :
      ∀ s : Session,
        s.cache = ∅ →
          (s.keep c (AssetValue.toAsset v)).cache[c]? =
            some (AssetValue.toAsset v) := by
    intro s hEmpty
    unfold Session.keep
    rw [hEmpty, Std.ExtTreeMap.getElem?_insertIfNew, if_pos]
    exact ⟨Std.ReflOrd.compare_self, Std.ExtTreeMap.not_mem_empty⟩
  have hFetch :
      ∃ t : Session,
        (link.fetchMissing [c]).start {} = (.ok (), t) ∧
          t.cache[c]? = some (AssetValue.toAsset v) := by
    rw [start_fetchMissing]
    change ∃ t : Session,
      (link.receive [] [c]).start (({} : Session).asking [c]) =
        (.ok (), t) ∧ _
    have hAnswer :
        Run.ofExcept (link.source [] [c]) =
          (pure [(c, AssetValue.toAsset v)] :
            Run AssetError (List (Checksum × Asset))) :=
      rfl
    unfold receive
    simp only [hAnswer, Run.start_bind, Run.start_get,
      Run.start_modify, hAccept, Run.start_pure]
    generalize hMid : Session.mk _ _ _ _ _ = mid
    have hCached :=
      hKept mid (by
        rw [← hMid]
        rfl)
    have hFound :
        (mid.keep c (AssetValue.toAsset v)).isCached c = true :=
      Session.isCached_of_eq_some hCached
    rw [List.find?_cons_of_neg (by simp [hFound]),
      List.find?_nil]
    exact ⟨_, rfl, hCached⟩
  rcases hFetch with ⟨t, hFetched, hCached⟩
  have hNew :
      (({} : Session).lookup c : Except AssetError (Option α)) =
        .ok none := by
    unfold Session.lookup
    rw [Std.ExtTreeMap.getElem?_empty]
  unfold Link.get Run.cached
  simp only [Run.start_bind, Run.start_get, hNew, Run.ofExcept,
    Run.start_pure, hFetched,
    Session.lookup_eq_some_iff.2 hCached]

/- A document's node that carries no checksum of its own. -/
def DocumentNode.unsealed : DocumentNode :=
  ⟨Checksum.null, Checksum.null, Checksum.null⟩

/- Such a node is handed out, but it cannot be trusted. -/
theorem Session.not_isTrusted_unsealed :
    ¬(AssetValue.toAsset DocumentNode.unsealed).IsTrusted
      (AssetValue.checksum DocumentNode.unsealed) := by
  let link : Link :=
    { source :=
        .constant (AssetValue.checksum DocumentNode.unsealed)
          (AssetValue.toAsset DocumentNode.unsealed) }
  let get : Run AssetError DocumentNode :=
    link.get (AssetValue.checksum DocumentNode.unsealed)
  have hEmpty : ({} : Session).cache = ∅ := rfl
  have hVerifies : link.verifies = true := rfl
  have hValue : (get.start {}).1 = .ok DocumentNode.unsealed :=
    Link.start_get_constant _
  have hGet :
      get.start {} =
        (.ok DocumentNode.unsealed, (get.start {}).2) := by
    rw [← hValue]
  intro hTrusted
  have hSealed :=
    (isTrusted_iff_of_calls hEmpty .refl hVerifies
      (Or.inl hGet)).1.1 hTrusted
  have hComputed :
      DocumentNode.unsealed.computed = Checksum.null :=
    congrArg DocumentNode.checksum
      (Asset.documentNode.inj hSealed)
  exact absurd hComputed (by decide +kernel)

/- A solution's node whose list of projects carries none. -/
def SolutionNode.unsealed : SolutionNode :=
  ⟨Checksum.null, Checksum.null,
    ⟨.projects, Checksum.null, []⟩,
    .of .analyzerReferences [], Checksum.null, Checksum.null⟩

/-
  Nodes that are handed out may carry another checksum than the
  one they were asked for by, and collections that are not
  consistent.
-/
theorem Session.exists_untrusted_nodes :
    (¬∀ (link : Link) (c : Checksum) (n : DocumentNode),
      link.verifies = true →
        ((link.get c : Run AssetError DocumentNode).start {}).1 =
            .ok n →
          n.checksum = c) ∧
    ¬∀ (link : Link) (c : Checksum) (n : SolutionNode),
      link.verifies = true →
        ((link.get c : Run AssetError SolutionNode).start {}).1 =
            .ok n →
          n.projects.isConsistent = true := by
  constructor
  · intro hAll
    have hChecksum :=
      hAll _ _ _ rfl (Link.start_get_constant DocumentNode.unsealed)
    exact absurd hChecksum (by decide +kernel)
  · intro hAll
    have hConsistent :=
      hAll _ _ _ rfl (Link.start_get_constant SolutionNode.unsealed)
    exact absurd hConsistent (by decide +kernel)

end SnapTree
