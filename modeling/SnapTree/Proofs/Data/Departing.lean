import SnapTree.Proofs.Data.Keyed

/-
  This file compares two maps: what one of them has that the
  other does not have as it is.

  Key definitions include:
    * `departing`
    * `leavers`
    * `comers`
    * `changers`

  Key theorems include:
    * `mem_departing_only_iff`
    * `mem_leavers`
    * `mem_comers`
    * `mem_changers`
    * `eq_of_unchanged`
-/

namespace SnapTree

variable {κ β : Type}
variable {cmp : κ → κ → Ordering}
variable [Std.TransCmp cmp] [Std.LawfulEqCmp cmp]

/- Maps are the same if they list the same entries. -/
instance decidableEqExtTreeMap
    [DecidableEq κ]
    [DecidableEq β] :
    DecidableEq (Std.ExtTreeMap κ β cmp) :=
  fun _ _ => decidable_of_iff _ Std.ExtTreeMap.toList_inj

variable [DecidableEq β]

/- The entries of a map that another does not have as they are. -/
def departing
    (p q : Std.ExtTreeMap κ β cmp) : Std.ExtTreeMap κ β cmp :=
  p.filter (fun k v => q[k]? ≠ some v)

variable {p q : Std.ExtTreeMap κ β cmp} {k : κ} {v : β}

theorem getElem?_departing :
    (departing p q)[k]? = some v ↔
      p[k]? = some v ∧ q[k]? ≠ some v := by
  unfold departing
  rw [Std.ExtTreeMap.getElem?_filter',
    Option.filter_eq_some_iff, decide_eq_true_eq]

theorem mem_departing :
    k ∈ departing p q ↔
      ∃ v, p[k]? = some v ∧ q[k]? ≠ some v := by
  rw [mem_iff_exists_getElem?]
  constructor
  · rintro ⟨v, hV⟩
    exact ⟨v, getElem?_departing.1 hV⟩
  · rintro ⟨v, hV⟩
    exact ⟨v, getElem?_departing.2 hV⟩

theorem mem_toList_departing :
    (k, v) ∈ (departing p q).toList ↔
      p[k]? = some v ∧ q[k]? ≠ some v := by
  rw [Std.ExtTreeMap.mem_toList_iff_getElem?_eq_some,
    getElem?_departing]

/- Nothing departs where nothing differs. -/
theorem departing_self :
    departing p p = ∅ := by
  apply Std.ExtTreeMap.ext_getElem?
  intro k
  apply Option.ext
  intro v
  rw [getElem?_departing]
  simp

/- What departs and does not arrive is only on the first side. -/
theorem mem_departing_only_iff :
    k ∈ departing p q ∧ k ∉ departing q p ↔
      k ∈ p ∧ k ∉ q := by
  rw [mem_departing, mem_departing]
  constructor
  · rintro ⟨⟨v, hV, hNot⟩, hNone⟩
    refine ⟨mem_of_getElem? hV, ?_⟩
    intro hMem
    rcases mem_iff_exists_getElem?.1 hMem with ⟨w, hW⟩
    apply hNone
    refine ⟨w, hW, ?_⟩
    rintro hSame
    rw [hW, ← hSame, hV] at hNot
    exact hNot rfl
  · rintro ⟨hMem, hNot⟩
    rcases mem_iff_exists_getElem?.1 hMem with ⟨v, hV⟩
    have hAbsent : q[k]? = none := by
      rw [Std.ExtTreeMap.mem_iff_isSome_getElem?,
        Option.not_isSome_iff_eq_none] at hNot
      exact hNot
    refine ⟨⟨v, hV, by simp [hAbsent]⟩, ?_⟩
    rintro ⟨w, hW, -⟩
    rw [hAbsent] at hW
    cases hW

------------------------------------------------------------
-- What leaves, what comes and what changes
------------------------------------------------------------

variable {key : β → κ}

/- The keys of the first side that the second lacks. -/
def leavers
    (p q : Std.ExtTreeMap κ β cmp) : List κ :=
  (departing p q).keys.filter
    (fun k => !(departing q p).contains k)

/- The values of the second side whose keys the first lacks. -/
def comers
    (p q : Std.ExtTreeMap κ β cmp) : List β :=
  ((departing q p).toList.filter
    (fun entry => !(departing p q).contains entry.1)).map Prod.snd

/- The values that have a key in common, but are different. -/
def changers
    (p q : Std.ExtTreeMap κ β cmp) : List (β × β) :=
  (departing q p).toList.filterMap
    (fun entry =>
      ((departing p q)[entry.1]?).map (fun v => (v, entry.2)))

theorem mem_leavers :
    k ∈ leavers p q ↔ k ∈ p ∧ k ∉ q := by
  rw [← mem_departing_only_iff]
  unfold leavers
  rw [List.mem_filter, Std.ExtTreeMap.mem_keys,
    Bool.not_eq_true', ← Bool.not_eq_true,
    Std.ExtTreeMap.contains_iff_mem]

omit [Std.LawfulEqCmp cmp] in
theorem nodup_leavers :
    (leavers p q).Nodup :=
  Std.ExtTreeMap.nodup_keys.filter _

theorem mem_comers
    (hKeyed : IsKeyed key q) :
    v ∈ comers p q ↔ q[key v]? = some v ∧ key v ∉ p := by
  have hOnly :
      ∀ (k : κ) (v : β), q[k]? = some v →
        ((p[k]? ≠ some v ∧ k ∉ departing p q) ↔ k ∉ p) := by
    intro k v hV
    have hMem : k ∈ q :=
      mem_of_getElem? hV
    have hOnly := mem_departing_only_iff (p := q) (q := p) (k := k)
    rw [mem_departing] at hOnly
    constructor
    · rintro ⟨hNe, hNot⟩
      exact (hOnly.1 ⟨⟨v, hV, hNe⟩, hNot⟩).2
    · intro hNot
      rcases hOnly.2 ⟨hMem, hNot⟩ with ⟨⟨w, hW, hNe⟩, hAway⟩
      rw [hV] at hW
      rw [Option.some.inj hW]
      exact ⟨hNe, hAway⟩
  unfold comers
  rw [List.mem_map]
  constructor
  · rintro ⟨⟨k, w⟩, hEntry, rfl⟩
    rw [List.mem_filter, mem_toList_departing,
      Bool.not_eq_true', ← Bool.not_eq_true,
      Std.ExtTreeMap.contains_iff_mem] at hEntry
    rcases hEntry with ⟨⟨hV, hNe⟩, hNot⟩
    dsimp only at hV hNot ⊢
    rw [hKeyed k w hV]
    exact ⟨hV, (hOnly k w hV).1 ⟨hNe, hNot⟩⟩
  · rintro ⟨hV, hNot⟩
    rcases (hOnly (key v) v hV).2 hNot with ⟨hNe, hAway⟩
    refine ⟨(key v, v), ?_, rfl⟩
    rw [List.mem_filter, mem_toList_departing,
      Bool.not_eq_true', ← Bool.not_eq_true,
      Std.ExtTreeMap.contains_iff_mem]
    exact ⟨⟨hV, hNe⟩, hAway⟩

/- Nothing comes where nothing differs. -/
theorem comers_self :
    comers p p = [] := by
  unfold comers
  rw [departing_self, Std.ExtTreeMap.toList_eq_nil_iff.2 rfl]
  rfl

theorem nodup_comers
    (hKeyed : IsKeyed key q) :
    ((comers p q).map key).Nodup := by
  have hKeys :
      (comers p q).map key =
        ((departing q p).toList.filter
          (fun entry =>
            !(departing p q).contains entry.1)).map Prod.fst := by
    unfold comers
    rw [List.map_map]
    apply List.map_congr_left
    rintro ⟨k, w⟩ hEntry
    have hMem := List.mem_of_mem_filter hEntry
    exact hKeyed k w (mem_toList_departing.1 hMem).1
  rw [hKeys]
  apply List.Nodup.sublist (List.filter_sublist.map Prod.fst)
  rw [Std.ExtTreeMap.map_fst_toList_eq_keys]
  exact Std.ExtTreeMap.nodup_keys

theorem mem_changers
    (hP : IsKeyed key p)
    {w : β} :
    (v, w) ∈ changers p q ↔
      p[key v]? = some v ∧ q[key v]? = some w ∧ v ≠ w := by
  unfold changers
  rw [List.mem_filterMap]
  constructor
  · rintro ⟨⟨k, w'⟩, hEntry, hPair⟩
    have hW := (mem_toList_departing.1 hEntry).1
    rw [Option.map_eq_some_iff] at hPair
    rcases hPair with ⟨v', hV, hSame⟩
    rcases Prod.mk.inj hSame with ⟨rfl, rfl⟩
    rcases getElem?_departing.1 hV with ⟨hV, hNe⟩
    dsimp only at hW hV hNe
    rw [hP k v' hV]
    refine ⟨hV, hW, ?_⟩
    rintro rfl
    exact hNe hW
  · rintro ⟨hV, hW, hNe⟩
    refine ⟨(key v, w), ?_, ?_⟩
    · rw [mem_toList_departing, hV]
      refine ⟨hW, ?_⟩
      rintro ⟨⟩
      exact hNe rfl
    · have hAway : (departing p q)[key v]? = some v := by
        rw [getElem?_departing, hW]
        refine ⟨hV, ?_⟩
        rintro ⟨⟩
        exact hNe rfl
      dsimp only
      rw [hAway]
      rfl

/- A value that changes keeps its key. -/
theorem key_eq_of_mem_changers
    (hP : IsKeyed key p)
    (hQ : IsKeyed key q)
    {w : β}
    (hMem : (v, w) ∈ changers p q) :
    key w = key v :=
  hQ (key v) w ((mem_changers hP).1 hMem).2.1

/- So what changes has the same keys on both sides. -/
theorem map_key_changers
    (hP : IsKeyed key p)
    (hQ : IsKeyed key q) :
    (changers p q).map (fun pair => key pair.2) =
      (changers p q).map (fun pair => key pair.1) := by
  apply List.map_congr_left
  rintro ⟨v, w⟩ hPair
  exact key_eq_of_mem_changers hP hQ hPair

/- No two values that change have the same key. -/
theorem nodup_changers
    (hQ : IsKeyed key q) :
    ((changers p q).map (fun pair => key pair.2)).Nodup := by
  unfold changers List.Nodup
  rw [List.pairwise_map, List.pairwise_filterMap]
  apply Std.ExtTreeMap.distinct_keys_toList.imp_of_mem
  rintro ⟨k, w⟩ ⟨l, x⟩ hW hX hNe pair hPair pair' hPair' hSame
  rcases Option.map_eq_some_iff.1 hPair with ⟨v, -, rfl⟩
  rcases Option.map_eq_some_iff.1 hPair' with ⟨v', -, rfl⟩
  apply hNe
  rw [Std.LawfulEqCmp.compare_eq_iff_eq]
  dsimp only
  rw [← hQ k w (mem_toList_departing.1 hW).1,
    ← hQ l x (mem_toList_departing.1 hX).1]
  exact hSame

/- The values that come are those whose keys are new. -/
theorem comers_eq
    (hKeyed : IsKeyed key q) :
    comers p q =
      (q.toList.map Prod.snd).filter
        (fun v => !p.contains (key v)) := by
  have hNew :
      ∀ (k : κ) (v : β), q[k]? = some v →
        ((k ∉ departing p q ∧ p[k]? ≠ some v) ↔ k ∉ p) := by
    intro k v hV
    have hHere : k ∈ q :=
      mem_of_getElem? hV
    constructor
    · rintro ⟨hAway, hNe⟩
      have hArrives : k ∈ departing q p :=
        mem_departing.2 ⟨v, hV, hNe⟩
      exact (mem_departing_only_iff.1 ⟨hArrives, hAway⟩).2
    · intro hNot
      rcases mem_departing_only_iff.2 ⟨hHere, hNot⟩ with
        ⟨hArrives, hAway⟩
      refine ⟨hAway, ?_⟩
      rcases mem_departing.1 hArrives with ⟨w, hW, hNe⟩
      rw [hV] at hW
      rw [Option.some.inj hW]
      exact hNe
  unfold comers
  rw [List.filter_map, show (departing q p).toList =
    q.toList.filter (fun entry => p[entry.1]? ≠ some entry.2) from
      Std.ExtTreeMap.toList_filter, List.filter_filter]
  congr 1
  apply List.filter_congr
  rintro ⟨k, v⟩ hEntry
  have hV :=
    Std.ExtTreeMap.mem_toList_iff_getElem?_eq_some.1 hEntry
  dsimp only [Function.comp]
  rw [hKeyed k v hV, Bool.eq_iff_iff, Bool.and_eq_true,
    decide_eq_true_eq, Bool.not_eq_true', Bool.not_eq_true',
    ← Bool.not_eq_true, ← Bool.not_eq_true,
    Std.ExtTreeMap.contains_iff_mem,
    Std.ExtTreeMap.contains_iff_mem]
  exact hNew k v hV

/- The values that change are those that differ under a key. -/
theorem changers_eq
    (hKeyed : IsKeyed key q) :
    changers p q =
      (q.toList.map Prod.snd).filterMap
        (fun w =>
          (p[key w]?.filter (fun v => decide (v ≠ w))).map
            (fun v => (v, w))) := by
  unfold changers
  rw [show (departing q p).toList =
    q.toList.filter (fun entry => p[entry.1]? ≠ some entry.2) from
      Std.ExtTreeMap.toList_filter, List.filterMap_filter,
    List.filterMap_map]
  apply List.filterMap_congr
  rintro ⟨k, w⟩ hEntry
  have hW :=
    Std.ExtTreeMap.mem_toList_iff_getElem?_eq_some.1 hEntry
  dsimp only [Function.comp]
  rw [hKeyed k w hW]
  cases hV : p[k]? with
  | none =>
      have hNot : (departing p q)[k]? = none := by
        apply Option.eq_none_iff_forall_ne_some.2
        intro v hAway
        rw [(getElem?_departing.1 hAway).1] at hV
        cases hV
      simp [hNot]
  | some v =>
      by_cases hSame : v = w
      · simp [hSame, Option.filter_some]
      · have hAway : (departing p q)[k]? = some v := by
          rw [getElem?_departing, hV, hW]
          exact ⟨rfl, fun hBoth =>
            hSame (Option.some.inj hBoth).symm⟩
        simp [hAway, hSame, Option.filter_some]

/- The keys of the values that change. -/
theorem mem_map_key_changers
    (hP : IsKeyed key p)
    (hQ : IsKeyed key q) :
    k ∈ (changers p q).map (fun pair => key pair.2) ↔
      ∃ v w, p[k]? = some v ∧ q[k]? = some w ∧ v ≠ w := by
  rw [List.mem_map]
  constructor
  · rintro ⟨⟨v, w⟩, hPair, rfl⟩
    dsimp only
    rw [key_eq_of_mem_changers hP hQ hPair]
    exact ⟨v, w, (mem_changers hP).1 hPair⟩
  · rintro ⟨v, w, hV, hW, hNe⟩
    refine ⟨(v, w), ?_, hQ k w hW⟩
    have hKey := hP k v hV
    subst hKey
    exact (mem_changers hP).2 ⟨hV, hW, hNe⟩

/- The values that come, each under its key. -/
theorem filter_toList_departing
    {γ : Type}
    (hKeyed : IsKeyed key q)
    (value : β → γ) :
    ((departing q p).map (fun _ v => value v)).toList.filter
        (fun entry => !(departing p q).contains entry.1) =
      (comers p q).map (fun v => (key v, value v)) := by
  unfold comers
  rw [Std.ExtTreeMap.toList_map, List.filter_map, List.map_map]
  apply List.map_congr_left
  rintro ⟨k, v⟩ hEntry
  have hMem := List.mem_of_mem_filter hEntry
  have hKey := hKeyed k v (mem_toList_departing.1 hMem).1
  dsimp only [Function.comp]
  rw [hKey]

omit [Std.LawfulEqCmp cmp] in
/- The keys that go, where values on the other side differ. -/
theorem filter_keys_departing_only
    {γ : Type}
    (value : β → γ) :
    (departing p q).keys.filter
        (fun k =>
          !((departing q p).map
            (fun _ v => value v)).contains k) =
      leavers p q := by
  unfold leavers
  apply List.filter_congr
  intro k _
  rw [Std.ExtTreeMap.contains_map]

/- The values that change, in the order of their keys. -/
theorem filter_entries_departing
    (hKeyed : IsKeyed key q) :
    (departing q p).toList.filter
        (fun entry => (departing p q).contains entry.1) =
      (changers p q).map (fun pair => (key pair.2, pair.2)) := by
  unfold changers
  rw [← List.filterMap_eq_filter, ← List.filterMap_eq_map,
    List.filterMap_filterMap]
  apply List.filterMap_congr
  rintro ⟨k, w⟩ hEntry
  have hKey := hKeyed k w (mem_toList_departing.1 hEntry).1
  simp only [Option.guard,
    Std.ExtTreeMap.contains_eq_isSome_getElem?]
  cases hV : (departing p q)[k]? with
  | none => rfl
  | some v => simp [hKey]

/- The keys of the values that change, in their order. -/
theorem filter_keys_departing
    (hKeyed : IsKeyed key q) :
    (departing q p).keys.filter
        (fun k => (departing p q).contains k) =
      (changers p q).map (fun pair => key pair.2) := by
  have hEntries := congrArg (List.map Prod.fst)
    (filter_entries_departing (p := p) hKeyed)
  rw [List.map_map] at hEntries
  rw [← Std.ExtTreeMap.map_fst_toList_eq_keys, List.filter_map]
  exact hEntries

/- What the values that change are mapped to, each under its key. -/
theorem filter_toList_departing_changers
    {γ : Type}
    (hKeyed : IsKeyed key q)
    (value : β → γ) :
    ((departing q p).map (fun _ v => value v)).toList.filter
        (fun entry => (departing p q).contains entry.1) =
      (changers p q).map
        (fun pair => (key pair.2, value pair.2)) := by
  have hEntries := congrArg
    (List.map (fun entry => (entry.1, value entry.2)))
    (filter_entries_departing (p := p) hKeyed)
  rw [List.map_map] at hEntries
  rw [Std.ExtTreeMap.toList_map, List.filter_map]
  exact hEntries

/- Where nothing goes, comes or changes, nothing differs. -/
theorem eq_of_unchanged
    (hP : IsKeyed key p)
    (hQ : IsKeyed key q)
    (hGone : comers q p = [])
    (hNew : comers p q = [])
    (hSame : changers p q = []) :
    p = q := by
  have hStays :
      ∀ (k : κ) (v : β), p[k]? = some v → q[k]? = some v := by
    intro k v hV
    have hKey := hP k v hV
    subst hKey
    cases hW : q[key v]? with
    | none =>
        have hGoes : v ∈ comers q p := by
          rw [mem_comers hP, Std.ExtTreeMap.mem_iff_isSome_getElem?,
            hW]
          exact ⟨hV, Bool.false_ne_true⟩
        rw [hGone] at hGoes
        cases hGoes
    | some w =>
        by_contra hNe
        have hChanges : (v, w) ∈ changers p q := by
          rw [mem_changers hP]
          refine ⟨hV, hW, ?_⟩
          rintro rfl
          exact hNe rfl
        rw [hSame] at hChanges
        cases hChanges
  apply Std.ExtTreeMap.ext_getElem?
  intro k
  apply Option.ext
  intro v
  refine ⟨hStays k v, fun hV => ?_⟩
  cases hHere : p[k]? with
  | none =>
      have hKey := hQ k v hV
      subst hKey
      have hComes : v ∈ comers p q := by
        rw [mem_comers hQ, Std.ExtTreeMap.mem_iff_isSome_getElem?,
          hHere]
        exact ⟨hV, Bool.false_ne_true⟩
      rw [hNew] at hComes
      cases hComes
  | some w =>
      rw [← hStays k w hHere, hV]

omit [Std.LawfulEqCmp cmp] in
/- What is done for each change is done for what arrives. -/
theorem foldlM_changers
    {m : Type → Type}
    {γ : Type}
    [Monad m]
    [LawfulMonad m]
    (f : γ → β → β → m γ)
    (o : γ) :
    (changers p q).foldlM (fun o pair => f o pair.1 pair.2) o =
      (departing q p).toList.foldlM
        (fun o entry =>
          match (departing p q)[entry.1]? with
          | none => pure o
          | some v => f o v entry.2)
        o := by
  unfold changers
  rw [List.foldlM_filterMap]
  congr 1
  funext o entry
  cases (departing p q)[entry.1]? <;> rfl

end SnapTree
