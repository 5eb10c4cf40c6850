import SnapTree.Proofs.Data.Departing

/-
  This file describes lists by what they list: all things that
  have some property, each once, by ascending key.  There is
  only one such list, so two lists that are worked out in
  different ways are compared by their members.

  What leaves, comes and changes between two maps is listed in
  this way, and the other way round it is the same.

  Key definitions include:
    * `ListsAscending`

  Key theorems include:
    * `ListsAscending.unique`
    * `listsAscending_leavers`
    * `listsAscending_comers`
    * `listsAscending_changers`
    * `listsAscending_keys_changers`
    * `leavers_eq`
    * `changers_swap`
    * `map_snd_changers`
-/

namespace SnapTree

------------------------------------------------------------
-- Ascending lists
------------------------------------------------------------

/- All things with a property, each once, by ascending key. -/
structure ListsAscending
    {κ α : Type}
    [Ord κ]
    (key : α → κ)
    (xs : List α)
    (holds : α → Prop) : Prop where
  ascending :
    xs.Pairwise (fun x y => compare (key x) (key y) = .lt)
  mem_iff : ∀ x, x ∈ xs ↔ holds x

variable {κ α β : Type}
variable [Ord κ] [Std.TransOrd κ]

namespace ListsAscending

variable
  {key : α → κ}
  {xs ys : List α}
  {holds : α → Prop}

/- No key is listed twice. -/
theorem nodup_keys
    (hLists : ListsAscending key xs holds) :
    (xs.map key).Nodup := by
  unfold List.Nodup
  rw [List.pairwise_map]
  apply hLists.ascending.imp
  intro x y hLess hSame
  rw [hSame, Std.ReflOrd.compare_self] at hLess
  cases hLess

theorem nodup
    (hLists : ListsAscending key xs holds) :
    xs.Nodup :=
  hLists.nodup_keys.of_map key

/- There is only one list of the things with a property. -/
theorem unique
    (hXs : ListsAscending key xs holds)
    (hYs : ListsAscending key ys holds) :
    xs = ys := by
  refine List.Perm.eq_of_pairwise (fun x y _ _ hXY hYX => ?_)
    hXs.ascending hYs.ascending ?_
  · exact absurd hYX (Std.OrientedCmp.not_lt_of_lt hXY)
  · rw [List.perm_ext_iff_of_nodup hXs.nodup hYs.nodup]
    intro x
    rw [hXs.mem_iff, hYs.mem_iff]

omit [Std.TransOrd κ] in
theorem congr
    {holds' : α → Prop}
    (hLists : ListsAscending key xs holds)
    (hSame : ∀ x, holds x ↔ holds' x) :
    ListsAscending key xs holds' where
  ascending := hLists.ascending
  mem_iff x := (hLists.mem_iff x).trans (hSame x)

omit [Std.TransOrd κ] in
theorem filter
    (hLists : ListsAscending key xs holds)
    (c : α → Bool) :
    ListsAscending key (xs.filter c)
      (fun x => holds x ∧ c x = true) where
  ascending := hLists.ascending.filter c
  mem_iff x := by
    rw [List.mem_filter, hLists.mem_iff]

omit [Std.TransOrd κ] in
/- What is made of the things listed, under the same keys. -/
theorem map
    {f : α → β}
    {key' : β → κ}
    (hLists : ListsAscending key xs holds)
    (hKey : ∀ x, holds x → key' (f x) = key x) :
    ListsAscending key' (xs.map f)
      (fun y => ∃ x, holds x ∧ f x = y) where
  ascending := by
    rw [List.pairwise_map]
    apply hLists.ascending.imp_of_mem
    intro x y hX hY hLess
    rw [hKey x ((hLists.mem_iff x).1 hX),
      hKey y ((hLists.mem_iff y).1 hY)]
    exact hLess
  mem_iff y := by
    rw [List.mem_map]
    constructor
    · rintro ⟨x, hX, hSame⟩
      exact ⟨x, (hLists.mem_iff x).1 hX, hSame⟩
    · rintro ⟨x, hX, hSame⟩
      exact ⟨x, (hLists.mem_iff x).2 hX, hSame⟩

/- The part of a list that has the keys of a sublist. -/
theorem filter_keys
    [DecidableEq κ]
    {holds' : α → Prop}
    (hXs : ListsAscending key xs holds)
    (hYs : ListsAscending key ys holds')
    (hSub : ∀ y ∈ ys, y ∈ xs) :
    xs.filter (fun x => key x ∈ ys.map key) = ys := by
  refine (hXs.filter _).unique (hYs.congr (fun x => ?_))
  rw [← hYs.mem_iff, ← hXs.mem_iff, decide_eq_true_iff]
  constructor
  · exact fun hMem => ⟨hSub x hMem, List.mem_map_of_mem hMem⟩
  · rintro ⟨hX, hKey⟩
    rcases List.mem_map.1 hKey with ⟨y, hY, hSame⟩
    rw [← List.inj_on_of_nodup_map hXs.nodup_keys
      (hSub y hY) hX hSame]
    exact hY

end ListsAscending

------------------------------------------------------------
-- The entries of maps
------------------------------------------------------------

variable [Std.LawfulEqOrd κ]

section

variable
  {key : β → κ}
  {p q : Std.ExtTreeMap κ β compare}

/- A map lists its values by their keys. -/
theorem listsAscending_values
    (hKeyed : IsKeyed key p) :
    ListsAscending key (p.toList.map Prod.snd)
      (fun v => p[key v]? = some v) where
  ascending := by
    rw [List.pairwise_map]
    apply Std.ExtTreeMap.ordered_keys_toList.imp_of_mem
    rintro ⟨k, v⟩ ⟨l, w⟩ hV hW hLess
    rw [Std.ExtTreeMap.mem_toList_iff_getElem?_eq_some]
      at hV hW
    dsimp only at hLess ⊢
    rw [hKeyed k v hV, hKeyed l w hW]
    exact hLess
  mem_iff v := by
    constructor
    · intro hMem
      rcases exists_key_of_mem_values hMem with ⟨k, hV⟩
      rw [hKeyed k v hV]
      exact hV
    · exact mem_values

variable [DecidableEq β]

theorem listsAscending_leavers :
    ListsAscending id (leavers p q)
      (fun k => k ∈ p ∧ k ∉ q) where
  ascending :=
    (Std.ExtTreeMap.ordered_keys (t := departing p q)).filter _
  mem_iff _ := mem_leavers

theorem listsAscending_comers
    (hKeyed : IsKeyed key q) :
    ListsAscending key (comers p q)
      (fun v => q[key v]? = some v ∧ key v ∉ p) where
  ascending := by
    rw [comers_eq hKeyed]
    exact (listsAscending_values hKeyed).ascending.filter _
  mem_iff _ := mem_comers hKeyed

theorem listsAscending_changers
    (hP : IsKeyed key p)
    (hQ : IsKeyed key q) :
    ListsAscending (fun pair : β × β => key pair.2)
      (changers p q)
      (fun pair =>
        p[key pair.1]? = some pair.1 ∧
          q[key pair.1]? = some pair.2 ∧
            pair.1 ≠ pair.2) where
  ascending := by
    unfold changers
    rw [List.pairwise_filterMap]
    apply Std.ExtTreeMap.ordered_keys_toList.imp_of_mem
    rintro ⟨k, w⟩ ⟨l, x⟩ hW hX hLess pair hPair pair' hPair'
    rcases Option.map_eq_some_iff.1 hPair with ⟨v, -, rfl⟩
    rcases Option.map_eq_some_iff.1 hPair' with ⟨v', -, rfl⟩
    dsimp only at hLess ⊢
    rw [hQ k w (mem_toList_departing.1 hW).1,
      hQ l x (mem_toList_departing.1 hX).1]
    exact hLess
  mem_iff _ := mem_changers hP

/- The keys of what changes. -/
theorem listsAscending_keys_changers
    (hP : IsKeyed key p)
    (hQ : IsKeyed key q) :
    ListsAscending id
      ((changers p q).map (fun pair => key pair.2))
      (fun k =>
        ∃ v w, p[k]? = some v ∧ q[k]? = some w ∧ v ≠ w) where
  ascending := by
    rw [List.pairwise_map]
    exact (listsAscending_changers hP hQ).ascending
  mem_iff _ := mem_map_key_changers hP hQ

/- What leaves one map comes when it is seen from the other. -/
theorem leavers_eq
    (hP : IsKeyed key p) :
    leavers p q = (comers q p).map key := by
  have hKeys :
      ListsAscending id ((comers q p).map key)
        (fun k => ∃ v, (p[key v]? = some v ∧ key v ∉ q) ∧
          key v = k) :=
    (listsAscending_comers hP).map (fun _ _ => rfl)
  refine listsAscending_leavers.unique (hKeys.congr (fun k => ?_))
  constructor
  · rintro ⟨v, ⟨hV, hNot⟩, rfl⟩
    exact ⟨mem_of_getElem? hV, hNot⟩
  · rintro ⟨hHere, hNot⟩
    rcases mem_iff_exists_getElem?.1 hHere with ⟨v, hV⟩
    have hKey := hP k v hV
    rw [← hKey] at hV hNot
    exact ⟨v, ⟨hV, hNot⟩, hKey⟩

/- What changes one way changes back the other way. -/
theorem changers_swap
    (hP : IsKeyed key p)
    (hQ : IsKeyed key q) :
    changers q p = (changers p q).map Prod.swap := by
  have hForth := listsAscending_changers hP hQ
  refine (listsAscending_changers hQ hP).unique
    ((hForth.map (fun pair hPair => ?_)).congr (fun pair => ?_))
  · have hKeys : key pair.2 = key pair.1 :=
      hQ (key pair.1) pair.2 hPair.2.1
    exact hKeys.symm
  · rcases pair with ⟨w, v⟩
    constructor
    · rintro ⟨⟨v', w'⟩, ⟨hV, hW, hNe⟩, hSame⟩
      rcases Prod.mk.inj hSame with ⟨rfl, rfl⟩
      dsimp only at hV hW hNe ⊢
      rw [hQ (key v') w' hW]
      exact ⟨hW, hV, hNe.symm⟩
    · rintro ⟨hW, hV, hNe⟩
      dsimp only at hV hW hNe
      refine ⟨(v, w), ⟨?_, ?_, hNe.symm⟩, rfl⟩
      · rw [hP (key w) v hV]
        exact hV
      · rw [hP (key w) v hV]
        exact hW

/- Nothing changes where nothing differs. -/
theorem changers_self :
    changers p p = [] := by
  unfold changers
  rw [departing_self, Std.ExtTreeMap.toList_eq_nil_iff.2 rfl]
  rfl

/- Whether a value stands for a different one under its key. -/
def isChanged
    (key : β → κ)
    (p : Std.ExtTreeMap κ β compare)
    (w : β) : Bool :=
  match p[key w]? with
  | none => false
  | some v => v != w

/- What the values that change become, in their order. -/
theorem map_snd_changers
    (hP : IsKeyed key p)
    (hQ : IsKeyed key q) :
    (changers p q).map Prod.snd =
      (q.toList.map Prod.snd).filter (isChanged key p) := by
  refine ((listsAscending_changers hP hQ).map
    (fun _ _ => rfl)).unique
      (((listsAscending_values hQ).filter _).congr
        (fun w => ?_))
  unfold isChanged
  constructor
  · rintro ⟨hW, hDiffers⟩
    cases hV : p[key w]? with
    | none => simp [hV] at hDiffers
    | some v =>
        have hKey := hP (key w) v hV
        rw [hV] at hDiffers
        refine ⟨(v, w), ⟨?_, ?_, by simpa using hDiffers⟩, rfl⟩
        · rw [hKey]
          exact hV
        · rw [hKey]
          exact hW
  · rintro ⟨⟨v, w'⟩, ⟨hV, hW, hNe⟩, rfl⟩
    dsimp only at hV hW hNe ⊢
    rw [hQ (key v) w' hW, hV]
    exact ⟨hW, by simpa using hNe⟩

end

end SnapTree
