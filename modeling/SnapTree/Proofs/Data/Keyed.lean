import SnapTree.Proofs.Data.Results
import Std.Data.ExtTreeMap
import Mathlib.Data.List.Nodup

/-
  This file proves facts about lists without repeats, about
  maps whose values know the keys they stand under, and about
  maps that are filled item by item.

  Key definitions include:
    * `IsKeyed`
    * `entering`
    * `erasing`

  Key theorems include:
    * `nodup_eraseDups`
    * `pairwise_idxOf_eraseDups`
    * `IsKeyed.toList_eq`
    * `IsKeyed.ext_values`
    * `mem_iff_exists_getElem?`
    * `getElem?_entering`
    * `entering_eq`
    * `foldlM_entering_eq_ok_iff`
    * `getElem?_erasing`
-/

namespace SnapTree

------------------------------------------------------------
-- Lists without repeats
------------------------------------------------------------

/- Items that a function gives come of some items of a list. -/
theorem exists_map_eq
    {α β : Type}
    {f : α → β}
    {xs : List α}
    {ys : List β}
    (hListed : ∀ y ∈ ys, ∃ x ∈ xs, f x = y) :
    ∃ zs : List α, zs.map f = ys ∧ ∀ z ∈ zs, z ∈ xs := by
  induction ys with
  | nil => exact ⟨[], rfl, by simp⟩
  | cons y ys ih =>
      rcases hListed y List.mem_cons_self with ⟨x, hX, hSame⟩
      rcases ih
          (fun z hZ => hListed z (List.mem_cons_of_mem _ hZ)) with
        ⟨zs, hMap, hZs⟩
      refine ⟨x :: zs, ?_, ?_⟩
      · rw [List.map_cons, hSame, hMap]
      · exact List.forall_mem_cons.2 ⟨hX, hZs⟩

/- An item to come is one of the list. -/
theorem mem_of_later
    {α : Type}
    {xs done rest : List α}
    {x : α}
    (hSplit : xs = done ++ x :: rest) :
    x ∈ xs := by
  rw [hSplit]
  exact List.mem_append_right _ List.mem_cons_self

/- The items before it are some of the list, in order. -/
theorem sublist_of_later
    {α : Type}
    {xs done rest : List α}
    {x : α}
    (hSplit : xs = done ++ x :: rest) :
    done.Sublist xs := by
  rw [hSplit]
  exact List.sublist_append_left _ _

/- In a list without repeats, an item to come is new. -/
theorem notMem_of_later
    {α : Type}
    {xs done rest : List α}
    {x : α}
    (hNodup : xs.Nodup)
    (hSplit : xs = done ++ x :: rest) :
    x ∉ done := by
  rw [hSplit, List.nodup_append] at hNodup
  intro hOld
  exact hNodup.2.2 _ hOld _ List.mem_cons_self rfl

/- An image without repeats shows that items to come are new. -/
theorem notMem_map_of_later
    {α β : Type}
    {f : α → β}
    {xs done rest : List α}
    {x : α}
    (hNodup : (xs.map f).Nodup)
    (hSplit : xs = done ++ x :: rest) :
    f x ∉ done.map f := by
  apply notMem_of_later hNodup
  rw [hSplit, List.map_append, List.map_cons]

section Lists

variable {α : Type} [BEq α] [LawfulBEq α]

omit [LawfulBEq α] in
/- Repeats are erased item by item, each from all that follow. -/
theorem eraseDups_induction
    {motive : List α → Prop}
    (nil : motive [])
    (cons :
      ∀ x xs, motive (xs.filter (fun b => !b == x)) →
        motive (x :: xs))
    (xs : List α) :
    motive xs := by
  induction hLength : xs.length using Nat.strongRecOn
    generalizing xs with
  | ind n ih =>
      cases xs with
      | nil => exact nil
      | cons x xs =>
          apply cons
          refine ih _ ?_ _ rfl
          have hFilter :=
            List.length_filter_le (fun b => !b == x) xs
          rw [← hLength, List.length_cons]
          omega

/- Nothing is listed twice once repeats are erased. -/
theorem nodup_eraseDups
    (xs : List α) :
    xs.eraseDups.Nodup := by
  induction xs using eraseDups_induction with
  | nil => simp
  | cons x xs ih =>
      rw [List.eraseDups_cons, List.nodup_cons]
      refine ⟨?_, ih⟩
      rw [List.mem_eraseDups, List.mem_filter]
      simp

/- What is left out of a list does not change who comes first. -/
theorem idxOf_lt_of_filter
    {p : α → Bool}
    {xs : List α}
    {a b : α}
    (hB : p b = true)
    (hLess : (xs.filter p).idxOf a < (xs.filter p).idxOf b) :
    xs.idxOf a < xs.idxOf b := by
  induction xs with
  | nil => simp at hLess
  | cons x xs ih =>
      rw [List.filter_cons] at hLess
      by_cases hSameA : x = a
      · have hNe : x ≠ b := by
          rintro rfl
          rw [hSameA] at hLess
          exact absurd hLess (Nat.lt_irrefl _)
        rw [List.idxOf_cons_eq _ hSameA, List.idxOf_cons_ne _ hNe]
        omega
      · by_cases hSameB : x = b
        · rw [hSameB, if_pos hB, List.idxOf_cons_self] at hLess
          omega
        · rw [List.idxOf_cons_ne _ hSameA,
            List.idxOf_cons_ne _ hSameB]
          split at hLess
          · rw [List.idxOf_cons_ne _ hSameA,
              List.idxOf_cons_ne _ hSameB] at hLess
            have hRest := ih (by omega)
            omega
          · have hRest := ih hLess
            omega

/- Once repeats are erased, members come as they came first. -/
theorem pairwise_idxOf_eraseDups
    (xs : List α) :
    xs.eraseDups.Pairwise
      (fun a b => xs.idxOf a < xs.idxOf b) := by
  induction xs using eraseDups_induction with
  | nil => simp
  | cons x xs ih =>
      have hNe :
          ∀ y ∈ (xs.filter (fun b => !b == x)).eraseDups,
            x ≠ y ∧ (!y == x) = true := by
        intro y hY
        rw [List.mem_eraseDups, List.mem_filter] at hY
        refine ⟨?_, hY.2⟩
        rintro rfl
        simp at hY
      rw [List.eraseDups_cons, List.pairwise_cons]
      constructor
      · intro y hY
        rw [List.idxOf_cons_self,
          List.idxOf_cons_ne _ (hNe y hY).1]
        omega
      · apply ih.imp_of_mem
        intro a b hA hB hLess
        have hRest : xs.idxOf a < xs.idxOf b :=
          idxOf_lt_of_filter (p := fun b => !b == x)
            (hNe b hB).2 hLess
        rw [List.idxOf_cons_ne _ (hNe a hA).1,
          List.idxOf_cons_ne _ (hNe b hB).1]
        omega

/- A list without repeats has none to erase. -/
theorem eraseDups_eq_self
    {xs : List α}
    (hNodup : xs.Nodup) :
    xs.eraseDups = xs := by
  induction xs with
  | nil => rfl
  | cons x xs ih =>
      rcases List.nodup_cons.1 hNodup with ⟨hNotMem, hTail⟩
      have hFilter : xs.filter (fun b => !b == x) = xs := by
        apply List.filter_eq_self.2
        intro y hY
        have hNe : y ≠ x := fun hEq => hNotMem (hEq ▸ hY)
        simpa using hNe
      rw [List.eraseDups_cons, hFilter, ih hTail]

end Lists

------------------------------------------------------------
-- Maps
------------------------------------------------------------

section Maps

variable {κ β : Type}
variable {cmp : κ → κ → Ordering}
variable [Std.TransCmp cmp] [Std.LawfulEqCmp cmp]
variable {key : β → κ}

/- Every value of a map stands under its own key. -/
def IsKeyed
    (key : β → κ)
    (m : Std.ExtTreeMap κ β cmp) : Prop :=
  ∀ (k : κ) (v : β), m[k]? = some v → key v = k

namespace IsKeyed

/- The entries of a keyed map are its values with their keys. -/
theorem toList_eq
    {m : Std.ExtTreeMap κ β cmp}
    (hKeyed : IsKeyed key m) :
    m.toList = (m.toList.map Prod.snd).map
      (fun v => (key v, v)) := by
  rw [List.map_map]
  have hSame :
      ∀ entry ∈ m.toList,
        ((fun v => (key v, v)) ∘ Prod.snd) entry = entry := by
    rintro ⟨k, v⟩ hEntry
    have hV :=
      Std.ExtTreeMap.mem_toList_iff_getElem?_eq_some.1 hEntry
    simp [hKeyed k v hV]
  rw [List.map_congr_left hSame, List.map_id']

/- No two values of a keyed map have the same key. -/
theorem nodup_values
    {m : Std.ExtTreeMap κ β cmp}
    (hKeyed : IsKeyed key m) :
    ((m.toList.map Prod.snd).map key).Nodup := by
  have hKeys :
      (m.toList.map Prod.snd).map key = m.keys := by
    rw [← Std.ExtTreeMap.map_fst_toList_eq_keys, List.map_map]
    apply List.map_congr_left
    rintro ⟨k, v⟩ hEntry
    exact hKeyed k v
      (Std.ExtTreeMap.mem_toList_iff_getElem?_eq_some.1 hEntry)
  rw [hKeys]
  exact Std.ExtTreeMap.nodup_keys

/- Keyed maps are told apart by their values. -/
theorem ext_values
    {m m' : Std.ExtTreeMap κ β cmp}
    (hKeyed : IsKeyed key m)
    (hKeyed' : IsKeyed key m')
    (hValues :
      m.toList.map Prod.snd = m'.toList.map Prod.snd) :
    m = m' := by
  rw [← Std.ExtTreeMap.toList_inj, hKeyed.toList_eq,
    hKeyed'.toList_eq, hValues]

end IsKeyed

omit [Std.LawfulEqCmp cmp] in
/- A key is in a map if something stands under it. -/
theorem mem_iff_exists_getElem?
    {m : Std.ExtTreeMap κ β cmp}
    {k : κ} :
    k ∈ m ↔ ∃ v, m[k]? = some v := by
  rw [Std.ExtTreeMap.mem_iff_isSome_getElem?,
    Option.isSome_iff_exists]

omit [Std.LawfulEqCmp cmp] in
theorem mem_of_getElem?
    {m : Std.ExtTreeMap κ β cmp}
    {k : κ}
    {v : β}
    (hV : m[k]? = some v) :
    k ∈ m :=
  mem_iff_exists_getElem?.2 ⟨v, hV⟩

/- A value of a map is one of its listed values. -/
theorem mem_values
    {m : Std.ExtTreeMap κ β cmp}
    {k : κ}
    {v : β}
    (hV : m[k]? = some v) :
    v ∈ m.toList.map Prod.snd :=
  List.mem_map.2
    ⟨(k, v),
      Std.ExtTreeMap.mem_toList_iff_getElem?_eq_some.2 hV,
      rfl⟩

/- A listed value of a map stands under some key. -/
theorem exists_key_of_mem_values
    {m : Std.ExtTreeMap κ β cmp}
    {v : β}
    (hMem : v ∈ m.toList.map Prod.snd) :
    ∃ k : κ, m[k]? = some v := by
  rcases List.mem_map.1 hMem with ⟨⟨k, w⟩, hEntry, rfl⟩
  exact ⟨k,
    Std.ExtTreeMap.mem_toList_iff_getElem?_eq_some.1 hEntry⟩

------------------------------------------------------------
-- Filling a map
------------------------------------------------------------

variable {α : Type}
variable {key : α → κ}
variable {value : α → β}

/- A map with the values of items put under their keys. -/
def entering
    (key : α → κ)
    (value : α → β)
    (m : Std.ExtTreeMap κ β cmp)
    (xs : List α) : Std.ExtTreeMap κ β cmp :=
  xs.foldl (fun m x => m.insert (key x) (value x)) m

omit [Std.LawfulEqCmp cmp] in
@[simp]
theorem entering_nil
    (m : Std.ExtTreeMap κ β cmp) :
    entering key value m [] = m :=
  rfl

omit [Std.LawfulEqCmp cmp] in
theorem entering_cons
    (m : Std.ExtTreeMap κ β cmp)
    (x : α)
    (xs : List α) :
    entering key value m (x :: xs) =
      entering key value (m.insert (key x) (value x)) xs :=
  rfl

omit [Std.LawfulEqCmp cmp] in
theorem entering_concat
    (m : Std.ExtTreeMap κ β cmp)
    (xs : List α)
    (x : α) :
    entering key value m (xs ++ [x]) =
      (entering key value m xs).insert (key x) (value x) := by
  unfold entering
  rw [List.foldl_append]
  rfl

/- Nothing changes under keys that no item has. -/
theorem getElem?_entering_of_notMem
    {m : Std.ExtTreeMap κ β cmp}
    {xs : List α}
    {k : κ}
    (hNotMem : k ∉ xs.map key) :
    (entering key value m xs)[k]? = m[k]? := by
  induction xs generalizing m with
  | nil => rfl
  | cons x xs ih =>
      rw [List.map_cons, List.mem_cons, not_or] at hNotMem
      rw [entering_cons, ih hNotMem.2,
        Std.ExtTreeMap.getElem?_insert, if_neg]
      intro hSame
      exact hNotMem.1
        (Std.LawfulEqCmp.eq_of_compare hSame).symm

/- The value of every item stands under its key. -/
theorem getElem?_entering_of_mem
    {m : Std.ExtTreeMap κ β cmp}
    {xs : List α}
    (hNodup : (xs.map key).Nodup)
    {x : α}
    (hMem : x ∈ xs) :
    (entering key value m xs)[key x]? = some (value x) := by
  induction xs generalizing m with
  | nil => simp at hMem
  | cons y ys ih =>
      rw [List.map_cons, List.nodup_cons] at hNodup
      rw [entering_cons]
      rcases List.mem_cons.1 hMem with rfl | hTail
      · rw [getElem?_entering_of_notMem hNodup.1]
        simp
      · exact ih hNodup.2 hTail

/- What a map holds once items were entered. -/
theorem getElem?_entering
    {m : Std.ExtTreeMap κ β cmp}
    {xs : List α}
    (hNodup : (xs.map key).Nodup)
    {k : κ}
    {v : β} :
    (entering key value m xs)[k]? = some v ↔
      (∃ x ∈ xs, key x = k ∧ value x = v) ∨
        (k ∉ xs.map key ∧ m[k]? = some v) := by
  by_cases hMem : k ∈ xs.map key
  · rcases List.mem_map.1 hMem with ⟨x, hX, rfl⟩
    rw [getElem?_entering_of_mem hNodup hX]
    constructor
    · intro hSome
      exact Or.inl ⟨x, hX, rfl, Option.some.inj hSome⟩
    · rintro (⟨y, hY, hKey, rfl⟩ | ⟨hNot, -⟩)
      · rw [List.inj_on_of_nodup_map hNodup hY hX hKey]
      · exact absurd hMem hNot
  · rw [getElem?_entering_of_notMem hMem]
    constructor
    · intro hOld
      exact Or.inr ⟨hMem, hOld⟩
    · rintro (⟨x, hX, rfl, -⟩ | ⟨-, hOld⟩)
      · exact absurd (List.mem_map_of_mem hX) hMem
      · exact hOld

theorem mem_entering
    {m : Std.ExtTreeMap κ β cmp}
    {xs : List α}
    {k : κ} :
    k ∈ entering key value m xs ↔ k ∈ xs.map key ∨ k ∈ m := by
  induction xs generalizing m with
  | nil => simp
  | cons x xs ih =>
      rw [entering_cons, ih, Std.ExtTreeMap.mem_insert,
        Std.LawfulEqCmp.compare_eq_iff_eq, List.map_cons,
        List.mem_cons]
      constructor
      · rintro (hTail | rfl | hOld)
        · exact Or.inl (Or.inr hTail)
        · exact Or.inl (Or.inl rfl)
        · exact Or.inr hOld
      · rintro ((rfl | hTail) | hOld)
        · exact Or.inr (Or.inl rfl)
        · exact Or.inl hTail
        · exact Or.inr (Or.inr hOld)

/- A map is made of items that give its entries, no more. -/
theorem entering_eq
    {m : Std.ExtTreeMap κ β cmp}
    {xs : List α}
    (hNodup : (xs.map key).Nodup)
    (hEntries :
      ∀ (k : κ) (v : β),
        m[k]? = some v ↔ ∃ x ∈ xs, key x = k ∧ value x = v) :
    entering key value ∅ xs = m := by
  apply Std.ExtTreeMap.ext_getElem?
  intro k
  apply Option.ext
  intro v
  rw [getElem?_entering hNodup, hEntries]
  simp

/-
  A fold whose every step enters an item that is fit under a
  key that is free succeeds exactly if all items are fit and
  their keys are distinct and free.
-/
theorem foldlM_entering_eq_ok_iff
    {ε : Type}
    (fit : α → Prop)
    (key : α → κ)
    (value : α → β)
    {step :
      Std.ExtTreeMap κ β cmp → α →
        Except ε (Std.ExtTreeMap κ β cmp)}
    (hStep :
      ∀ m x m', step m x = .ok m' ↔
        fit x ∧ key x ∉ m ∧ m' = m.insert (key x) (value x))
    {xs : List α}
    {m m' : Std.ExtTreeMap κ β cmp} :
    xs.foldlM step m = .ok m' ↔
      (∀ x ∈ xs, fit x) ∧ (xs.map key).Nodup ∧
        (∀ x ∈ xs, key x ∉ m) ∧
          m' = entering key value m xs := by
  induction xs generalizing m with
  | nil =>
      rw [List.foldlM_nil]
      simp only [List.not_mem_nil, false_implies, implies_true,
        List.map_nil, List.nodup_nil, entering_nil, true_and]
      exact ⟨fun h => (Except.ok.inj h).symm,
        fun h => congrArg Except.ok h.symm⟩
  | cons x xs ih =>
      rw [List.foldlM_cons, bind_eq_ok_iff, entering_cons,
        List.map_cons, List.nodup_cons]
      constructor
      · rintro ⟨m₁, hHead, hTail⟩
        rcases (hStep m x m₁).1 hHead with ⟨hFit, hFree, rfl⟩
        rcases ih.1 hTail with ⟨hFits, hNodup, hFrees, hResult⟩
        refine ⟨?_, ⟨?_, hNodup⟩, ?_, hResult⟩
        · exact List.forall_mem_cons.2 ⟨hFit, hFits⟩
        · intro hMem
          rcases List.mem_map.1 hMem with ⟨y, hY, hSame⟩
          exact hFrees y hY (by simp [hSame])
        · refine List.forall_mem_cons.2 ⟨hFree, ?_⟩
          intro y hY hOld
          exact hFrees y hY
            (Std.ExtTreeMap.mem_insert.2 (Or.inr hOld))
      · rintro ⟨hFits, ⟨hNew, hNodup⟩, hFrees, hResult⟩
        rcases List.forall_mem_cons.1 hFits with ⟨hFit, hFits⟩
        rcases List.forall_mem_cons.1 hFrees with ⟨hFree, hFrees⟩
        refine ⟨_, (hStep m x _).2 ⟨hFit, hFree, rfl⟩, ?_⟩
        refine ih.2 ⟨hFits, hNodup, ?_, hResult⟩
        intro y hY hMem
        rw [Std.ExtTreeMap.mem_insert,
          Std.LawfulEqCmp.compare_eq_iff_eq] at hMem
        rcases hMem with hSame | hOld
        · exact hNew (List.mem_map.2 ⟨y, hY, hSame.symm⟩)
        · exact hFrees y hY hOld

------------------------------------------------------------
-- Emptying a map
------------------------------------------------------------

/- A map without the entries under some keys. -/
def erasing
    (m : Std.ExtTreeMap κ β cmp)
    (ks : List κ) : Std.ExtTreeMap κ β cmp :=
  ks.foldl (fun m k => m.erase k) m

omit [Std.LawfulEqCmp cmp] in
@[simp]
theorem erasing_nil
    (m : Std.ExtTreeMap κ β cmp) :
    erasing m [] = m :=
  rfl

omit [Std.LawfulEqCmp cmp] in
theorem erasing_concat
    (m : Std.ExtTreeMap κ β cmp)
    (ks : List κ)
    (k : κ) :
    erasing m (ks ++ [k]) = (erasing m ks).erase k := by
  unfold erasing
  rw [List.foldl_append]
  rfl

/- What a map holds once keys were taken out. -/
theorem getElem?_erasing
    [DecidableEq κ]
    (m : Std.ExtTreeMap κ β cmp)
    (ks : List κ)
    (k : κ) :
    (erasing m ks)[k]? = if k ∈ ks then none else m[k]? := by
  induction ks generalizing m with
  | nil => rfl
  | cons l ks ih =>
      rw [show erasing m (l :: ks) = erasing (m.erase l) ks from
        rfl, ih, Std.ExtTreeMap.getElem?_erase]
      by_cases hTail : k ∈ ks
      · simp [hTail]
      · by_cases hHead : k = l
        · simp [hHead]
        · have hOther : ¬cmp l k = .eq := by
            intro hSame
            exact hHead
              (Std.LawfulEqCmp.eq_of_compare hSame).symm
          simp [hTail, hHead, hOther]

end Maps

end SnapTree
