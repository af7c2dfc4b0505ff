import Mathlib

/-!
# Ordered finite maps: sums and counts over the entries

A map is `Std.ExtTreeMap` at the key type's own order, so two maps with the same lookups are the
same map and the entries come out in key order. What is added here is the arithmetic of a whole
map: `sumBy` weighs every entry, and the lemmas say how one insertion or one erasure moves that
sum. Everything rests on `toList_perm_of_get`: the entries of a map are one known entry together
with the entries of the map that forgot it.
-/

namespace Kit

attribute [instance] lexOrd

abbrev OrdMap (K V : Type) [Ord K] : Type := Std.ExtTreeMap K V compare

abbrev OrdSet (K : Type) [Ord K] : Type := Std.ExtTreeSet K compare

namespace OrdMap

variable {K V W : Type} [Ord K] [Std.TransOrd K] [Std.LawfulEqOrd K]

theorem get_insert [DecidableEq K] (m : OrdMap K V) (k a : K) (v : V) :
    (m.insert k v)[a]? = if k = a then some v else m[a]? := by
  rw [Std.ExtTreeMap.getElem?_insert]
  simp only [Std.compare_eq_iff_eq]

theorem get_insert_self (m : OrdMap K V) (k : K) (v : V) : (m.insert k v)[k]? = some v := by
  classical
  rw [get_insert, if_pos rfl]

theorem get_erase [DecidableEq K] (m : OrdMap K V) (k a : K) :
    (m.erase k)[a]? = if k = a then none else m[a]? := by
  rw [Std.ExtTreeMap.getElem?_erase]
  simp only [Std.compare_eq_iff_eq]

theorem ext_get {m n : OrdMap K V} (h : ∀ k : K, m[k]? = n[k]?) : m = n :=
  Std.ExtTreeMap.ext_getElem? h

omit [Std.LawfulEqOrd K] in
theorem contains_iff_get (m : OrdMap K V) (k : K) : m.contains k = true ↔ ∃ v, m[k]? = some v := by
  rw [Std.ExtTreeMap.contains_eq_isSome_getElem?, Option.isSome_iff_exists]

omit [Std.LawfulEqOrd K] in
theorem contains_eq_false_iff_get (m : OrdMap K V) (k : K) :
    m.contains k = false ↔ m[k]? = none := by
  rw [Std.ExtTreeMap.contains_eq_isSome_getElem?, Option.isSome_eq_false_iff,
    Option.isNone_iff_eq_none]

theorem erase_of_get_none {m : OrdMap K V} {k : K} (h : m[k]? = none) : m.erase k = m := by
  classical
  apply ext_get
  intro a
  rw [get_erase]
  split
  next hk => rw [← hk, h]
  · rfl

theorem erase_insert (m : OrdMap K V) (k : K) (v : V) : (m.insert k v).erase k = m.erase k := by
  classical
  apply ext_get
  intro a
  simp only [get_erase, get_insert]
  split <;> rfl

theorem insert_of_get {m : OrdMap K V} {k : K} {v : V} (h : m[k]? = some v) : m.insert k v = m := by
  classical
  apply ext_get
  intro a
  rw [get_insert]
  split
  next hk => rw [← hk, h]
  · rfl

theorem toList_nodup (m : OrdMap K V) : m.toList.Nodup := by
  apply m.distinct_keys_toList.imp
  intro a b hab he
  exact hab (by rw [he]; exact Std.ReflCmp.compare_self)

theorem toList_perm_of_get {m : OrdMap K V} {k : K} {v : V} (h : m[k]? = some v) :
    m.toList.Perm ((k, v) :: (m.erase k).toList) := by
  classical
  have hk : (k, v) ∉ (m.erase k).toList := by
    rw [Std.ExtTreeMap.mem_toList_iff_getElem?_eq_some, get_erase, if_pos rfl]
    simp only [reduceCtorEq, not_false_eq_true]
  have hnd : ((k, v) :: (m.erase k).toList).Nodup :=
    List.nodup_cons.mpr ⟨hk, toList_nodup _⟩
  refine (List.perm_ext_iff_of_nodup (toList_nodup m) hnd).mpr ?_
  rintro ⟨a, w⟩
  rw [List.mem_cons, Std.ExtTreeMap.mem_toList_iff_getElem?_eq_some,
    Std.ExtTreeMap.mem_toList_iff_getElem?_eq_some, get_erase]
  by_cases ha : k = a
  · subst a
    simp only [h, Option.some.injEq, Prod.mk.injEq, true_and, ↓reduceIte, reduceCtorEq, or_false]
    exact eq_comm
  · simp only [if_neg ha, Prod.mk.injEq, Ne.symm ha, false_and, false_or]

def vals (m : OrdMap K V) : List V := m.toList.map Prod.snd

theorem mem_vals {m : OrdMap K V} {v : V} : v ∈ m.vals ↔ ∃ k : K, m[k]? = some v := by
  simp only [vals, List.mem_map, Prod.exists, Std.ExtTreeMap.mem_toList_iff_getElem?_eq_some,
    exists_eq_right]

def sumBy (f : K → V → Nat) (m : OrdMap K V) : Nat :=
  (m.toList.map fun e => f e.1 e.2).sum

variable {f g : K → V → Nat} {m : OrdMap K V} {k : K} {v : V}

omit [Std.LawfulEqOrd K] in
@[simp] theorem sumBy_empty : sumBy f (∅ : OrdMap K V) = 0 := by
  simp only [sumBy, Std.ExtTreeMap.toList_eq_nil_iff.mpr rfl, List.map_nil, List.sum_nil]

theorem sumBy_of_get (h : m[k]? = some v) : sumBy f m = f k v + sumBy f (m.erase k) := by
  simp only [sumBy]
  rw [((toList_perm_of_get h).map fun e => f e.1 e.2).sum_eq]
  simp only [List.map_cons, List.sum_cons]

theorem sumBy_insert : sumBy f (m.insert k v) = f k v + sumBy f (m.erase k) := by
  rw [sumBy_of_get (get_insert_self m k v), erase_insert]

theorem sumBy_erase_le : sumBy f (m.erase k) ≤ sumBy f m := by
  cases h : m[k]? with
  | none => rw [erase_of_get_none h]
  | some v =>
    rw [sumBy_of_get h]
    exact Nat.le_add_left _ _

theorem sumBy_insert_of_none (h : m[k]? = none) : sumBy f (m.insert k v) = f k v + sumBy f m := by
  rw [sumBy_insert, erase_of_get_none h]

theorem sumBy_congr (h : ∀ a w, m[a]? = some w → f a w = g a w) : sumBy f m = sumBy g m := by
  simp only [sumBy]
  congr 1
  apply List.map_congr_left
  rintro ⟨a, w⟩ he
  exact h a w (Std.ExtTreeMap.mem_toList_iff_getElem?_eq_some.mp he)

theorem sumBy_insert_le {w : V} (h : m[k]? = some w) (hle : f k v ≤ f k w) :
    sumBy f (m.insert k v) ≤ sumBy f m := by
  rw [sumBy_insert, sumBy_of_get h]
  exact Nat.add_le_add_right hle _

omit [Std.LawfulEqOrd K] in
theorem length_filter_vals (p : V → Bool) :
    (m.vals.filter p).length = sumBy (fun _ v => if p v = true then 1 else 0) m := by
  unfold vals sumBy
  induction m.toList with
  | nil => rfl
  | cons e es ih =>
    rw [List.map_cons, List.map_cons, List.sum_cons, ← ih, List.filter_cons]
    dsimp only
    split
    · rw [List.length_cons, Nat.add_comm]
    · rw [Nat.zero_add]

/-! ## Maps with one shape -/

section Image

variable {n : OrdMap K W} {h : W → V}

theorem eq_map_of_get (same : ∀ a : K, m[a]? = n[a]?.map h) : m = n.map fun _ w => h w := by
  apply ext_get
  intro a
  rw [Std.ExtTreeMap.getElem?_map, same]

theorem vals_of_get (same : ∀ a : K, m[a]? = n[a]?.map h) : m.vals = n.vals.map h := by
  rw [eq_map_of_get same]
  simp only [vals, Std.ExtTreeMap.toList_map, List.map_map]
  rfl

theorem sumBy_of_get_map (same : ∀ a : K, m[a]? = n[a]?.map h) :
    sumBy f m = sumBy (fun a w => f a (h w)) n := by
  rw [eq_map_of_get same]
  simp only [sumBy, Std.ExtTreeMap.toList_map, List.map_map]
  rfl

end Image

end OrdMap

namespace OrdSet

variable {K : Type} [Ord K] [Std.TransOrd K] [Std.LawfulEqOrd K] (m : OrdSet K) (k a : K)

theorem mem_insert_iff : a ∈ m.insert k ↔ k = a ∨ a ∈ m := by
  rw [Std.ExtTreeSet.mem_insert, Std.compare_eq_iff_eq]

theorem mem_erase_iff : a ∈ m.erase k ↔ k ≠ a ∧ a ∈ m := by
  rw [Std.ExtTreeSet.mem_erase, ne_eq, Std.compare_eq_iff_eq]

theorem mem_filter_iff (f : K → Bool) : a ∈ m.filter f ↔ a ∈ m ∧ f a = true := by
  rw [Std.ExtTreeSet.mem_filter]
  constructor
  · rintro ⟨h, hf⟩
    rw [Std.ExtTreeSet.get_eq h] at hf
    exact ⟨h, hf⟩
  · rintro ⟨h, hf⟩
    refine ⟨h, ?_⟩
    rw [Std.ExtTreeSet.get_eq h]
    exact hf

variable {m k}

theorem erase_of_notMem (h : k ∉ m) : m.erase k = m := by
  apply Std.ExtTreeSet.ext_mem
  intro a
  rw [mem_erase_iff, and_iff_right_iff_imp]
  rintro ha rfl
  exact h ha

theorem insert_of_mem (h : k ∈ m) : m.insert k = m := by
  apply Std.ExtTreeSet.ext_mem
  intro a
  rw [mem_insert_iff, or_iff_right_iff_imp]
  rintro rfl
  exact h

end OrdSet

end Kit
