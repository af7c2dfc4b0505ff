import Mathlib

/-!
# Rotations of a sorted list, and a counter that bounds their rewinds

A round-robin walks a sorted list from just after a cursor and wraps around. `lap c` puts every
element at its place on the walk that starts after `c` and ends at `c`, so "`x` comes before `t`
when the walk resumes after `c`" (`Ahead`) is the strict order `lap c x < lap c t`. Seen from the
waiting element `t` itself the walk has one fixed scale, `lap t`, on which the cursor only ever
moves up until `t` is reached (`Ahead.above_cursor`).

A walk that may jump back is bounded by a binary counter (`countdown`): whoever takes a turn gives
up its own weight, and that pays for everything above it coming back.
-/

namespace Kit
namespace Rotation

/-! ## The walk that starts after a cursor -/

section Walk

variable {α : Type} [LinearOrder α] {c t x y : α} {l : List α}

/-- The place of `x` on the walk that starts just after `last` and ends at `last`. -/
def lap (last x : α) : Bool ×ₗ α := toLex (decide (x ≤ last), x)

theorem lap_lt_iff : lap t x < lap t y ↔ (t < x ∧ y ≤ t) ∨ ((x ≤ t ↔ y ≤ t) ∧ x < y) := by
  unfold lap
  rw [Prod.Lex.toLex_lt_toLex]
  by_cases hx : x ≤ t <;> by_cases hy : y ≤ t <;> simp [hx, hy, not_le.mp, not_lt.mpr]

theorem lap_injective : Function.Injective (lap t) := by
  intro x y h
  unfold lap at h
  exact congrArg (fun p => (ofLex p).2) h

/-- `x` comes before `t` when the walk resumes after the cursor, or starts at the front of the list
when there is none. -/
def Ahead : Option α → α → α → Prop
  | none, t, x => x < t
  | some c, t, x => lap c x < lap c t

variable {cursor : Option α}

theorem Ahead.above_cursor (h : Ahead (some c) t x) (apart : c ≠ t) : lap t c < lap t x := by
  simp only [Ahead] at h
  rw [lap_lt_iff] at h ⊢
  grind

theorem Ahead.before (hy : Ahead cursor t y) (h : Ahead cursor y x) : lap t x < lap t y := by
  cases cursor with
  | none =>
    simp only [Ahead] at hy h
    rw [lap_lt_iff]
    grind
  | some c =>
    simp only [Ahead] at hy h
    rw [lap_lt_iff] at hy h ⊢
    grind

theorem Ahead.behind (hx : Ahead cursor x t) (h : Ahead cursor y x) : lap t x < lap t y := by
  cases cursor with
  | none =>
    simp only [Ahead] at hx h
    rw [lap_lt_iff]
    grind
  | some c =>
    simp only [Ahead] at hx h
    rw [lap_lt_iff] at hx h ⊢
    grind

/-- The list turned so that it starts at the first element above the cursor, or as it stands when
there is none. -/
def resumeAfter (cursor : α) (l : List α) : List α :=
  l.rotate ((l.findIdx? (cursor < ·)).getD 0)

theorem resumeAfter_of_sorted (sorted : l.Pairwise (· < ·)) :
    resumeAfter c l = l.filter (c < ·) ++ l.filter (· ≤ c) := by
  unfold resumeAfter
  cases found : l.findIdx? (c < ·) with
  | none =>
    have low : ∀ x ∈ l, x ≤ c := by
      intro x hx
      have := List.findIdx?_eq_none_iff.mp found x hx
      simpa using this
    have none_above : l.filter (c < ·) = [] := by
      rw [List.filter_eq_nil_iff]
      intro x hx
      simpa using low x hx
    have all_low : l.filter (· ≤ c) = l := by
      rw [List.filter_eq_self]
      intro x hx
      simpa using low x hx
    rw [none_above, all_low]
    exact List.rotate_zero l
  | some i =>
    obtain ⟨inside, above, below⟩ := List.findIdx?_eq_some_iff_getElem.mp found
    -- the list splits at the first element above the cursor
    have high : ∀ x ∈ l.drop i, c < x := by
      intro x hx
      obtain ⟨k, hk, rfl⟩ := List.mem_iff_getElem.mp hx
      rw [List.length_drop] at hk
      rw [List.getElem_drop]
      have head : c < l[i] := by simpa using above
      rcases Nat.eq_zero_or_pos k with rfl | pos
      · simpa using head
      · exact head.trans (List.pairwise_iff_getElem.mp sorted i (i + k) inside (by omega)
          (by omega))
    have low : ∀ x ∈ l.take i, x ≤ c := by
      intro x hx
      obtain ⟨k, hk, rfl⟩ := List.mem_iff_getElem.mp hx
      rw [List.length_take] at hk
      rw [List.getElem_take]
      have := below k (by omega)
      simpa using this
    have filtered : ∀ p : α → Bool, l.filter p = (l.take i).filter p ++ (l.drop i).filter p := by
      intro p
      rw [← List.filter_append, List.take_append_drop]
    rw [Option.getD_some, List.rotate_eq_drop_append_take inside.le, filtered, filtered]
    rw [List.filter_eq_nil_iff.mpr (by intro x hx; simpa using low x hx),
      List.filter_eq_self.mpr (by intro x hx; simpa using high x hx),
      List.filter_eq_self.mpr (by intro x hx; simpa using low x hx),
      List.filter_eq_nil_iff.mpr (by intro x hx; simpa using high x hx)]
    rw [List.nil_append, List.append_nil]

theorem mem_resumeAfter : x ∈ resumeAfter c l ↔ x ∈ l := by
  unfold resumeAfter
  exact List.mem_rotate

theorem nodup_resumeAfter : (resumeAfter c l).Nodup ↔ l.Nodup := by
  unfold resumeAfter
  exact List.nodup_rotate

theorem resumeAfter_sorted (sorted : l.Pairwise (· < ·)) :
    (resumeAfter c l).Pairwise fun x y => lap c x < lap c y := by
  rw [resumeAfter_of_sorted sorted, List.pairwise_append]
  refine ⟨?_, ?_, ?_⟩
  · refine (sorted.filter _).imp_of_mem ?_
    intro x y hx hy h
    have hx : c < x := by simpa using (List.mem_filter.mp hx).2
    have hy : c < y := by simpa using (List.mem_filter.mp hy).2
    exact lap_lt_iff.mpr (.inr ⟨by simp [hx, hy, not_le.mpr], h⟩)
  · refine (sorted.filter _).imp_of_mem ?_
    intro x y hx hy h
    have hx : x ≤ c := by simpa using (List.mem_filter.mp hx).2
    have hy : y ≤ c := by simpa using (List.mem_filter.mp hy).2
    exact lap_lt_iff.mpr (.inr ⟨by simp [hx, hy], h⟩)
  · intro x hx y hy
    have hx : c < x := by simpa using (List.mem_filter.mp hx).2
    have hy : y ≤ c := by simpa using (List.mem_filter.mp hy).2
    exact lap_lt_iff.mpr (.inl ⟨hx, hy⟩)

/-- The walk over a sorted list: from just after the cursor, or from its front. -/
def resumeFrom : Option α → List α → List α
  | none, l => l
  | some c, l => resumeAfter c l

theorem resumeFrom_sorted (sorted : l.Pairwise (· < ·)) :
    (resumeFrom cursor l).Pairwise fun x y => Ahead cursor y x := by
  cases cursor with
  | none => exact sorted
  | some c => exact resumeAfter_sorted sorted

theorem mem_resumeFrom : x ∈ resumeFrom cursor l ↔ x ∈ l := by
  cases cursor with
  | none => exact Iff.rfl
  | some c => exact mem_resumeAfter

theorem head_resumeFrom (sorted : l.Pairwise (· < ·)) : (resumeFrom (some c) l).head? =
    (l.find? (c < ·)).or l.head? := by
  rw [resumeFrom, resumeAfter_of_sorted sorted, List.head?_append, List.head?_filter]
  cases above : l.find? (c < ·) with
  | some x => rfl
  | none =>
    have low : l.filter (· ≤ c) = l := by
      rw [List.filter_eq_self]
      intro x listed
      simpa using List.find?_eq_none.mp above x listed
    rw [low]

/-- **A walk goes on where it stands.** After its first element, the walk over the same elements is
the rest of it, and then that element again if it is still there. -/
theorem resumeAfter_next {l' rest : List α} (sorted : l.Pairwise (· < ·))
    (sorted' : l'.Pairwise (· < ·)) (walk : resumeFrom cursor l = x :: rest)
    (others : ∀ y, y ≠ x → (y ∈ l' ↔ y ∈ l)) :
    resumeAfter x l' = rest ++ if x ∈ l' then [x] else [] := by
  have order : (resumeFrom cursor l).Pairwise fun y z => Ahead cursor z y :=
    resumeFrom_sorted sorted
  rw [walk] at order
  obtain ⟨first, order⟩ := List.pairwise_cons.mp order
  have apart : ∀ y ∈ rest, y ≠ x := by
    rintro y listed rfl
    have := first y listed
    cases cursor <;> exact lt_irrefl _ this
  have up : (rest ++ if x ∈ l' then [x] else []).Pairwise fun y z => lap x y < lap x z := by
    rw [List.pairwise_append]
    refine ⟨?_, by split <;> simp, ?_⟩
    · exact order.imp_of_mem fun listed _ h => Ahead.behind (first _ listed) h
    · intro y listed z last
      obtain rfl : z = x := by
        split at last
        · exact List.mem_singleton.mp last
        · cases last
      rw [lap_lt_iff]
      have := apart y listed
      grind
  have up' := resumeAfter_sorted (c := x) sorted'
  refine List.Perm.eq_of_pairwise (fun a b _ _ h h' => absurd h h'.asymm) up' up ?_
  refine (List.perm_ext_iff_of_nodup (up'.imp ?_) (up.imp ?_)).mpr fun y => ?_
  · rintro a b h rfl
    exact lt_irrefl _ h
  · rintro a b h rfl
    exact lt_irrefl _ h
  rw [mem_resumeAfter, List.mem_append]
  by_cases same : y = x
  · subst same
    have gone : y ∉ rest := fun listed => apart y listed rfl
    split <;> simp [*]
  · have listed : y ∈ resumeFrom cursor l ↔ y ∈ l := mem_resumeFrom
    rw [walk, List.mem_cons] at listed
    rw [others y same, ← listed]
    split <;> simp [same]

end Walk

/-! ## A binary counter over a finite set -/

section Counter

variable {α β : Type} [LinearOrder β] {key : α → β} {U Q Q' taken : Finset α} {j : α}

/-- Two to the number of elements of `U` above `x`. -/
def weight (U : Finset α) (key : α → β) (x : α) : Nat := 2 ^ (U.filter (key x < key ·)).card

theorem one_le_weight (x : α) : 1 ≤ weight U key x := Nat.one_le_two_pow

theorem sum_weight [DecidableEq α] (inj : Function.Injective key) :
    ∑ x ∈ U, weight U key x + 1 = 2 ^ U.card := by
  induction U using Finset.induction_on_min_value key with
  | empty => rfl
  | insert a s fresh least ih =>
    -- the new least element is above nobody, and everybody is above it
    have others : ∀ x ∈ s, weight (insert a s) key x = weight s key x := by
      intro x hx
      unfold weight
      rw [Finset.filter_insert, if_neg (not_lt.mpr (least x hx))]
    have itself : weight (insert a s) key a = 2 ^ s.card := by
      unfold weight
      rw [Finset.filter_insert, if_neg (lt_irrefl _), Finset.filter_true_of_mem]
      intro x hx
      refine lt_of_le_of_ne (least x hx) fun same => fresh ?_
      rw [inj same]
      exact hx
    rw [Finset.sum_insert fresh, Finset.card_insert_of_notMem fresh, Finset.sum_congr rfl others,
      itself, Nat.add_assoc, ih]
    ring

theorem sum_weight_above [DecidableEq α] (inj : Function.Injective key) :
    ∑ x ∈ U.filter (key j < key ·), weight U key x + 1 = weight U key j := by
  have within : ∀ x ∈ U.filter (key j < key ·),
      weight U key x = weight (U.filter (key j < key ·)) key x := by
    intro x hx
    have up : key j < key x := (Finset.mem_filter.mp hx).2
    unfold weight
    rw [Finset.filter_filter]
    congr 2
    ext y
    simp only [Finset.mem_filter]
    constructor
    · rintro ⟨hy, hxy⟩
      exact ⟨hy, up.trans hxy, hxy⟩
    · rintro ⟨hy, -, hxy⟩
      exact ⟨hy, hxy⟩
  rw [Finset.sum_congr rfl within, sum_weight inj]
  rfl

/-- **The counter runs down.** Those who take a turn leave the set, and the last of them may bring
back whatever lies above it: the total weight falls by at least one for every turn taken. -/
theorem countdown [DecidableEq α] (inj : Function.Injective key) (hQ' : Q' ⊆ U)
    (ht : taken ⊆ Q) (hj : j ∈ taken) (back : ∀ x ∈ Q', (x ∈ Q ∧ x ∉ taken) ∨ key j < key x) :
    ∑ x ∈ Q', weight U key x + taken.card ≤ ∑ x ∈ Q, weight U key x := by
  have bound : Q' ⊆ (Q \ taken) ∪ U.filter (key j < key ·) := by
    intro x hx
    rcases back x hx with ⟨hq, hn⟩ | up
    · exact Finset.mem_union_left _ (Finset.mem_sdiff.mpr ⟨hq, hn⟩)
    · exact Finset.mem_union_right _ (Finset.mem_filter.mpr ⟨hQ' hx, up⟩)
  have after : ∑ x ∈ Q', weight U key x ≤
      ∑ x ∈ Q \ taken, weight U key x + ∑ x ∈ U.filter (key j < key ·), weight U key x := by
    refine le_trans (Finset.sum_le_sum_of_subset bound) ?_
    rw [← Finset.sum_union_inter]
    exact Nat.le_add_right _ _
  have before : ∑ x ∈ Q \ taken, weight U key x + ∑ x ∈ taken, weight U key x =
      ∑ x ∈ Q, weight U key x := Finset.sum_sdiff ht
  have rest : (taken.erase j).card ≤ ∑ x ∈ taken.erase j, weight U key x := by
    rw [Finset.card_eq_sum_ones]
    exact Finset.sum_le_sum fun x _ => one_le_weight x
  have paid : weight U key j + ∑ x ∈ taken.erase j, weight U key x = ∑ x ∈ taken, weight U key x :=
    Finset.add_sum_erase taken _ hj
  have above := sum_weight_above (U := U) (j := j) inj
  have size := Finset.card_erase_add_one hj
  omega

end Counter

end Rotation
end Kit
