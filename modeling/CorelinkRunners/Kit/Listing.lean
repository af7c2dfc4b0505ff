import CorelinkRunners.Kit.OrdMap

/-!
# Listing an ordered map in pages

`page` is what a storage answers to a listing that starts after a cursor and is cut at a limit. A
page that is cut has everything up to its last key, and the entries after that key are what is left
of the listing (`after_last`); a page that is not cut has everything there is.
-/

namespace Kit.OrdMap

variable {K V : Type} [Ord K] [Std.TransOrd K]

def isAfter (cursor : Option K) (k : K) : Bool := cursor.all fun c => compare c k == .lt

def after (m : OrdMap K V) (cursor : Option K) : List (K × V) :=
  m.toList.filter fun entry => isAfter cursor entry.1

def page (m : OrdMap K V) (cursor : Option K) (limit : Nat) : List (K × V) :=
  (m.after cursor).take limit

theorem after_none (m : OrdMap K V) : m.after none = m.toList :=
  List.filter_eq_self.mpr fun _ _ => rfl

variable {m : OrdMap K V} {cursor : Option K} {k : K} {v : V}

theorem mem_after [Std.LawfulEqOrd K] :
    (k, v) ∈ m.after cursor ↔ m[k]? = some v ∧ isAfter cursor k = true := by
  rw [after, List.mem_filter, Std.ExtTreeMap.mem_toList_iff_getElem?_eq_some]

variable {limit : Nat}

theorem get_of_mem_page [Std.LawfulEqOrd K] (h : (k, v) ∈ m.page cursor limit) :
    m[k]? = some v ∧ isAfter cursor k = true :=
  mem_after.mp (List.mem_of_mem_take h)

theorem after_ordered (m : OrdMap K V) (cursor : Option K) :
    (m.after cursor).Pairwise fun a b => compare a.1 b.1 = .lt :=
  Std.ExtTreeMap.ordered_keys_toList.filter _

variable {last : K × V}

theorem filter_of_ordered {entries : List (K × V)}
    (ordered : entries.Pairwise fun a b => compare a.1 b.1 = .lt) {n : Nat}
    (there : entries[n]? = some last) :
    entries.filter (fun entry => isAfter (some last.1) entry.1) = entries.drop (n + 1) := by
  induction entries generalizing n with
  | nil => exact absurd there (by simp)
  | cons head rest ih =>
    rw [List.pairwise_cons] at ordered
    cases n with
    | zero =>
      rw [List.getElem?_cons_zero, Option.some.injEq] at there
      subst there
      have self : isAfter (some head.1) head.1 = false := by simp [isAfter]
      rw [List.filter_cons_of_neg (by rw [self]; exact Bool.false_ne_true), List.drop_one,
        List.tail_cons]
      refine List.filter_eq_self.mpr fun entry member => ?_
      simp [isAfter, ordered.1 entry member]
    | succ n =>
      rw [List.getElem?_cons_succ] at there
      have before : isAfter (some last.1) head.1 = false := by
        have less := ordered.1 last (List.mem_of_getElem? there)
        simp [isAfter, Std.OrientedCmp.gt_of_lt less]
      rw [List.filter_cons_of_neg (by rw [before]; exact Bool.false_ne_true), ih ordered.2 there,
        List.drop_succ_cons]

theorem isAfter_trans {k' : K} (first : isAfter cursor k = true)
    (next : isAfter (some k) k' = true) : isAfter cursor k' = true := by
  cases cursor with
  | none => rfl
  | some c =>
    simp only [isAfter, Option.all_some, beq_iff_eq] at first next ⊢
    exact Std.TransCmp.lt_trans first next

/-- **What is left after the last key of a page that is full.** -/
theorem after_last (there : (m.page cursor limit).getLast? = some last)
    (full : limit ≤ (m.after cursor).length) :
    m.after (some last.1) = (m.after cursor).drop limit := by
  have nonempty : 0 < limit := by
    by_contra none
    rw [page, Nat.le_zero.mp (Nat.le_of_not_lt none), List.take_zero] at there
    nomatch there
  have at_limit : (m.after cursor)[limit - 1]? = some last := by
    rw [page, List.getLast?_take, if_neg (Nat.ne_of_gt nonempty)] at there
    have inside : limit - 1 < (m.after cursor).length := by omega
    rw [List.getElem?_eq_getElem inside] at there ⊢
    exact there
  have member := List.mem_of_getElem? at_limit
  have later : isAfter cursor last.1 = true := (List.mem_filter.mp member).2
  have rest := filter_of_ordered (m.after_ordered cursor) at_limit
  rw [Nat.sub_add_cancel nonempty] at rest
  rw [← rest, after, after, List.filter_filter]
  refine List.filter_congr fun entry _ => ?_
  cases next : isAfter (some last.1) entry.1 with
  | false => rfl
  | true => rw [isAfter_trans later next]; rfl

theorem page_of_lt (short : (m.page cursor limit).length < limit) :
    m.page cursor limit = m.after cursor := by
  rw [page, List.length_take] at short
  exact List.take_of_length_le (by omega)

theorem mem_page_or_after [Std.LawfulEqOrd K] (there : (m.page cursor limit).getLast? = some last)
    (full : limit ≤ (m.page cursor limit).length) (found : m[k]? = some v)
    (later : isAfter cursor k = true) :
    (k, v) ∈ m.page cursor limit ∨ isAfter (some last.1) k = true := by
  have enough : limit ≤ (m.after cursor).length :=
    full.trans (List.length_take_le' _ _)
  have member := mem_after.mpr ⟨found, later⟩
  rw [← List.take_append_drop limit (m.after cursor), List.mem_append] at member
  rcases member with inside | outside
  · exact .inl inside
  · rw [← after_last there enough, mem_after] at outside
    exact .inr outside.2

/-! ## How many entries there are -/

theorem size_erase_of_get [Std.LawfulEqOrd K] (h : m[k]? = some v) :
    m.size = (m.erase k).size + 1 := by
  rw [← Std.ExtTreeMap.length_toList, (toList_perm_of_get h).length_eq, List.length_cons,
    Std.ExtTreeMap.length_toList]

theorem size_insert_of_none [Std.LawfulEqOrd K] (h : m[k]? = none) :
    (m.insert k v).size = m.size + 1 := by
  rw [size_erase_of_get (get_insert_self m k v), erase_insert, erase_of_get_none h]

theorem page_of_size_lt (enough : m.size ≤ limit) : m.page none limit = m.toList := by
  rw [page, after_none, List.take_of_length_le]
  rw [Std.ExtTreeMap.length_toList]
  exact enough

end Kit.OrdMap
