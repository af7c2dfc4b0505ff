import Mathlib

/-!
# Tables

A table gives at most one value to a key. Where nothing lists the keys of a store, a table is all
there is to one family of its records.
-/

namespace Kit

def Table (K V : Type) : Type := K → Option V

namespace Table

variable {K V : Type} [DecidableEq K]

instance : EmptyCollection (Table K V) := ⟨fun _ => none⟩

instance : Inhabited (Table K V) := ⟨∅⟩

def get (t : Table K V) (k : K) : Option V := t k

def put (t : Table K V) (k : K) (v : V) : Table K V := fun a => if a = k then some v else t a

def delete (t : Table K V) (k : K) : Table K V := fun a => if a = k then none else t a

variable (t : Table K V) (k a : K) (v : V)

theorem get_put : (t.put k v).get a = if a = k then some v else t.get a := rfl

theorem get_delete : (t.delete k).get a = if a = k then none else t.get a := rfl

@[simp] theorem get_put_self : (t.put k v).get k = some v := if_pos rfl

@[simp] theorem get_delete_self : (t.delete k).get k = none := if_pos rfl

variable {t k a v}

theorem get_put_of_ne (other : a ≠ k) : (t.put k v).get a = t.get a := if_neg other

theorem get_delete_of_ne (other : a ≠ k) : (t.delete k).get a = t.get a := if_neg other

theorem get_put_cases {w : V} (h : (t.put k v).get a = some w) :
    a = k ∧ v = w ∨ a ≠ k ∧ t.get a = some w := by
  rw [get_put] at h
  split at h
  next same => exact .inl ⟨same, Option.some.inj h⟩
  next other => exact .inr ⟨other, h⟩

theorem get_delete_some {w : V} (h : (t.delete k).get a = some w) : a ≠ k ∧ t.get a = some w := by
  rw [get_delete] at h
  split at h
  · nomatch h
  next other => exact ⟨other, h⟩

end Table

end Kit
