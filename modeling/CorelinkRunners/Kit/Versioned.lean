import Mathlib

/-!
# A store of versioned records

Every write of a record gives it the next version, and nothing is ever removed: a record is the list
of the values its key has held, oldest first. A read returns the last of them with its version,
which is their number. A transaction writes several records at once, provided that each still has
the version its writer expects.

What a read returned stays true of the past of the record (`Held`), and a write that expects the
version of a read finds the value of that read (`Seen.get`).
-/

namespace Kit

structure Stored (V : Type) where
  version : Nat
  value : V

/-- The records of a store, whose key `k` holds values of type `V k`. -/
structure Versioned (K : Type) (V : K → Type) where
  /-- The values a key has held, oldest first. -/
  held : (k : K) → List (V k)
  keys : List K
  nodup : keys.Nodup
  mem_keys : ∀ k, k ∈ keys ↔ held k ≠ []

/-- One write of a transaction. Without an expected version the record must not exist. -/
structure Write (K : Type) (V : K → Type) where
  key : K
  expectedVersion : Option Nat
  value : V key

namespace Versioned

variable {K : Type} {V : K → Type}

instance : EmptyCollection (Versioned K V) :=
  ⟨⟨fun _ => [], [], .nil, fun _ => by simp⟩⟩

@[simp] theorem keys_empty : (∅ : Versioned K V).keys = [] := rfl

def get (s : Versioned K V) (k : K) : Option (Stored (V k)) :=
  (s.held k).getLast?.map fun v => ⟨(s.held k).length, v⟩

def version (s : Versioned K V) (k : K) : Option Nat := (s.get k).map (·.version)

def fits (s : Versioned K V) (writes : List (Write K V)) : Bool :=
  writes.all fun w => s.version w.key == w.expectedVersion

section Writes

variable [DecidableEq K]

def put (s : Versioned K V) (w : Write K V) : Versioned K V where
  held := Function.update s.held w.key (s.held w.key ++ [w.value])
  keys := if w.key ∈ s.keys then s.keys else s.keys ++ [w.key]
  nodup := by
    split
    · exact s.nodup
    next fresh => exact List.nodup_append.mpr ⟨s.nodup, List.nodup_singleton _, by grind⟩
  mem_keys k := by
    have old := s.mem_keys k
    by_cases same : k = w.key
    · subst same
      split <;> simp_all
    · simp only [Function.update_of_ne same]
      split <;> simp_all

def commit (s : Versioned K V) (writes : List (Write K V)) : Option (Versioned K V) :=
  if s.fits writes then some (writes.foldl put s) else none

end Writes

/-! ## Reads -/

variable {s t u : Versioned K V} {k : K}

theorem get_eq_none : s.get k = none ↔ s.held k = [] := by
  simp [get]

theorem get_of_append {before : List (V k)} {v : V k} (h : s.held k = before ++ [v]) :
    s.get k = some ⟨before.length + 1, v⟩ := by
  simp [get, h]

theorem get_congr (h : t.held k = s.held k) : t.get k = s.get k := by
  unfold get
  rw [h]

theorem held_of_get {r : Stored (V k)} (h : s.get k = some r) :
    ∃ before, s.held k = before ++ [r.value] ∧ r.version = before.length + 1 := by
  obtain ⟨last, found, rfl⟩ := Option.map_eq_some_iff.mp h
  obtain ⟨before, split⟩ := List.getLast?_eq_some_iff.mp found
  exact ⟨before, split, by simp [split]⟩

theorem mem_held_of_get {r : Stored (V k)} (h : s.get k = some r) : r.value ∈ s.held k := by
  obtain ⟨before, split, -⟩ := held_of_get h
  simp [split]

def Held (s : Versioned K V) (k : K) (r : Stored (V k)) : Prop :=
  0 < r.version ∧ (s.held k)[r.version - 1]? = some r.value

def Seen (s : Versioned K V) (k : K) (r : Option (Stored (V k))) : Prop := ∀ x, r = some x →
    s.Held k x

def Extends (s t : Versioned K V) : Prop := ∀ k, s.held k <+: t.held k

theorem Extends.refl (s : Versioned K V) : s.Extends s := fun _ => List.prefix_rfl

theorem Extends.of_eq (same : s = t) : s.Extends t := same ▸ .refl s

theorem Extends.trans (first : s.Extends t) (second : t.Extends u) : s.Extends u :=
  fun k => (first k).trans (second k)

theorem seen_get (s : Versioned K V) (k : K) : s.Seen k (s.get k) := by
  intro r h
  obtain ⟨before, split, version⟩ := held_of_get h
  refine ⟨by omega, ?_⟩
  rw [split, version]
  simp

theorem Held.later {r : Stored (V k)} (h : s.Held k r) (extends_ : s.Extends t) : t.Held k r := by
  obtain ⟨more, same⟩ := extends_ k
  refine ⟨h.1, ?_⟩
  rw [← same, List.getElem?_append_left (List.getElem?_eq_some_iff.mp h.2).1]
  exact h.2

theorem Held.mem {r : Stored (V k)} (h : s.Held k r) : r.value ∈ s.held k :=
  List.mem_of_getElem? h.2

theorem Seen.later {r : Option (Stored (V k))} (h : s.Seen k r) (extends_ : s.Extends t) :
    t.Seen k r := fun x same => (h x same).later extends_

theorem Seen.get {r : Option (Stored (V k))} (h : s.Seen k r)
    (unchanged : s.version k = r.map (·.version)) : s.get k = r := by
  cases r with
  | none => simpa [version] using unchanged
  | some x =>
    obtain ⟨y, found, same⟩ := Option.map_eq_some_iff.mp unchanged
    obtain ⟨before, split, version⟩ := held_of_get found
    obtain ⟨-, past⟩ := h x rfl
    have here : x.version - 1 = before.length := by
      have : y.version = x.version := same
      omega
    rw [split, here, List.getElem?_append_right le_rfl] at past
    have value : y.value = x.value := by simpa using past
    rw [found]
    cases x
    cases y
    simp_all

/-! ## Transactions -/

structure Committed (s : Versioned K V) (writes : List (Write K V)) (t : Versioned K V) : Prop where
  fits : ∀ w ∈ writes, s.version w.key = w.expectedVersion
  written : ∀ w ∈ writes, t.held w.key = s.held w.key ++ [w.value]
  others : ∀ k, (∀ w ∈ writes, w.key ≠ k) → t.held k = s.held k

namespace Committed

variable {writes : List (Write K V)}

theorem extends_ (h : s.Committed writes t) : s.Extends t := by
  intro k
  by_cases other : ∀ w ∈ writes, w.key ≠ k
  · rw [h.others k other]
  · push Not at other
    obtain ⟨w, mem, rfl⟩ := other
    rw [h.written w mem]
    exact List.prefix_append _ _

theorem get_written (h : s.Committed writes t) {w : Write K V} (mem : w ∈ writes) :
    t.get w.key = some ⟨(s.held w.key).length + 1, w.value⟩ := get_of_append (h.written w mem)

theorem get_other (h : s.Committed writes t) (other : ∀ w ∈ writes, w.key ≠ k) :
    t.get k = s.get k := get_congr (h.others k other)

theorem cases_ (h : s.Committed writes t) (k : K) : t.held k = s.held k ∨
    ∃ version v, ⟨k, version, v⟩ ∈ writes ∧ t.held k = s.held k ++ [v] := by
  by_cases other : ∀ w ∈ writes, w.key ≠ k
  · exact .inl (h.others k other)
  · push Not at other
    obtain ⟨w, mem, rfl⟩ := other
    exact .inr ⟨w.expectedVersion, w.value, mem, h.written w mem⟩

theorem mem_cases (h : s.Committed writes t) {v : V k} (mem : v ∈ t.held k) :
    v ∈ s.held k ∨ ∃ version, ⟨k, version, v⟩ ∈ writes := by
  rcases h.cases_ k with same | ⟨version, v', wrote, same⟩
  · exact .inl (same ▸ mem)
  · rw [same] at mem
    rcases List.mem_append.mp mem with old | new
    · exact .inl old
    · exact .inr ⟨version, List.mem_singleton.mp new ▸ wrote⟩

theorem found (h : s.Committed writes t) {r : Option (Stored (V k))} {v : V k} (seen : s.Seen k r)
    (mem : ⟨k, r.map (·.version), v⟩ ∈ writes) : s.get k = r :=
  seen.get (h.fits _ mem)

theorem fresh (h : s.Committed writes t) {v : V k} (mem : ⟨k, none, v⟩ ∈ writes) : s.held k = [] :=
  get_eq_none.mp (Option.map_eq_none_iff.mp (h.fits _ mem))

end Committed

variable [DecidableEq K]

theorem foldl_put_other {writes : List (Write K V)} (other : ∀ w ∈ writes, w.key ≠ k) :
    (writes.foldl put s).held k = s.held k := by
  induction writes generalizing s with
  | nil => rfl
  | cons w writes ih =>
    rw [List.foldl_cons, ih fun v later => other v (List.mem_cons_of_mem _ later)]
    exact Function.update_of_ne (other w List.mem_cons_self).symm _ _

theorem committed_of_commit {writes : List (Write K V)} (distinct : (writes.map (·.key)).Nodup)
    (h : s.commit writes = some t) : s.Committed writes t := by
  unfold commit at h
  split at h
  next fits =>
    cases h
    refine ⟨fun w mem => by simpa using List.all_eq_true.mp fits w mem, ?_,
      fun k other => foldl_put_other other⟩
    clear fits
    induction writes generalizing s with
    | nil => exact fun w mem => nomatch mem
    | cons v writes ih =>
      obtain ⟨first, rest⟩ := List.nodup_cons.mp distinct
      have apart : ∀ w ∈ writes, w.key ≠ v.key :=
        fun w mem same => first (List.mem_map.mpr ⟨w, mem, same⟩)
      intro w mem
      rcases List.mem_cons.mp mem with rfl | later
      · rw [List.foldl_cons, foldl_put_other apart]
        exact Function.update_self _ _ _
      · rw [List.foldl_cons, ih rest w later]
        exact congrArg (· ++ [w.value]) (Function.update_of_ne (apart w later) _ _)
  · nomatch h

end Versioned

end Kit
