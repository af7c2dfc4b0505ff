import CorelinkRunners.Kit.Versioned

/-!
# The state store of the monitor

Records by key, each with a version; a transaction writes up to a hundred of them under the versions
it expects; a scan lists the records of a family of keys in the order of the keys, page by page.

The store is the one of `MemoryStateStore`. How many records a page holds is left open, since a page
of the table behind `DynamoDbStateStore` ends where its size does, and so is the order of the keys,
which depends on the digests in them.
-/

namespace CorelinkRunners.Monitor

open Kit

inductive Outcome
  | committed
  | conflict
  deriving DecidableEq

section Store

variable {K : Type} {V : K → Type}

abbrev Row (K : Type) (V : K → Type) : Type := (k : K) × Stored (V k)

inductive StoreRequest (K : Type) (V : K → Type)
  | get (k : K)
  | transact (writes : List (Write K V))
  /-- The records of the keys in the family, after the cursor. -/
  | scan (family : K → Bool) (cursor : Option K)

abbrev StoreRequest.Reply : StoreRequest K V → Type
  | .get k => Option (Stored (V k))
  | .transact _ => Outcome
  | .scan _ _ => List (Row K V) × Option K

@[reducible]
noncomputable def someOrder (K : Type) : LinearOrder K :=
  @linearOrderOfSTO K WellOrderingRel _ (Classical.decRel _)

def keyLe (order : LinearOrder K) (a b : K) : Bool :=
    @decide (order.le a b) (order.toDecidableLE a b)

def keyLt (order : LinearOrder K) (a b : K) : Bool :=
    @decide (order.lt a b) (order.toDecidableLT a b)

def sortedKeys (order : LinearOrder K) (s : Versioned K V) (family : K → Bool) : List K :=
  (s.keys.filter family).mergeSort (keyLe order)

/-- The keys after the cursor. Where there are none, the scan starts over. -/
def remainingKeys (order : LinearOrder K) (s : Versioned K V) (family : K → Bool)
    (cursor : Option K) : List K :=
  match cursor with
  | none => sortedKeys order s family
  | some start =>
    match (sortedKeys order s family).filter (keyLt order start) with
    | [] => sortedKeys order s family
    | first :: rest => first :: rest

/-- One page of a scan; a full page has a cursor for the next one. -/
def scanPage (order : LinearOrder K) (size : Nat) (s : Versioned K V) (family : K → Bool)
    (cursor : Option K) : List (Row K V) × Option K :=
  let selected := (remainingKeys order s family cursor).take size
  (selected.filterMap fun k => (s.get k).map fun r => ⟨k, r⟩,
    if selected.length = size then selected.getLast? else none)

/-! ## What a scan comes across -/

section Scan

variable {order : LinearOrder K} {size : Nat} {s : Versioned K V} {family : K → Bool}
  {cursor : Option K} {k : K}

theorem mem_sortedKeys : k ∈ sortedKeys order s family ↔ s.held k ≠ [] ∧ family k = true := by
  rw [sortedKeys, List.mem_mergeSort, List.mem_filter, s.mem_keys]

theorem sortedKeys_pairwise : (sortedKeys order s family).Pairwise order.le := by
  have transitive (a b c : K) (first : keyLe order a b = true) (second : keyLe order b c = true) :
      keyLe order a c = true := by
    simp only [keyLe, decide_eq_true_eq] at first second ⊢
    exact order.le_trans a b c first second
  have total (a b : K) : (keyLe order a b || keyLe order b a) = true := by
    simpa [keyLe] using order.le_total a b
  have sorted := List.pairwise_mergeSort transitive total (s.keys.filter family)
  exact sorted.imp fun h => by simpa [keyLe] using h

theorem mem_remainingKeys (mem : k ∈ sortedKeys order s family)
    (after : ∀ start, cursor = some start → ¬order.le k start) :
    k ∈ remainingKeys order s family cursor := by
  cases cursor with
  | none => exact mem
  | some start =>
    have later : k ∈ (sortedKeys order s family).filter (keyLt order start) := by
      refine List.mem_filter.mpr ⟨mem, ?_⟩
      simpa [keyLt] using (@not_le K order k start).mp (after start rfl)
    unfold remainingKeys
    split
    next empty => nomatch empty
    next start' same =>
      cases same
      split
      next none_ =>
        rw [none_] at later
        nomatch later
      next first rest found =>
        rw [found] at later
        exact later

theorem remainingKeys_sublist :
    (remainingKeys order s family cursor).Sublist (sortedKeys order s family) := by
  unfold remainingKeys
  split
  · exact .refl _
  next start =>
    split
    · exact .refl _
    next found =>
      rw [← found]
      exact List.filter_sublist

theorem row_of_selected (mem : k ∈ (remainingKeys order s family cursor).take size) :
    ∃ r, s.get k = some r ∧ ⟨k, r⟩ ∈ (scanPage order size s family cursor).1 := by
  have held := (mem_sortedKeys.mp (remainingKeys_sublist.mem (List.mem_of_mem_take mem))).1
  cases found : s.get k with
  | none => exact absurd (Versioned.get_eq_none.mp found) held
  | some r => exact ⟨r, rfl, List.mem_filterMap.mpr ⟨k, mem, by rw [found]; rfl⟩⟩

theorem scanPage_full (room : 0 < size)
    (full : size ≤ (remainingKeys order s family cursor).length) :
    ∃ last ∈ (remainingKeys order s family cursor).take size,
      (scanPage order size s family cursor).2 = some last := by
  have length : ((remainingKeys order s family cursor).take size).length = size := by
    rw [List.length_take]
    omega
  have some_ := List.ne_nil_of_length_pos (length.symm ▸ room)
  refine ⟨_, List.getLast_mem some_, ?_⟩
  rw [scanPage, if_pos length, List.getLast?_eq_getLast_of_ne_nil some_]

/-- **A page covers everything up to its cursor**, and everything if it has none. -/
theorem scanPage_covers (room : 0 < size) (mem : k ∈ sortedKeys order s family)
    (after : ∀ start, cursor = some start → ¬order.le k start)
    (upTo : ∀ next, (scanPage order size s family cursor).2 = some next → order.le k next) :
    ∃ r, s.get k = some r ∧ ⟨k, r⟩ ∈ (scanPage order size s family cursor).1 := by
  apply row_of_selected
  have here := mem_remainingKeys mem after
  rw [← List.take_append_drop size (remainingKeys order s family cursor)] at here
  rcases List.mem_append.mp here with selected | dropped
  · exact selected
  · -- a key beyond the page: the page is full, and its cursor is not after the key
    have longer := List.length_pos_of_mem dropped
    rw [List.length_drop, Nat.sub_pos_iff_lt] at longer
    obtain ⟨last, lastMem, next⟩ := scanPage_full room longer.le
    have sorted : (remainingKeys order s family cursor).Pairwise order.le :=
      sortedKeys_pairwise.sublist remainingKeys_sublist
    rw [← List.take_append_drop size (remainingKeys order s family cursor)] at sorted
    have before := (List.pairwise_append.mp sorted).2.2 last lastMem k dropped
    exact order.le_antisymm last k before (upTo last next) ▸ lastMem

end Scan

/-! ## Transactions -/

variable [DecidableEq K]

def transact (s : Versioned K V) (writes : List (Write K V)) :
    Except String Outcome × Versioned K V :=
  if writes.length < 1 || 100 < writes.length then
    (.error "transaction must contain 1..100 writes", s)
  else if !decide (writes.map (·.key)).Nodup then (.error "duplicate state key", s)
  else match s.commit writes with
    | some t => (.ok .committed, t)
    | none => (.ok .conflict, s)

def serve (order : LinearOrder K) (size : Nat) (s : Versioned K V) :
    (request : StoreRequest K V) → Except String request.Reply × Versioned K V
  | .get k => (.ok (s.get k), s)
  | .transact writes => transact s writes
  | .scan family cursor => (.ok (scanPage order size s family cursor), s)

variable (s : Versioned K V) (writes : List (Write K V))

/-- **A transaction happens as a whole or not at all.** -/
theorem transact_cases :
    ((transact s writes).1 = .ok .committed ∧ s.Committed writes (transact s writes).2) ∨
      ((transact s writes).1 ≠ .ok .committed ∧ (transact s writes).2 = s) := by
  unfold transact
  split
  · exact .inr ⟨nofun, rfl⟩
  split
  · exact .inr ⟨nofun, rfl⟩
  next distinct =>
    have nodup : (writes.map (·.key)).Nodup := by simpa using distinct
    cases commits : s.commit writes with
    | none => exact .inr ⟨nofun, rfl⟩
    | some t => exact .inl ⟨rfl, Versioned.committed_of_commit nodup commits⟩

theorem transact_replays : (transact s writes).1 = .ok .committed →
      (transact s writes).2 = writes.foldl Versioned.put s := by
  unfold transact
  split
  · exact nofun
  split
  · exact nofun
  cases commits : s.commit writes with
  | none => exact nofun
  | some t =>
    unfold Versioned.commit at commits
    split at commits
    · cases commits
      exact fun _ => rfl
    · nomatch commits

end Store

end CorelinkRunners.Monitor
