import CorelinkRunners.Pg.Ceiling

/-!
# States of the two ledgers that agree

`Agrees` relates a state of the in-memory ledger and the tables: a lease row is the record and the
reservation of its id, the accruals and the claims are the same. It also keeps what the comparison
of the two admission gates needs: no tenant has more open leases than a word counts, nor more
accrued and reserved than a ledger column holds, so neither gate saturates. The updates that the
calls make on either side keep it.
-/

namespace CorelinkRunners

open Kit

def LeaseRow.reservation (row : LeaseRow) : Option LeaseReservation :=
  match row.boxVcpuCount, row.accrualPeriodKey, row.reservedVcpuMs with
  | some vcpu, some periodKey, some reserved => some ⟨vcpu, periodKey, reserved, row.accruedAtMs⟩
  | _, _, _ => none

/-- The tables hold what the in-memory ledger holds. -/
structure Agrees (s : InMemoryInner) (db : Db) : Prop where
  records : ∀ id : String, s.records[id]? = db.leases[id]?.map LeaseRow.record
  reservations : ∀ id : String, s.reservations[id]? = db.leases[id]?.bind LeaseRow.reservation
  accruals : ∀ tenant periodKey, s.computeAccrued tenant periodKey = db.accrued tenant.raw periodKey
  claims : ∀ id, s.pendingCleanupClaims.contains id = db.pendingCleanupClaims.contains id
  unreserved : db.externalComputeReservations = ∅
  tables : db.WellFormed
  created : ∀ (id : String) (row : LeaseRow), db.leases[id]? = some row →
    row.record.createdAtMs ≤ Word.maxI64
  within : ∀ tenant periodKey, db.Within tenant Word.maxU32 periodKey maxLedgerVcpuMs

namespace Agrees

variable {s : InMemoryInner} {db : Db}

theorem empty : Agrees .empty .empty := by
  refine ⟨fun _ => ?_, fun _ => ?_, fun _ _ => ?_, fun _ => ?_, rfl, .empty, fun _ _ h => ?_,
    fun _ _ => ⟨?_, ?_⟩⟩
  · simp [InMemoryInner.empty, Db.empty]
  · simp [InMemoryInner.empty, Db.empty]
  · simp [InMemoryInner.computeAccrued, InMemoryInner.empty, Db.accrued, Db.empty]
  · simp [InMemoryInner.empty, Db.empty]
  · simp [Db.empty] at h
  · simp [Db.activeCount, Db.empty]
  · simp [Db.usedIn, Db.accrued, Db.reservedNative, Db.reservedExternal, Db.empty]

variable {id : String} {row : LeaseRow}

theorem get_some (h : Agrees s db) (found : db.leases[id]? = some row) :
    s.records[id]? = some row.record := by
  rw [h.records, found]
  rfl

theorem get_none (h : Agrees s db) (absent : db.leases[id]? = none) : s.records[id]? = none := by
  rw [h.records, absent]
  rfl

theorem contains (h : Agrees s db) (id : String) :
    s.records.contains id = db.leases.contains id := by
  rw [Std.ExtTreeMap.contains_eq_isSome_getElem?, Std.ExtTreeMap.contains_eq_isSome_getElem?,
    h.records, Option.isSome_map]

/-! ## Sums and counts -/

theorem reservedExternal (h : Agrees s db) (tenant : String) (periodKey : Nat) :
    db.reservedExternal tenant periodKey = 0 := by
  unfold Db.reservedExternal
  rw [h.unreserved]
  exact OrdMap.sumBy_empty

theorem active_length (h : Agrees s db) (tenant : TenantId) :
    (s.active tenant).length = db.activeCount tenant.raw := by
  unfold InMemoryInner.active Db.activeCount
  rw [OrdMap.length_filter_vals, OrdMap.sumBy_of_get_map h.records]
  refine OrdMap.sumBy_congr fun a row _ => ?_
  unfold Db.activeWeight
  congr 1
  rw [Bool.and_eq_true, decide_eq_true_eq]
  exact propext (and_congr_left fun _ => ⟨congrArg TenantId.raw, TenantId.ext_raw⟩)

theorem active_asU32 (h : Agrees s db) (tenant : TenantId) :
    Word.asU32 (s.active tenant).length = db.activeCount tenant.raw := by
  have hcap := (h.within tenant.raw 0).capped
  rw [h.active_length]
  unfold Word.asU32
  unfold Word.maxU32 at hcap
  omega

theorem weight_eq (h : Agrees s db) (found : db.leases[id]? = some row) (tenant : TenantId)
    (periodKey : Nat) :
    weight s.reservations tenant periodKey row.record =
      Db.leaseWeight tenant.raw periodKey row := by
  have howner : row.record.tenant = tenant ↔ row.record.tenant.raw = tenant.raw :=
    ⟨congrArg TenantId.raw, TenantId.ext_raw⟩
  unfold weight Db.leaseWeight
  rw [h.tables.keyed _ row found, h.reservations, found]
  simp only [howner, Option.bind_some]
  rcases h.tables.columns id row found with ⟨hvcpu, hperiod, hreserved⟩ |
    ⟨vcpu, period, reserved, hvcpu, hperiod, hreserved, -⟩
  · simp [LeaseRow.reservation, hvcpu, hperiod]
  · by_cases hown : row.record.tenant.raw = tenant.raw ∧ row.record.state.isActive = true
    · simp [LeaseRow.reservation, hvcpu, hperiod, hreserved, hown]
    · rw [if_neg hown, if_neg fun hall => hown ⟨hall.1, hall.2.1⟩]

theorem reservedInPeriod_sum (h : Agrees s db) (tenant : TenantId) (periodKey : Nat) :
    (s.reservedInPeriod tenant periodKey).sum = db.reservedNative tenant.raw periodKey := by
  rw [InMemoryInner.reservedInPeriod_sum]
  unfold Db.reservedNative
  rw [OrdMap.sumBy_of_get_map h.records]
  exact OrdMap.sumBy_congr fun a row found => h.weight_eq found tenant periodKey

theorem projected (h : Agrees s db) (tenant : TenantId) (gate : ComputeGate) :
    Word.satAdd (Word.satAdd (s.computeAccrued tenant gate.periodKey)
      ((s.reservedInPeriod tenant gate.periodKey).foldl Word.satAdd 0)) gate.newReservedVcpuMs =
      db.projected tenant.raw gate := by
  have hwithin := (h.within tenant.raw gate.periodKey).within
  have hbound : maxLedgerVcpuMs < Word.maxU64 := by decide
  unfold Db.usedIn at hwithin
  rw [Word.foldl_satAdd _ (Nat.zero_le _), h.reservedInPeriod_sum, h.accruals]
  unfold Db.projected
  rw [h.reservedExternal] at hwithin ⊢
  congr 2
  omega

/-! ## Reads -/

theorem records_eq (h : Agrees s db) {p : LeaseRow → Bool} {q : LeaseRecord → Bool}
    (same : ∀ (id : String) (row : LeaseRow), db.leases[id]? = some row → p row = q row.record) :
    db.records p = InMemoryInner.sortById (s.records.vals.filter q) := by
  unfold Db.records InMemoryInner.sortById
  congr 1
  rw [OrdMap.vals_of_get h.records, List.filter_map]
  congr 1
  refine List.filter_congr fun row hrow => ?_
  obtain ⟨id, found⟩ := OrdMap.mem_vals.mp hrow
  exact same id row found

theorem stale_iff (h : Agrees s db) (found : db.leases[id]? = some row) (nowMs maxAgeMs : Nat) :
    decide (asI64 row.record.createdAtMs < (nowMs : Int) - maxAgeMs) =
      decide (row.record.createdAtMs < nowMs - maxAgeMs) := by
  have hcreated := h.created id row found
  unfold asI64
  rw [if_pos hcreated, decide_eq_decide]
  omega

/-! ## Updates -/

theorem insert (h : Agrees s db) {after : LeaseRow} {reservations : OrdMap String LeaseReservation}
    (keyed : after.record.leaseId = id) (columns : after.Columns)
    (unlatched : after.record.state.isActive = true → after.accruedAtMs = none)
    (created : after.record.createdAtMs ≤ Word.maxI64)
    (within : ∀ tenant periodKey, (db.apply (.lease id (some after))).Within tenant Word.maxU32
      periodKey maxLedgerVcpuMs)
    (reserved : ∀ k : String, reservations[k]? =
      if id = k then after.reservation else s.reservations[k]?) :
    Agrees { s with records := s.records.insert id after.record, reservations }
      (db.apply (.lease id (some after))) := by
  have hget : ∀ k : String, (db.apply (.lease id (some after))).leases[k]? =
      if id = k then some after else db.leases[k]? :=
      fun k => OrdMap.get_insert db.leases id k after
  refine ⟨fun k => ?_, fun k => ?_, h.accruals, h.claims, h.unreserved,
    h.tables.insert keyed columns unlatched, fun k row found => ?_, within⟩
  · dsimp only
    rw [OrdMap.get_insert, hget, h.records]
    split <;> rfl
  · rw [reserved, hget, h.reservations]
    split <;> rfl
  · rw [hget] at found
    split at found
    · cases found
      exact created
    · exact h.created k row found

theorem update (h : Agrees s db) {after : LeaseRow} (found : db.leases[id]? = some row)
    (keyed : after.record.leaseId = id) (lighter : after.Lighter row)
    (created : after.record.createdAtMs = row.record.createdAtMs)
    (vcpu : after.boxVcpuCount = row.boxVcpuCount) (latch : after.accruedAtMs = row.accruedAtMs) :
    Agrees { s with records := s.records.insert id after.record }
      (db.apply (.lease id (some after))) := by
  have hcolumns : after.Columns := by
    unfold LeaseRow.Columns
    rw [vcpu, lighter.period, lighter.reserved]
    exact h.tables.columns id row found
  have hreservation : after.reservation = row.reservation := by
    unfold LeaseRow.reservation
    rw [vcpu, lighter.period, lighter.reserved, latch]
  refine h.insert keyed hcolumns (fun hactive => ?_) ?_
    (fun t p => (h.within t p).lighter found lighter) fun k => ?_
  · rw [latch]
    exact h.tables.unlatched id row found (lighter.active hactive)
  · rw [created]
    exact h.created id row found
  · split
    next hk => rw [← hk, h.reservations, found, hreservation]; rfl
    · rfl

theorem accrue (h : Agrees s db) {tenant : TenantId} {periodKey total : Nat}
    (fits : total ≤ maxLedgerVcpuMs)
    (within : ∀ t p, (db.apply (.accrual tenant.raw periodKey total)).Within t Word.maxU32 p
      maxLedgerVcpuMs) : Agrees { s with accruals := s.accruals.insert (tenant, periodKey) total }
      (db.apply (.accrual tenant.raw periodKey total)) := by
  refine ⟨h.records, h.reservations, fun t p => ?_, h.claims, h.unreserved, h.tables.accrual fits,
    h.created, within⟩
  have hkey : ((tenant, periodKey) = (t, p)) ↔ ((tenant.raw, periodKey) = (t.raw, p)) := by
    rw [Prod.mk.injEq, Prod.mk.injEq]
    exact and_congr_left fun _ => ⟨congrArg TenantId.raw, TenantId.ext_raw⟩
  have hbefore := h.accruals t p
  unfold InMemoryInner.computeAccrued at hbefore ⊢
  rw [OrdMap.get_insert, Db.accrued_accrual]
  by_cases heq : (tenant, periodKey) = (t, p)
  · rw [if_pos heq, if_pos (hkey.mp heq)]
    rfl
  · rw [if_neg heq, if_neg fun h => heq (hkey.mpr h)]
    exact hbefore

theorem finish (h : Agrees s db) (id : String) :
    Agrees (s.finish id) (db.apply (.lease id none)) := by
  have hget : ∀ k : String, (db.apply (.lease id none)).leases[k]? =
      if id = k then none else db.leases[k]? := fun k => OrdMap.get_erase db.leases id k
  refine ⟨fun k => ?_, fun k => ?_, h.accruals, fun k => ?_, h.unreserved, h.tables.erase id,
    fun k row found => ?_, fun t p => (h.within t p).delete⟩
  · show (s.records.erase id)[k]? = _
    rw [OrdMap.get_erase, hget, h.records]
    split <;> rfl
  · show (s.reservations.erase id)[k]? = _
    rw [OrdMap.get_erase, hget, h.reservations]
    split <;> rfl
  · show (s.pendingCleanupClaims.erase id).contains k =
      (db.pendingCleanupClaims.erase id).contains k
    rw [Std.ExtTreeSet.contains_erase, Std.ExtTreeMap.contains_erase, h.claims]
  · rw [hget] at found
    split at found
    · nomatch found
    · exact h.created k row found

theorem claim (h : Agrees s db) (id : String) (claimedAtMs : Nat) :
    Agrees (s.claim id) (db.apply (.claim id claimedAtMs)) := by
  refine ⟨h.records, h.reservations, h.accruals, fun k => ?_, h.unreserved, ?_, h.created,
    fun t p => ⟨(h.within t p).capped, (h.within t p).within⟩⟩
  · show (s.pendingCleanupClaims.insert id).contains k =
      (db.pendingCleanupClaims.insert id claimedAtMs).contains k
    rw [Std.ExtTreeSet.contains_insert, Std.ExtTreeMap.contains_insert, h.claims]
  · exact ⟨h.tables.keyed, h.tables.columns, h.tables.unlatched, h.tables.external,
      h.tables.bounded⟩

theorem claim_again (h : Agrees s db) (claimed : db.pendingCleanupClaims.contains id = true) :
    Agrees (s.claim id) db := by
  refine ⟨h.records, h.reservations, h.accruals, fun k => ?_, h.unreserved, h.tables, h.created,
    h.within⟩
  have hmem : id ∈ s.pendingCleanupClaims := by
    rw [← Std.ExtTreeSet.contains_iff_mem, h.claims]
    exact claimed
  show (s.pendingCleanupClaims.insert id).contains k = _
  rw [OrdSet.insert_of_mem hmem]
  exact h.claims k

end Agrees

/-! ## Calls -/

def SameResult {α : Type} : Result α → Result α → Prop
  | .ok a, .ok b => a = b
  | .error _, .error _ => True
  | _, _ => False

/-- A call made on both sides answers the same and leaves states that agree. -/
structure Together {α : Type} (memory : Result α × InMemoryInner) (tables : Result α × Db) :
    Prop where
  same : SameResult memory.1 tables.1
  agrees : Agrees memory.2 tables.2

theorem Together.map {α β : Type} {memory : Result α × InMemoryInner} {tables : Result α × Db}
    (f : α → β) (h : Together memory tables) :
    Together (memory.1.map f, memory.2) (tables.1.map f, tables.2) := by
  obtain ⟨a, s⟩ := memory
  obtain ⟨b, db⟩ := tables
  refine ⟨?_, h.agrees⟩
  have same := h.same
  cases a with
  | error e =>
    cases b with
    | error e' => trivial
    | ok y => exact same
  | ok x =>
    cases b with
    | error e' => exact same
    | ok y => exact congrArg f same

structure LeaseRecord.Fresh (rec : LeaseRecord) : Prop where
  pending : rec.state = .pending
  updated : rec.updatedAtMs = rec.createdAtMs
  unbilled : rec.billingAcquiredAtMs = none
  created : rec.createdAtMs ≤ Word.maxI64

theorem LeaseRecord.Fresh.admitted {rec : LeaseRecord} (fresh : rec.Fresh)
    (gate : Option ComputeGate) : (LeaseRow.admitted rec gate).record = rec := by
  obtain ⟨-, hupdated, hunbilled, -⟩ := fresh
  cases rec
  dsimp only at hupdated hunbilled
  subst hupdated hunbilled
  rfl

end CorelinkRunners
