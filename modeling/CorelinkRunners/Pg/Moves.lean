import CorelinkRunners.Pg.External

/-!
# What a commit of the Postgres ledger does

`PgMove call held db ws` says what the call may publish over the committed tables `db` while it
holds the locks `held`: it admits a lease, rebinds or moves one, closes one and accrues it, deletes
one, claims one, or writes an external reservation. Every other result about interleaved calls is
read off these moves.

`PgRely` is what the locks are good for. The accrual of a terminal transition goes to the tenant and
the period its pre-read saw, and the pre-read is not locked. `PgCond` is what a run has to promise
for it: the row that is moved is the one the pre-read described.
-/

namespace CorelinkRunners

open Kit

/-! ## Well-formed tables -/

/-- The compute columns are set together, within the ledger bound, or not at all. -/
def LeaseRow.Columns (row : LeaseRow) : Prop :=
  (row.boxVcpuCount = none ∧ row.accrualPeriodKey = none ∧ row.reservedVcpuMs = none) ∨
    ∃ vcpu periodKey reserved, row.boxVcpuCount = some vcpu ∧
      row.accrualPeriodKey = some periodKey ∧ row.reservedVcpuMs = some reserved ∧
      reserved ≤ maxLedgerVcpuMs

/-- Rows are under their ids, with their compute columns in order; the latch of a lease is not set
before it is closed; and no accrual leaves the ledger bound. -/
structure Db.WellFormed (db : Db) : Prop where
  keyed : ∀ (id : String) (row : LeaseRow), db.leases[id]? = some row → row.record.leaseId = id
  columns : ∀ (id : String) (row : LeaseRow), db.leases[id]? = some row → row.Columns
  unlatched : ∀ (id : String) (row : LeaseRow), db.leases[id]? = some row →
    row.record.state.isActive = true → row.accruedAtMs = none
  external : ∀ (id : String) (row : ExternalRow), db.externalComputeReservations[id]? = some row →
    row.grant.reservationId = id
  bounded : ∀ tenant periodKey, db.accrued tenant periodKey ≤ maxLedgerVcpuMs

/-! ## Moves -/

def Db.usedIn (db : Db) (tenant : String) (periodKey : Nat) : Nat :=
  db.accrued tenant periodKey + db.reservedNative tenant periodKey +
    db.reservedExternal tenant periodKey

/-- What the compute gate compares with the ceiling. -/
def Db.projected (db : Db) (tenant : String) (gate : ComputeGate) : Nat :=
  Word.satAdd
    (Word.satAdd (db.accrued tenant gate.periodKey)
      (min (db.reservedNative tenant gate.periodKey + db.reservedExternal tenant gate.periodKey)
        maxLedgerVcpuMs))
    gate.newReservedVcpuMs

def PgCall.admits : PgCall → Option (LeaseRecord × Nat × Option ComputeGate)
  | tryAdmit rec cap => some (rec, cap, none)
  | tryAdmitWithCompute rec cap gate => some (rec, cap, gate.filter fun g => g.ceilingVcpuMs > 0)
  | _ => none

inductive PgMove (strict : Bool) (call : PgCall) (held : PgLock → Prop) (db : Db) :
    List Write → Prop
  | idle : PgMove strict call held db []
  | reserve {rec : LeaseRecord} {cap : Nat} {gate : Option ComputeGate}
      (admits : call.admits = some (rec, cap, gate)) (locked : held (.advisory rec.tenant.raw))
      (owned : held (.lease rec.leaseId)) (fresh : db.leases[rec.leaseId]? = none)
      (room : db.activeCount rec.tenant.raw < cap)
      (within : ∀ g, gate = some g → g.newReservedVcpuMs ≤ maxLedgerVcpuMs ∧
        g.ceilingVcpuMs ≤ maxLedgerVcpuMs ∧ db.projected rec.tenant.raw g ≤ g.ceilingVcpuMs) :
      PgMove strict call held db [.lease rec.leaseId (some (.admitted rec gate))]
  | rebind {id providerRef : String} {row : LeaseRow} (owned : held (.lease id))
      (found : db.leases[id]? = some row) :
      PgMove strict call held db
        [.lease id (some { row with record := { row.record with boxRef := providerRef } })]
  | move {id : String} {target : RunnerState} {nowMs : Nat} {row : LeaseRow}
      (owned : held (.lease id)) (found : db.leases[id]? = some row)
      (legal : row.record.state = legalFromFor target)
      (unaccounted : strict = true → target.isTerminal = true → row.boxVcpuCount = none) :
      PgMove strict call held db [.lease id (some (row.moved target nowMs))]
  | close {id : String} {target : RunnerState} {nowMs vcpu periodKey reserved : Nat}
      {row : LeaseRow} (locked : held (.advisory row.record.tenant.raw)) (owned : held (.lease id))
      (found : db.leases[id]? = some row) (legal : row.record.state = legalFromFor target)
      (terminal : target.isTerminal = true) (hvcpu : row.boxVcpuCount = some vcpu)
      (hperiod : row.accrualPeriodKey = some periodKey)
      (hreserved : row.reservedVcpuMs = some reserved)
      (moves : call = .transition id target nowMs) :
      PgMove strict call held db
        [.lease id (some (row.movedStamped target nowMs)),
          .accrual row.record.tenant.raw periodKey
            (min (db.accrued row.record.tenant.raw periodKey +
              min (vcpu * (nowMs - row.record.createdAtMs)) reserved) maxLedgerVcpuMs)]
  | delete {id : String} {row : LeaseRow} (owned : held (.lease id))
      (found : db.leases[id]? = some row) : PgMove strict call held db [.lease id none]
  | claim {id : String} {claimedAtMs : Nat} (owned : held (.lease id)) :
      PgMove strict call held db [.claim id claimedAtMs]
  | baseline {b : ExternalComputeBaseline} (initializes : call = .initializePeriod b)
      (locked : held (.advisory b.tenantId))
      (fresh : db.externalComputePeriods[(b.tenantId, b.periodKey)]? = none)
      (fits : db.accrued b.tenantId b.periodKey + b.externalVcpuMs ≤ maxLedgerVcpuMs) :
      PgMove strict call held db
        [.period b.tenantId b.periodKey ⟨b.externalVcpuMs, b.evidenceDigest⟩,
          .accrual b.tenantId b.periodKey
            (db.accrued b.tenantId b.periodKey + b.externalVcpuMs)]
  | reserveExternal {r : ExternalComputeReservation} {clock : PgClock} {reserved : Nat}
      (reserves : call = .reserve r clock) (locked : held (.advisory r.tenantId))
      (owned : held (.reservation r.reservationId))
      (fresh : db.externalComputeReservations[r.reservationId]? = none)
      (within : db.usedIn r.tenantId r.periodKey + reserved ≤ r.ceilingVcpuMs) :
      PgMove strict call held db [.external ⟨r, .prepared, reserved, none, none⟩]
  /-- The cancelled reservation that a cancellation leaves where there was none. -/
  | fence {r : ExternalComputeReservation} {reserved : Nat} (locked : held (.advisory r.tenantId))
      (owned : held (.reservation r.reservationId))
      (fresh : db.externalComputeReservations[r.reservationId]? = none) :
      PgMove strict call held db [.external ⟨r, .cancelled, reserved, none, none⟩]
  | turn {row : ExternalRow} {target : ExternalComputeState}
      (locked : held (.advisory row.grant.tenantId))
      (owned : held (.reservation row.grant.reservationId))
      (found : db.externalComputeReservations[row.grant.reservationId]? = some row)
      (prepared : row.state = .prepared) (aim : target = .active ∨ target = .cancelled) :
      PgMove strict call held db [.external { row with state := target }]
  | settle {row : ExternalRow} {r : ExternalComputeReservation} {s : ExternalComputeSettlement}
      (settles : call = .settle r s) (locked : held (.advisory row.grant.tenantId))
      (owned : held (.reservation row.grant.reservationId))
      (found : db.externalComputeReservations[row.grant.reservationId]? = some row)
      (fits : db.accrued row.grant.tenantId row.grant.periodKey + s.actualVcpuMs ≤
        maxLedgerVcpuMs) (active : row.state = .active) :
      PgMove strict call held db
        [.external { row with
          state := .settled
          actualVcpuMs := some s.actualVcpuMs
          terminalEvidenceDigest := some s.terminalEvidenceDigest },
          .accrual row.grant.tenantId row.grant.periodKey
            (db.accrued row.grant.tenantId row.grant.periodKey + s.actualVcpuMs)]

/-! ## What locks protect -/

/-- What others leave alone while a session holds its locks. -/
structure PgRely (held : PgLock → Prop) (db db' : Db) : Prop where
  lease : ∀ id, held (.lease id) → db'.leases[id]? = db.leases[id]?
  accrual : ∀ (tenant : String) (periodKey : Nat), held (.advisory tenant) →
    db'.computeAccrual[(tenant, periodKey)]? = db.computeAccrual[(tenant, periodKey)]?
  period : ∀ (tenant : String) (periodKey : Nat), held (.advisory tenant) →
    db'.externalComputePeriods[(tenant, periodKey)]? =
      db.externalComputePeriods[(tenant, periodKey)]?
  grant : ∀ (tenant id : String) (row : ExternalRow), held (.advisory tenant) →
    row.grant.tenantId = tenant → db.externalComputeReservations[id]? = some row →
      db'.externalComputeReservations[id]? = some row
  reservation : ∀ id, held (.reservation id) →
    db'.externalComputeReservations[id]? = db.externalComputeReservations[id]?
  active : ∀ tenant, held (.advisory tenant) → db'.activeCount tenant ≤ db.activeCount tenant
  native : ∀ tenant periodKey, held (.advisory tenant) →
    db'.reservedNative tenant periodKey ≤ db.reservedNative tenant periodKey
  external : ∀ tenant periodKey, held (.advisory tenant) →
    db'.reservedExternal tenant periodKey ≤ db.reservedExternal tenant periodKey

namespace PgRely

variable {held held' : PgLock → Prop} {db db' db'' : Db}

theorem refl (held : PgLock → Prop) (db : Db) : PgRely held db db :=
  ⟨fun _ _ => rfl, fun _ _ _ => rfl, fun _ _ _ => rfl, fun _ _ _ _ _ h => h, fun _ _ => rfl,
    fun _ _ => Nat.le_refl _, fun _ _ _ => Nat.le_refl _, fun _ _ _ => Nat.le_refl _⟩

theorem trans (h : PgRely held db db') (h' : PgRely held db' db'') : PgRely held db db'' where
  lease id hid := (h'.lease id hid).trans (h.lease id hid)
  accrual t p ht := (h'.accrual t p ht).trans (h.accrual t p ht)
  period t p ht := (h'.period t p ht).trans (h.period t p ht)
  grant t id row ht hrow hfound := h'.grant t id row ht hrow (h.grant t id row ht hrow hfound)
  reservation id hid := (h'.reservation id hid).trans (h.reservation id hid)
  active t ht := Nat.le_trans (h'.active t ht) (h.active t ht)
  native t p ht := Nat.le_trans (h'.native t p ht) (h.native t p ht)
  external t p ht := Nat.le_trans (h'.external t p ht) (h.external t p ht)

theorem mono (sub : ∀ l, held' l → held l) (h : PgRely held db db') : PgRely held' db db' where
  lease id hid := h.lease id (sub _ hid)
  accrual t p ht := h.accrual t p (sub _ ht)
  period t p ht := h.period t p (sub _ ht)
  grant t id row ht := h.grant t id row (sub _ ht)
  reservation id hid := h.reservation id (sub _ hid)
  active t ht := h.active t (sub _ ht)
  native t p ht := h.native t p (sub _ ht)
  external t p ht := h.external t p (sub _ ht)

variable {tenant : String}

theorem accrued_eq (h : PgRely held db db') (locked : held (.advisory tenant)) (periodKey : Nat) :
    db'.accrued tenant periodKey = db.accrued tenant periodKey := by
  unfold Db.accrued
  rw [h.accrual tenant periodKey locked]

theorem usedIn_le (h : PgRely held db db') (locked : held (.advisory tenant)) (periodKey : Nat) :
    db'.usedIn tenant periodKey ≤ db.usedIn tenant periodKey := by
  have haccrued := h.accrued_eq locked periodKey
  have hnative := h.native tenant periodKey locked
  have hexternal := h.external tenant periodKey locked
  unfold Db.usedIn
  omega

theorem projected_le (h : PgRely held db db') (locked : held (.advisory tenant))
    (gate : ComputeGate) : db'.projected tenant gate ≤ db.projected tenant gate := by
  have haccrued := h.accrued_eq locked gate.periodKey
  have hnative := h.native tenant gate.periodKey locked
  have hexternal := h.external tenant gate.periodKey locked
  unfold Db.projected Word.satAdd
  omega

variable {id : String}

theorem of_insert {row : LeaseRow} (free : ¬ held (.lease id))
    (active : ∀ tenant, held (.advisory tenant) →
      OrdMap.sumBy (fun _ row => Db.activeWeight tenant row) (db.leases.insert id row) ≤
        db.activeCount tenant) (native : ∀ tenant periodKey, held (.advisory tenant) →
      OrdMap.sumBy (fun _ row => Db.leaseWeight tenant periodKey row) (db.leases.insert id row) ≤
        db.reservedNative tenant periodKey) :
    PgRely held db { db with leases := db.leases.insert id row } where
  lease a ha := by
    rw [OrdMap.get_insert, if_neg]
    rintro rfl
    exact free ha
  accrual _ _ _ := rfl
  period _ _ _ := rfl
  grant _ _ _ _ _ h := h
  reservation _ _ := rfl
  active := active
  native := native
  external _ _ _ := Nat.le_refl _

theorem of_erase (free : ¬ held (.lease id)) : PgRely held db (db.apply (.lease id none)) where
  lease a ha := by
    show (db.leases.erase id)[a]? = _
    rw [OrdMap.get_erase, if_neg]
    rintro rfl
    exact free ha
  accrual _ _ _ := rfl
  period _ _ _ := rfl
  grant _ _ _ _ _ h := h
  reservation _ _ := rfl
  active _ _ := OrdMap.sumBy_erase_le
  native _ _ _ := OrdMap.sumBy_erase_le
  external _ _ _ := Nat.le_refl _

variable {periodKey : Nat}

theorem of_accrual {total : Nat} (free : ¬ held (.advisory tenant)) :
    PgRely held db (db.apply (.accrual tenant periodKey total)) where
  lease _ _ := rfl
  accrual t p ht := by
    show (db.computeAccrual.insert (tenant, periodKey) total)[(t, p)]? = _
    rw [OrdMap.get_insert, if_neg]
    rintro ⟨⟩
    exact free ht
  period _ _ _ := rfl
  grant _ _ _ _ _ h := h
  reservation _ _ := rfl
  active _ _ := Nat.le_refl _
  native _ _ _ := Nat.le_refl _
  external _ _ _ := Nat.le_refl _

theorem of_period {row : ExternalPeriodRow} (free : ¬ held (.advisory tenant)) :
    PgRely held db (db.apply (.period tenant periodKey row)) where
  lease _ _ := rfl
  accrual _ _ _ := rfl
  period t p ht := by
    show (db.externalComputePeriods.insert (tenant, periodKey) row)[(t, p)]? = _
    rw [OrdMap.get_insert, if_neg]
    rintro ⟨⟩
    exact free ht
  grant _ _ _ _ _ h := h
  reservation _ _ := rfl
  active _ _ := Nat.le_refl _
  native _ _ _ := Nat.le_refl _
  external _ _ _ := Nat.le_refl _

theorem of_external {row : ExternalRow} (free : ¬ held (.advisory row.grant.tenantId))
    (unowned : ¬ held (.reservation row.grant.reservationId))
    (owner : ∀ row', db.externalComputeReservations[row.grant.reservationId]? = some row' →
      row'.grant.tenantId = row.grant.tenantId) : PgRely held db (db.apply (.external row)) := by
  have other : ∀ t, held (.advisory t) → t ≠ row.grant.tenantId := by
    rintro t ht rfl
    exact free ht
  refine ⟨fun _ _ => rfl, fun _ _ _ => rfl, fun _ _ _ => rfl, ?_, ?_, fun _ _ => Nat.le_refl _,
    fun _ _ _ => Nat.le_refl _, ?_⟩
  · intro t id row' ht hrow' hfound
    show (db.externalComputeReservations.insert row.grant.reservationId row)[id]? = _
    rw [OrdMap.get_insert, if_neg, hfound]
    rintro rfl
    exact other t ht (hrow'.symm.trans (owner row' hfound))
  · intro id hid
    show (db.externalComputeReservations.insert row.grant.reservationId row)[id]? = _
    rw [OrdMap.get_insert, if_neg]
    rintro rfl
    exact unowned hid
  · intro t p ht
    have hzero : Db.externalWeight t p row = 0 := if_neg fun h => other t ht h.1.symm
    show OrdMap.sumBy _ (db.externalComputeReservations.insert row.grant.reservationId row) ≤ _
    rw [OrdMap.sumBy_insert, hzero, Nat.zero_add]
    exact OrdMap.sumBy_erase_le

end PgRely

/-! ## What moves keep -/

structure LeaseRow.Lighter (after before : LeaseRow) : Prop where
  tenant : after.record.tenant = before.record.tenant
  period : after.accrualPeriodKey = before.accrualPeriodKey
  reserved : after.reservedVcpuMs = before.reservedVcpuMs
  active : after.record.state.isActive = true → before.record.state.isActive = true

namespace LeaseRow.Lighter

variable {after before : LeaseRow}

theorem activeWeight_le (h : after.Lighter before) (tenant : String) :
    Db.activeWeight tenant after ≤ Db.activeWeight tenant before := by
  unfold Db.activeWeight
  rw [h.tenant]
  split
  next hafter => rw [if_pos ⟨hafter.1, h.active hafter.2⟩]
  · exact Nat.zero_le _

theorem leaseWeight_le (h : after.Lighter before) (tenant : String) (periodKey : Nat) :
    Db.leaseWeight tenant periodKey after ≤ Db.leaseWeight tenant periodKey before := by
  unfold Db.leaseWeight
  rw [h.tenant, h.period, h.reserved]
  split
  next hafter => rw [if_pos ⟨hafter.1, h.active hafter.2.1, hafter.2.2⟩]
  · exact Nat.zero_le _

end LeaseRow.Lighter

theorem legalFromFor_active (target : RunnerState) : (legalFromFor target).isActive = true := by
  cases target <;> rfl

variable {target : RunnerState}

theorem isActive_wire_terminal (h : target.isTerminal = true) :
    (LeaseState.wire target).isActive = false := by
  cases target <;> first | rfl | nomatch h

theorem isActive_wire_open (h : target.isTerminal = false) :
    (LeaseState.wire target).isActive = true := by
  cases target <;> first | rfl | nomatch h

variable {row : LeaseRow}

theorem LeaseRow.moved_lighter (nowMs : Nat) (legal : row.record.state = legalFromFor target) :
    (row.moved target nowMs).Lighter row :=
  ⟨rfl, rfl, rfl, fun _ => by rw [legal, legalFromFor_active]⟩

theorem LeaseRow.movedStamped_lighter (nowMs : Nat)
    (legal : row.record.state = legalFromFor target) :
    (row.movedStamped target nowMs).Lighter row :=
  ⟨rfl, rfl, rfl, fun _ => by rw [legal, legalFromFor_active]⟩

namespace PgMove

variable {strict : Bool} {call : PgCall} {held held' : PgLock → Prop} {db : Db} {ws : List Write}

theorem rely_lighter {id : String} {after before : LeaseRow} (free : ¬ held (.lease id))
    (found : db.leases[id]? = some before) (lighter : after.Lighter before) :
    PgRely held db { db with leases := db.leases.insert id after } :=
  .of_insert free (fun tenant _ => OrdMap.sumBy_insert_le found (lighter.activeWeight_le tenant))
    fun tenant periodKey _ =>
      OrdMap.sumBy_insert_le found (lighter.leaseWeight_le tenant periodKey)

/-- **What a move leaves alone**: everything that a lock outside its own protects. -/
theorem rely (move : PgMove strict call held db ws) (disjoint : ∀ l, held' l → ¬ held l) :
    PgRely held' db (db.applyAll ws) := by
  have free : ∀ {l}, held l → ¬ held' l := fun h h' => disjoint _ h' h
  cases move with
  | idle => exact .refl _ _
  | @reserve rec cap gate admits locked owned fresh room within =>
    have other : ∀ t, held' (.advisory t) → rec.tenant.raw ≠ t := by
      rintro t ht rfl
      exact free locked ht
    refine .of_insert (free owned) (fun t ht => ?_) fun t p ht => ?_
    · rw [OrdMap.sumBy_insert_of_none fresh, Db.activeWeight, if_neg fun h => other t ht h.1,
        Nat.zero_add]
      exact Nat.le_refl _
    · rw [OrdMap.sumBy_insert_of_none fresh, Db.leaseWeight, if_neg fun h => other t ht h.1,
        Nat.zero_add]
      exact Nat.le_refl _
  | rebind owned found => exact rely_lighter (free owned) found ⟨rfl, rfl, rfl, fun h => h⟩
  | move owned found legal => exact rely_lighter (free owned) found (LeaseRow.moved_lighter _ legal)
  | @close _ _ nowMs _ _ _ _ locked owned found legal =>
    have hrow := rely_lighter (free owned) found (LeaseRow.movedStamped_lighter nowMs legal)
    exact hrow.trans (.of_accrual (free locked))
  | delete owned => exact .of_erase (free owned)
  | claim owned =>
    exact ⟨fun _ _ => rfl, fun _ _ _ => rfl, fun _ _ _ => rfl, fun _ _ _ _ _ h => h,
      fun _ _ => rfl, fun _ _ => Nat.le_refl _, fun _ _ _ => Nat.le_refl _,
      fun _ _ _ => Nat.le_refl _⟩
  | baseline _ locked => exact (PgRely.of_period (free locked)).trans (.of_accrual (free locked))
  | reserveExternal _ locked owned fresh =>
    exact .of_external (free locked) (free owned) fun row' h => nomatch fresh.symm.trans h
  | fence locked owned fresh =>
    exact .of_external (free locked) (free owned) fun row' h => nomatch fresh.symm.trans h
  | turn locked owned found =>
    refine .of_external (free locked) (free owned) fun row' h => ?_
    cases found.symm.trans h
    rfl
  | settle _ locked owned found =>
    refine PgRely.trans (PgRely.of_external ?_ ?_ ?_) (PgRely.of_accrual ?_)
    · exact free locked
    · exact free owned
    · intro row' h
      cases found.symm.trans h
      rfl
    · exact free locked

end PgMove

theorem Db.accrued_accrual (db : Db) (tenant t : String) (periodKey p total : Nat) :
    (db.apply (.accrual tenant periodKey total)).accrued t p =
      if (tenant, periodKey) = (t, p) then total else db.accrued t p := by
  unfold Db.accrued
  show (db.computeAccrual.insert (tenant, periodKey) total)[(t, p)]?.getD 0 = _
  rw [OrdMap.get_insert]
  split <;> rfl

namespace Db.WellFormed

variable {db : Db}

theorem empty : Db.empty.WellFormed := by
  refine ⟨?_, ?_, ?_, ?_, ?_⟩
  case refine_5 =>
    intro tenant periodKey
    simp [Db.empty, Db.accrued]
  all_goals
    intro id row h
    simp [Db.empty] at h

theorem insert (wf : db.WellFormed) {id : String} {row : LeaseRow} (keyed : row.record.leaseId = id)
    (columns : row.Columns)
    (unlatched : row.record.state.isActive = true → row.accruedAtMs = none) :
    Db.WellFormed { db with leases := db.leases.insert id row } := by
  have either : ∀ {a : String} {row' : LeaseRow}, (db.leases.insert id row)[a]? = some row' →
      (id = a ∧ row = row') ∨ db.leases[a]? = some row' := by
    intro a row' h
    rw [OrdMap.get_insert] at h
    split at h
    next heq => exact .inl ⟨heq, Option.some.inj h⟩
    · exact .inr h
  refine ⟨?_, ?_, ?_, wf.external, wf.bounded⟩
  · intro a row' h
    rcases either h with ⟨rfl, rfl⟩ | h
    · exact keyed
    · exact wf.keyed a row' h
  · intro a row' h
    rcases either h with ⟨rfl, rfl⟩ | h
    · exact columns
    · exact wf.columns a row' h
  · intro a row' h
    rcases either h with ⟨rfl, rfl⟩ | h
    · exact unlatched
    · exact wf.unlatched a row' h

theorem erase (wf : db.WellFormed) (id : String) : (db.apply (.lease id none)).WellFormed := by
  have present : ∀ {a : String} {row : LeaseRow}, (db.leases.erase id)[a]? = some row →
      db.leases[a]? = some row := by
    intro a row h
    rw [OrdMap.get_erase] at h
    split at h
    · nomatch h
    · exact h
  exact ⟨fun a row h => wf.keyed a row (present h), fun a row h => wf.columns a row (present h),
    fun a row h => wf.unlatched a row (present h), wf.external, wf.bounded⟩

theorem accrual (wf : db.WellFormed) {tenant : String} {periodKey total : Nat}
    (fits : total ≤ maxLedgerVcpuMs) : (db.apply (.accrual tenant periodKey total)).WellFormed := by
  refine ⟨wf.keyed, wf.columns, wf.unlatched, wf.external, ?_⟩
  intro t p
  rw [Db.accrued_accrual]
  split
  · exact fits
  · exact wf.bounded t p

theorem insertExternal (wf : db.WellFormed) (row : ExternalRow) :
    (db.apply (.external row)).WellFormed := by
  refine ⟨wf.keyed, wf.columns, wf.unlatched, ?_, wf.bounded⟩
  intro id row' h
  have h' : (db.externalComputeReservations.insert row.grant.reservationId row)[id]? = some row' :=
    h
  rw [OrdMap.get_insert] at h'
  split at h'
  next heq =>
    cases h'
    exact heq
  · exact wf.external id row' h'

end Db.WellFormed

theorem LeaseRow.admitted_columns {rec : LeaseRecord} {gate : Option ComputeGate}
    (within : ∀ g, gate = some g → g.newReservedVcpuMs ≤ maxLedgerVcpuMs) :
    (LeaseRow.admitted rec gate).Columns := by
  cases gate with
  | none => exact .inl ⟨rfl, rfl, rfl⟩
  | some g => exact .inr ⟨_, _, _, rfl, rfl, rfl, within g rfl⟩

/-- **Moves keep the tables well formed.** -/
theorem PgMove.wellFormed {strict : Bool} {call : PgCall} {held : PgLock → Prop} {db : Db}
    {ws : List Write} (move : PgMove strict call held db ws) (wf : db.WellFormed) :
    (db.applyAll ws).WellFormed := by
  cases move with
  | idle => exact wf
  | reserve _ _ _ _ _ within =>
    exact wf.insert rfl (LeaseRow.admitted_columns fun g hg => (within g hg).1) fun _ => rfl
  | rebind _ found =>
    have keyed := wf.keyed _ _ found
    have columns := wf.columns _ _ found
    have unlatched := wf.unlatched _ _ found
    exact wf.insert keyed columns unlatched
  | move _ found legal =>
    have keyed := wf.keyed _ _ found
    have columns := wf.columns _ _ found
    have unlatched := wf.unlatched _ _ found (by rw [legal, legalFromFor_active])
    exact wf.insert keyed columns fun _ => unlatched
  | @close id target nowMs _ _ _ row _ _ found _ terminal =>
    have keyed := wf.keyed _ _ found
    have columns := wf.columns _ _ found
    have closed : (row.movedStamped target nowMs).record.state.isActive = false :=
      isActive_wire_terminal terminal
    have inserted : Db.WellFormed
        { db with leases := db.leases.insert id (row.movedStamped target nowMs) } :=
      wf.insert keyed columns fun hactive => nomatch closed.symm.trans hactive
    exact inserted.accrual (Nat.min_le_right _ _)
  | delete => exact wf.erase _
  | claim => exact ⟨wf.keyed, wf.columns, wf.unlatched, wf.external, wf.bounded⟩
  | @baseline b _ _ _ fits =>
    have hperiod : (db.apply (.period b.tenantId b.periodKey
        ⟨b.externalVcpuMs, b.evidenceDigest⟩)).WellFormed :=
      ⟨wf.keyed, wf.columns, wf.unlatched, wf.external, wf.bounded⟩
    exact hperiod.accrual fits
  | reserveExternal => exact wf.insertExternal _
  | fence => exact wf.insertExternal _
  | turn => exact wf.insertExternal _
  | settle _ _ _ _ fits => exact (wf.insertExternal _).accrual fits

/-! ## The protocol -/

def pgProtocol (strict : Bool) : Protocol PgLock Committed PgCall where
  Inv d := d.db.WellFormed
  Rely held d d' := PgRely held d.db d'.db
  Move call held d d' := ∃ ws, d' = pgStore.publish d ws ∧ PgMove strict call held d.db ws
  rely_refl held d := .refl held d.db
  rely_trans h h' := h.trans h'
  rely_mono sub h := h.mono sub
  rely_move := by
    rintro call held held' d d' - ⟨ws, rfl, move⟩ disjoint
    exact move.rely disjoint
  inv_move := by
    rintro call held d d' inv ⟨ws, rfl, move⟩
    exact move.wellFormed inv

/-- What a run promises of a statement. An accrual goes to the tenant and the period of the lease
its transaction moved; and, if `strict`, a lease that is closed without an accrual has no compute
columns. -/
def PgCond (strict : Bool) (d : Committed) (ws : List Write) : Sql → Bool
  | .updateState leaseId source target _ =>
    !(strict && target.isTerminal) ||
      (Sql.inState (d.db.applyAll ws) leaseId source).all fun row => row.boxVcpuCount.isNone
  | .accrue tenant periodKey _ =>
    ws.all fun
      | .lease _ (some row) =>
        row.record.tenant.raw = tenant && row.accrualPeriodKey = some periodKey
      | _ => true
  | _ => true

end CorelinkRunners
