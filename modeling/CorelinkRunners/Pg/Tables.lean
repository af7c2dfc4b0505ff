import CorelinkRunners.Kit.Txn
import CorelinkRunners.Ledger.Record

/-!
# The Postgres tables and statements

The tables of the Postgres ledger, and every statement its calls send, as one operation on the
tables each: `Sql.ask` is what a statement answers and the rows it writes, over the tables as the
session sees them. `pgStore` puts them under transactions.

A `bigint` column holds a `u64` bit for bit, so rows keep the unsigned value; a comparison SQL makes
on such a column is made on its signed reading, `asI64`. Text is ordered by its characters. An
advisory lock is taken on a hash of the tenant; tenants whose hashes collide only wait more often,
so the lock is kept by the tenant here.
-/

namespace CorelinkRunners

open Kit

/-! ## Rows -/

/-- A row of `leases`: the record and the compute columns. -/
structure LeaseRow where
  record : LeaseRecord
  boxVcpuCount : Option Nat
  accrualPeriodKey : Option Nat
  reservedVcpuMs : Option Nat
  accruedAtMs : Option Nat

structure ExternalPeriodRow where
  externalVcpuMs : Nat
  evidenceDigest : String
deriving DecidableEq

inductive ExternalWorkloadKind
  | spawnWorkerRunner
  | devenv
deriving DecidableEq

inductive ExternalComputeState
  | prepared
  | active
  | cancelled
  | settled
deriving DecidableEq

/-- An external reservation as its caller names it. -/
structure ExternalComputeReservation where
  reservationId : String
  tenantId : String
  workloadKind : ExternalWorkloadKind
  workloadId : String
  periodKey : Nat
  ceilingVcpuMs : Nat
  vcpuCount : Nat
  maximumWallMs : Nat
  grantExpiresAtMs : Nat
  grantDigest : String
deriving DecidableEq

structure ExternalRow where
  grant : ExternalComputeReservation
  state : ExternalComputeState
  reservedVcpuMs : Nat
  actualVcpuMs : Option Nat
  terminalEvidenceDigest : Option String

structure Db where
  leases : OrdMap String LeaseRow
  computeAccrual : OrdMap (String × Nat) Nat
  externalComputePeriods : OrdMap (String × Nat) ExternalPeriodRow
  externalComputeReservations : OrdMap String ExternalRow
  pendingCleanupClaims : OrdMap String Nat

def asI64 (n : Nat) : Int := if n ≤ Word.maxI64 then n else (n : Int) - 2 ^ 64

/-- Pending or Held, or prepared or active: what an admission gate counts. -/
def ExternalComputeState.isOpen : ExternalComputeState → Bool
  | prepared | active => true
  | cancelled | settled => false

namespace Db

def empty : Db := ⟨∅, ∅, ∅, ∅, ∅⟩

/-! ## Sums -/

def activeWeight (tenant : String) (row : LeaseRow) : Nat :=
  if row.record.tenant.raw = tenant ∧ row.record.state.isActive = true then 1 else 0

def activeCount (db : Db) (tenant : String) : Nat :=
  db.leases.sumBy fun _ row => activeWeight tenant row

def leaseWeight (tenant : String) (periodKey : Nat) (row : LeaseRow) : Nat :=
  if row.record.tenant.raw = tenant ∧ row.record.state.isActive = true ∧
      row.accrualPeriodKey = some periodKey then row.reservedVcpuMs.getD 0
  else 0

/-- `SUM(reserved_vcpu_ms)` over the tenant's Pending and Held leases of a period. -/
def reservedNative (db : Db) (tenant : String) (periodKey : Nat) : Nat :=
  db.leases.sumBy fun _ row => leaseWeight tenant periodKey row

def externalWeight (tenant : String) (periodKey : Nat) (row : ExternalRow) : Nat :=
  if row.grant.tenantId = tenant ∧ row.grant.periodKey = periodKey ∧ row.state.isOpen = true then
    row.reservedVcpuMs
  else 0

/-- `SUM(reserved_vcpu_ms)` over the tenant's prepared and active external reservations. -/
def reservedExternal (db : Db) (tenant : String) (periodKey : Nat) : Nat :=
  db.externalComputeReservations.sumBy fun _ row => externalWeight tenant periodKey row

def accrued (db : Db) (tenant : String) (periodKey : Nat) : Nat :=
  db.computeAccrual[(tenant, periodKey)]?.getD 0

end Db

/-! ## Writes -/

/-- A row written: a lease replaced, inserted or deleted, or a row of another table set. -/
inductive Write
  | lease (leaseId : String) (row : Option LeaseRow)
  | claim (leaseId : String) (claimedAtMs : Nat)
  | accrual (tenant : String) (periodKey total : Nat)
  | period (tenant : String) (periodKey : Nat) (row : ExternalPeriodRow)
  | external (row : ExternalRow)

namespace Db

/-- Deleting a lease deletes its claim. -/
def apply (db : Db) : Write → Db
  | .lease leaseId (some row) => { db with leases := db.leases.insert leaseId row }
  | .lease leaseId none =>
    { db with
      leases := db.leases.erase leaseId
      pendingCleanupClaims := db.pendingCleanupClaims.erase leaseId }
  | .claim leaseId claimedAtMs =>
    { db with pendingCleanupClaims := db.pendingCleanupClaims.insert leaseId claimedAtMs }
  | .accrual tenant periodKey total =>
    { db with computeAccrual := db.computeAccrual.insert (tenant, periodKey) total }
  | .period tenant periodKey row =>
    { db with externalComputePeriods := db.externalComputePeriods.insert (tenant, periodKey) row }
  | .external row =>
    { db with
      externalComputeReservations :=
        db.externalComputeReservations.insert row.grant.reservationId row }

def applyAll (db : Db) (ws : List Write) : Db := ws.foldl apply db

end Db

/-! ## Statements -/

structure Attribution where
  tenant : String
  boxVcpuCount : Option Nat
  accrualPeriodKey : Option Nat

structure GateRow where
  cnt : Nat
  sigma : Nat
  accrued : Nat

/-- The statements, named by what they do. -/
inductive Sql
  /-- The pre-read that classifies a lease. -/
  | attribution (leaseId : String)
  | advisoryLock (tenant : String)
  /-- `SELECT … FOR UPDATE`. -/
  | lockLease (leaseId : String)
  | claimed (leaseId : String)
  /-- The accounting-off `UPDATE`. -/
  | updateState (leaseId : String) (source : LeaseState) (target : RunnerState) (nowMs : Nat)
  /-- The accounting-on `UPDATE`, which stamps the accrual latch and says whether it was unset. -/
  | updateStamped (leaseId : String) (source : LeaseState) (target : RunnerState) (nowMs : Nat)
  /-- The clamped upsert of an accrual. -/
  | accrue (tenant : String) (periodKey amount : Nat)
  /-- `INSERT … SELECT … WHERE count < cap`. -/
  | countAndInsert (row : LeaseRow) (maxConcurrency : Nat)
  | gate (tenant : String) (periodKey : Nat)
  | insertLease (row : LeaseRow)
  /-- `DELETE` of a Pending lease, or also of one without compute columns. -/
  | deleteLease (leaseId : String) (pendingOnly : Bool)
  /-- The state of an accounting-on lease that is not Pending. -/
  | accountedState (leaseId : String)
  | selectLease (leaseId : String)
  | updateBoxRef (leaseId providerRef marker : String)
  | staleIds (cutoffMs : Int)
  | insertClaim (leaseId : String) (claimedAtMs : Nat)
  | byTenant (tenant : String)
  | heldLeases
  | pendingBelow (cutoffMs : Int)
  | accrued (tenant : String) (periodKey : Nat)
  | baseline (tenant : String) (periodKey : Nat)
  | insertPeriod (tenant : String) (periodKey : Nat) (row : ExternalPeriodRow)
  | setAccrual (tenant : String) (periodKey total : Nat)
  | reservation (reservationId : String)
  /-- The accrued amount and both sums of reservations. -/
  | used (tenant : String) (periodKey : Nat)
  | insertReservation (row : ExternalRow)
  | updateReservation (reservationId : String) (source target : ExternalComputeState)
  | settleReservation (reservationId : String) (actualVcpuMs : Nat) (digest : String)

abbrev Sql.Ans : Sql → Type
  | attribution _ => Option Attribution
  | advisoryLock _ => Unit
  | lockLease _ => Option LeaseRecord
  | claimed _ => Bool
  | updateState .. => Option LeaseRecord
  | updateStamped .. => Option (LeaseRow × Bool)
  | accrue .. => Unit
  | countAndInsert .. => Result Bool
  | gate .. => GateRow
  | insertLease _ => Result Unit
  | deleteLease .. => Bool
  | accountedState _ => Option LeaseState
  | selectLease _ => Option LeaseRecord
  | updateBoxRef .. => Option LeaseRecord
  | staleIds _ => List String
  | insertClaim .. => Result Unit
  | byTenant _ => List LeaseRecord
  | heldLeases => List LeaseRecord
  | pendingBelow _ => List LeaseRecord
  | accrued .. => Nat
  | baseline .. => Option ExternalPeriodRow
  | insertPeriod .. => Unit
  | setAccrual .. => Unit
  | reservation _ => Option ExternalRow
  | used .. => Nat
  | insertReservation _ => Result Unit
  | updateReservation .. => Unit
  | settleReservation .. => Unit

def duplicateKey (constraint : String) : String :=
  "db error: ERROR: duplicate key value violates unique constraint \"" ++ constraint ++ "\""

/-- The row an `UPDATE` to a state leaves: the stamp of the billing start on the first `Held` only,
and nothing else of the row. -/
def LeaseRow.moved (row : LeaseRow) (target : RunnerState) (nowMs : Nat) : LeaseRow :=
  { row with
    record := { row.record with
      state := .wire target
      updatedAtMs := nowMs
      billingAcquiredAtMs :=
        if target = .held ∧ row.record.billingAcquiredAtMs = none then some nowMs
        else row.record.billingAcquiredAtMs } }

/-- The accounting-on `UPDATE` also stamps the latch of a terminal state, once. -/
def LeaseRow.movedStamped (row : LeaseRow) (target : RunnerState) (nowMs : Nat) : LeaseRow :=
  { row.moved target nowMs with
    accruedAtMs :=
      if target.isTerminal = true ∧ row.accruedAtMs = none then some nowMs else row.accruedAtMs }

/-- `SELECT … FROM leases WHERE … ORDER BY lease_id`. -/
def Db.records (db : Db) (p : LeaseRow → Bool) : List LeaseRecord :=
  ((db.leases.vals.filter p).map LeaseRow.record).insertionSort fun a b => a.leaseId ≤ b.leaseId

namespace Sql

def inState (db : Db) (leaseId : String) (source : LeaseState) : Option LeaseRow :=
  db.leases[leaseId]?.filter fun row => row.record.state = source

def removable (db : Db) (leaseId : String) (pendingOnly : Bool) : Option LeaseRow :=
  db.leases[leaseId]?.filter fun row =>
    row.record.state.isPending || (!pendingOnly && row.boxVcpuCount.isNone)

/-- What a statement answers and writes, over the tables its session sees. -/
def ask (db : Db) : (q : Sql) → q.Ans × List Write
  | attribution leaseId =>
    (db.leases[leaseId]?.map fun row =>
      ⟨row.record.tenant.raw, row.boxVcpuCount, row.accrualPeriodKey⟩, [])
  | advisoryLock _ => ((), [])
  | lockLease leaseId => (db.leases[leaseId]?.map LeaseRow.record, [])
  | claimed leaseId => (db.pendingCleanupClaims.contains leaseId, [])
  | updateState leaseId source target nowMs =>
    match inState db leaseId source with
    | some row =>
      (some (row.moved target nowMs).record, [.lease leaseId (some (row.moved target nowMs))])
    | none => (none, [])
  | updateStamped leaseId source target nowMs =>
    match inState db leaseId source with
    | some row =>
      (some (row.movedStamped target nowMs, row.accruedAtMs.isNone),
        [.lease leaseId (some (row.movedStamped target nowMs))])
    | none => (none, [])
  | accrue tenant periodKey amount =>
    let excluded := min amount maxLedgerVcpuMs
    let total := match db.computeAccrual[(tenant, periodKey)]? with
      | some total => total + min excluded (maxLedgerVcpuMs - total)
      | none => excluded
    ((), [.accrual tenant periodKey total])
  | countAndInsert row maxConcurrency =>
    if db.activeCount row.record.tenant.raw < maxConcurrency then
      if db.leases.contains row.record.leaseId then (.error (duplicateKey "leases_pkey"), [])
      else (.ok true, [.lease row.record.leaseId (some row)])
    else (.ok false, [])
  | gate tenant periodKey =>
    (⟨db.activeCount tenant,
      min (db.reservedNative tenant periodKey + db.reservedExternal tenant periodKey)
        maxLedgerVcpuMs,
      db.accrued tenant periodKey⟩, [])
  | insertLease row =>
    if db.leases.contains row.record.leaseId then (.error (duplicateKey "leases_pkey"), [])
    else (.ok (), [.lease row.record.leaseId (some row)])
  | deleteLease leaseId pendingOnly =>
    match removable db leaseId pendingOnly with
    | some _ => (true, [.lease leaseId none])
    | none => (false, [])
  | accountedState leaseId =>
    ((db.leases[leaseId]?.filter fun row =>
      row.boxVcpuCount.isSome && !row.record.state.isPending).map fun row => row.record.state, [])
  | selectLease leaseId => (db.leases[leaseId]?.map LeaseRow.record, [])
  | updateBoxRef leaseId providerRef marker =>
    match (inState db leaseId .pending).filter fun row => row.record.boxRef = marker with
    | some row =>
      let updated := { row with record := { row.record with boxRef := providerRef } }
      (some updated.record, [.lease leaseId (some updated)])
    | none => (none, [])
  | staleIds cutoffMs =>
    ((db.records fun row => row.record.state.isPending &&
      (asI64 row.record.createdAtMs < cutoffMs ||
        db.pendingCleanupClaims.contains row.record.leaseId)).map LeaseRecord.leaseId, [])
  | insertClaim leaseId claimedAtMs =>
    if db.pendingCleanupClaims.contains leaseId then
      (.error (duplicateKey "pending_cleanup_claims_pkey"), [])
    else (.ok (), [.claim leaseId claimedAtMs])
  | byTenant tenant => (db.records fun row => row.record.tenant.raw = tenant, [])
  | heldLeases => (db.records fun row => row.record.state.isHeld, [])
  | pendingBelow cutoffMs =>
    (db.records fun row => row.record.state.isPending && asI64 row.record.createdAtMs < cutoffMs,
      [])
  | accrued tenant periodKey => (db.accrued tenant periodKey, [])
  | baseline tenant periodKey => (db.externalComputePeriods[(tenant, periodKey)]?, [])
  | insertPeriod tenant periodKey row => ((), [.period tenant periodKey row])
  | setAccrual tenant periodKey total => ((), [.accrual tenant periodKey total])
  | reservation reservationId => (db.externalComputeReservations[reservationId]?, [])
  | used tenant periodKey =>
    (db.accrued tenant periodKey + db.reservedNative tenant periodKey +
      db.reservedExternal tenant periodKey, [])
  | insertReservation row =>
    if db.externalComputeReservations.contains row.grant.reservationId then
      (.error (duplicateKey "external_compute_reservations_pkey"), [])
    else (.ok (), [.external row])
  | updateReservation reservationId source target =>
    match db.externalComputeReservations[reservationId]?.filter fun row => row.state = source with
    | some row => ((), [.external { row with state := target }])
    | none => ((), [])
  | settleReservation reservationId actualVcpuMs digest =>
    match db.externalComputeReservations[reservationId]? with
    | some row =>
      ((), [.external { row with
        state := .settled
        actualVcpuMs := some actualVcpuMs
        terminalEvidenceDigest := some digest }])
    | none => ((), [])

end Sql

/-! ## Locks -/

/-- What a session can hold to the end of its transaction. -/
inductive PgLock
  | advisory (tenant : String)
  | lease (leaseId : String)
  | accrual (tenant : String) (periodKey : Nat)
  | period (tenant : String) (periodKey : Nat)
  | reservation (reservationId : String)
deriving DecidableEq

/-- The lock a statement takes: an advisory lock, the row it reads for update, or the row it writes.
A row that is not there is not locked; a key that is inserted is. A claim row is locked through the
lease row its foreign key names. -/
def Sql.lock (db : Db) : Sql → Option PgLock
  | advisoryLock tenant => some (.advisory tenant)
  | lockLease leaseId | updateState leaseId .. | updateStamped leaseId .. | deleteLease leaseId _
  | updateBoxRef leaseId .. | insertClaim leaseId _ =>
    if db.leases.contains leaseId then some (.lease leaseId) else none
  | countAndInsert row maxConcurrency =>
    if db.activeCount row.record.tenant.raw < maxConcurrency then some (.lease row.record.leaseId)
    else none
  | insertLease row => some (.lease row.record.leaseId)
  | accrue tenant periodKey _ | setAccrual tenant periodKey _ => some (.accrual tenant periodKey)
  | insertPeriod tenant periodKey _ => some (.period tenant periodKey)
  | insertReservation row => some (.reservation row.grant.reservationId)
  | updateReservation reservationId .. | settleReservation reservationId .. =>
    if db.externalComputeReservations.contains reservationId then some (.reservation reservationId)
    else none
  | _ => none

/-! ## The store -/

/-- What a lease that reached a terminal state owes the accrual of its tenant and period. -/
structure Charge where
  tenant : String
  periodKey : Nat
  amount : Nat
deriving DecidableEq

/-- A lease with compute columns that leaves Pending or Held for a terminal state at time `t` owes
its vCPU·ms since creation, and never more than it reserved. -/
def LeaseRow.charge (before after : LeaseRow) : Option Charge :=
  match before.boxVcpuCount, before.accrualPeriodKey, before.reservedVcpuMs with
  | some vcpu, some periodKey, some reserved =>
    if before.record.state.isActive = true ∧ after.record.state.isActive = false then
      some ⟨before.record.tenant.raw, periodKey,
        min (vcpu * (after.record.updatedAtMs - before.record.createdAtMs)) reserved⟩
    else none
  | _, _, _ => none

def Db.charges (db : Db) (ws : List Write) : List Charge :=
  ws.filterMap fun
    | .lease leaseId (some after) => db.leases[leaseId]?.bind fun before => before.charge after
    | _ => none

/-- The committed tables, and beside them the charges that fell due, which no statement reads. -/
structure Committed where
  db : Db
  due : List Charge

def pgStore : Store Sql Sql.Ans PgLock Write Committed where
  lock q d ws := q.lock (d.db.applyAll ws)
  ask q d ws := q.ask (d.db.applyAll ws)
  publish d ws := ⟨d.db.applyAll ws, d.due ++ d.db.charges ws⟩

abbrev Pg (A : Type) : Type := TxnProg Sql Sql.Ans A

namespace Pg

variable {A : Type}

abbrev sql (q : Sql) (k : q.Ans → Pg A) : Pg A := .vis (.query q) k

abbrev start (k : Pg A) : Pg A := .vis .start fun _ => k

abbrev commit (k : Pg A) : Pg A := .vis .commit fun _ => k

abbrev rollback (k : Pg A) : Pg A := .vis .rollback fun _ => k

abbrev answer (a : A) : Pg A := .pure a

end Pg

end CorelinkRunners
