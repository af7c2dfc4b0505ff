import CorelinkRunners.Ledger.InMemory
import CorelinkRunners.Pg.Ledger

/-!
# External compute reservations

External workloads share the tenant lock and the accrual table of the native ledger. A reservation
is prepared, activated and settled, or cancelled; a cancellation that finds no reservation writes a
cancelled one, so that a delayed request cannot reopen it.

What the database clock answers is an argument of the call (`PgClock`). `PgCall` collects the calls
of both halves, and `PgCall.exec` is the program of each.
-/

namespace CorelinkRunners

open Kit

/-! ## Arguments and their checks -/

/-- Prior external usage, reconciled by the operator. -/
structure ExternalComputeBaseline where
  tenantId : String
  periodKey : Nat
  externalVcpuMs : Nat
  evidenceDigest : String

structure ExternalComputeSettlement where
  actualVcpuMs : Nat
  terminalEvidenceDigest : String

structure ExternalComputeReceipt where
  reservationId : String
  state : ExternalComputeState
deriving DecidableEq

inductive ExternalComputeAdmission
  | admitted (receipt : ExternalComputeReceipt)
  | overCompute
  | baselineRequired
deriving DecidableEq

/-- What the database clock answers: the time, the month it falls in, and the end of the month the
call names. -/
structure PgClock where
  nowMs : Nat
  currentPeriod : Nat
  periodEndMs : Nat

namespace External

def invalid : String := "invalid external compute input"

def conflict : String := "external compute obligation conflict"

def isHexDigit (c : Char) : Bool :=
  c.isDigit || ('a' ≤ c && c ≤ 'f') || ('A' ≤ c && c ≤ 'F')

def digest (value : String) : Bool := value.utf8ByteSize == 64 && value.toList.all isHexDigit

def uuidGroups : List Nat := [8, 4, 4, 4, 12]

/-- A UUID in its canonical text, and not the nil one. -/
def canonicalUuid (value : String) : Bool :=
  let groups := value.toList.splitOn '-'
  groups.map List.length == uuidGroups &&
    groups.all (fun group => group.all fun c => c.isDigit || ('a' ≤ c && c ≤ 'f')) &&
    groups.any fun group => group.any fun c => c != '0'

def period (value : Nat) : Bool :=
  197001 ≤ value && value ≤ 999912 && 1 ≤ value % 100 && value % 100 ≤ 12

def workload (value : String) : Bool :=
  value != "" && value.utf8ByteSize ≤ 256 &&
    value.toList.all fun c => c.isAlphanum || ":_./-".toList.contains c

def validate (r : ExternalComputeReservation) : Result Nat :=
  let reserved := r.vcpuCount * r.maximumWallMs
  if canonicalUuid r.tenantId && period r.periodKey && workload r.workloadId && digest r.grantDigest
      && canonicalUuid r.reservationId && 0 < r.ceilingVcpuMs && 0 < r.vcpuCount && r.vcpuCount ≤ 16
      && 0 < r.maximumWallMs && r.maximumWallMs ≤ 28800000 && 0 < r.grantExpiresAtMs
      && r.ceilingVcpuMs ≤ Word.maxI64 && r.grantExpiresAtMs ≤ Word.maxI64 && fitsLedger reserved
  then .ok reserved
  else .error invalid

/-! ## The calls -/

open Pg

def initializePeriod (b : ExternalComputeBaseline) : Pg (Result Unit) :=
  if canonicalUuid b.tenantId && period b.periodKey && digest b.evidenceDigest
      && b.externalVcpuMs ≤ Word.maxI64 then
    start <| sql (.advisoryLock b.tenantId) fun _ =>
    sql (.baseline b.tenantId b.periodKey) fun row =>
    match row with
    | some row =>
      if row = ⟨b.externalVcpuMs, b.evidenceDigest⟩ then commit <| answer (.ok ())
      else rollback <| answer (.error conflict)
    | none =>
      sql (.accrued b.tenantId b.periodKey) fun native =>
      if native + b.externalVcpuMs > Word.maxI64 then rollback <| answer (.error invalid)
      else
        sql (.insertPeriod b.tenantId b.periodKey ⟨b.externalVcpuMs, b.evidenceDigest⟩) fun _ =>
        sql (.setAccrual b.tenantId b.periodKey (native + b.externalVcpuMs)) fun _ =>
        commit <| answer (.ok ())
  else answer (.error invalid)

/-- The gate and the insert of a new reservation, under the tenant's lock. -/
def reserveFresh (r : ExternalComputeReservation) (reserved : Nat) :
    Pg (Result ExternalComputeAdmission) :=
  sql (.baseline r.tenantId r.periodKey) fun baseline =>
  match baseline with
  | none => rollback <| answer (.ok .baselineRequired)
  | some _ =>
    sql (.used r.tenantId r.periodKey) fun used =>
    if used > Word.maxI64 ∨ used + reserved > Word.maxI64 then rollback <| answer (.error invalid)
    else if used + reserved > r.ceilingVcpuMs then rollback <| answer (.ok .overCompute)
    else
      sql (.insertReservation ⟨r, .prepared, reserved, none, none⟩) fun res =>
      match res with
      | .ok () => commit <| answer (.ok (.admitted ⟨r.reservationId, .prepared⟩))
      | .error _ => rollback <| answer (.error conflict)

def reserve (r : ExternalComputeReservation) (clock : PgClock) :
    Pg (Result ExternalComputeAdmission) :=
  match validate r with
  | .error e => answer (.error e)
  | .ok reserved =>
    start <| sql (.advisoryLock r.tenantId) fun _ =>
    let endMs := r.grantExpiresAtMs + r.maximumWallMs
    if clock.currentPeriod ≠ r.periodKey ∨ endMs > Word.maxI64 ∨ endMs > clock.periodEndMs then
      rollback <| answer (.error invalid)
    else if r.grantExpiresAtMs ≤ clock.nowMs then rollback <| answer (.error conflict)
    else
      sql (.reservation r.reservationId) fun row =>
      match row with
      | some row =>
        if row.grant = r ∧ row.state.isOpen = true then
          rollback <| answer (.ok (.admitted ⟨r.reservationId, row.state⟩))
        else rollback <| answer (.error conflict)
      | none => reserveFresh r reserved

def transition (r : ExternalComputeReservation) (target : ExternalComputeState) (clock : PgClock) :
    Pg (Result ExternalComputeReceipt) :=
  match validate r with
  | .error e => answer (.error e)
  | .ok reserved =>
    start <| sql (.advisoryLock r.tenantId) fun _ =>
    sql (.reservation r.reservationId) fun row =>
    match row with
    | none =>
      if target = .cancelled then
        -- a full tuple is fenced before the cancellation is acknowledged
        sql (.insertReservation ⟨r, .cancelled, reserved, none, none⟩) fun res =>
        match res with
        | .ok () => commit <| answer (.ok ⟨r.reservationId, .cancelled⟩)
        | .error _ => rollback <| answer (.error conflict)
      else rollback <| answer (.error conflict)
    | some row =>
      if row.grant ≠ r then rollback <| answer (.error conflict)
      else if row.state = target then rollback <| answer (.ok ⟨r.reservationId, target⟩)
      else if row.state ≠ .prepared then rollback <| answer (.error conflict)
      else if target = .active ∧
          (r.grantExpiresAtMs ≤ clock.nowMs ∨ clock.currentPeriod ≠ r.periodKey) then
        rollback <| answer (.error conflict)
      else
        sql (.updateReservation r.reservationId .prepared target) fun _ =>
        commit <| answer (.ok ⟨r.reservationId, target⟩)

def activate (r : ExternalComputeReservation) (clock : PgClock) :
    Pg (Result ExternalComputeReceipt) := transition r .active clock

def cancel (r : ExternalComputeReservation) (clock : PgClock) :
    Pg (Result ExternalComputeReceipt) := transition r .cancelled clock

def settle (r : ExternalComputeReservation) (s : ExternalComputeSettlement) :
    Pg (Result ExternalComputeReceipt) :=
  match validate r with
  | .error e => answer (.error e)
  | .ok _ =>
    if digest s.terminalEvidenceDigest && s.actualVcpuMs ≤ Word.maxI64 then
      start <| sql (.advisoryLock r.tenantId) fun _ =>
      sql (.reservation r.reservationId) fun row =>
      match row with
      | none => rollback <| answer (.error conflict)
      | some row =>
        if row.grant ≠ r then rollback <| answer (.error conflict)
        else if row.state = .settled then
          if row.actualVcpuMs = some s.actualVcpuMs ∧
              row.terminalEvidenceDigest = some s.terminalEvidenceDigest then
            rollback <| answer (.ok ⟨r.reservationId, .settled⟩)
          else rollback <| answer (.error conflict)
        else if row.state ≠ .active then rollback <| answer (.error conflict)
        else
          sql (.accrued r.tenantId r.periodKey) fun accrued =>
          if accrued + s.actualVcpuMs > Word.maxI64 then rollback <| answer (.error invalid)
          else
            sql (.settleReservation r.reservationId s.actualVcpuMs s.terminalEvidenceDigest)
              fun _ =>
            sql (.setAccrual r.tenantId r.periodKey (accrued + s.actualVcpuMs)) fun _ =>
            commit <| answer (.ok ⟨r.reservationId, .settled⟩)
    else answer (.error invalid)

end External

/-! ## Calls -/

inductive PgCall
  | tryAdmit (rec : LeaseRecord) (maxConcurrency : Nat)
  | tryAdmitWithCompute (rec : LeaseRecord) (maxConcurrency : Nat) (gate : Option ComputeGate)
  | transition (leaseId : String) (target : RunnerState) (nowMs : Nat)
  | bindProviderRef (leaseId providerRef : String)
  | remove (leaseId : String)
  | removeIfPending (leaseId : String)
  | claimPendingCleanup (leaseId : String) (nowMs : Nat)
  | claimStalePendingCleanup (nowMs maxAgeMs : Nat)
  | finishPendingCleanup (leaseId : String)
  | initializePeriod (baseline : ExternalComputeBaseline)
  | reserve (r : ExternalComputeReservation) (clock : PgClock)
  | activate (r : ExternalComputeReservation) (clock : PgClock)
  | cancel (r : ExternalComputeReservation) (clock : PgClock)
  | settle (r : ExternalComputeReservation) (settlement : ExternalComputeSettlement)

inductive PgReply
  | ledger (reply : Reply)
  | unit
  | admission (value : ExternalComputeAdmission)
  | receipt (value : ExternalComputeReceipt)
deriving DecidableEq

def Pg.reply {α : Type} (f : α → PgReply) (p : Pg (Result α)) : Pg (Result PgReply) :=
  p.map fun res => res.map f

def PgCall.exec [SerdeJson] : PgCall → Pg (Result PgReply)
  | tryAdmit rec cap => (Pg.tryAdmit rec cap).reply fun b => .ledger (.flag b)
  | tryAdmitWithCompute rec cap gate =>
    (Pg.tryAdmitWithCompute rec cap gate).reply fun o => .ledger (.outcome o)
  | transition id target nowMs => (Pg.transition id target nowMs).reply fun r => .ledger (.record r)
  | bindProviderRef id providerRef =>
    (Pg.bindProviderRef id providerRef).reply fun r => .ledger (.record r)
  | remove id => (Pg.remove id).reply fun b => .ledger (.flag b)
  | removeIfPending id => (Pg.removeIfPending id).reply fun b => .ledger (.flag b)
  | claimPendingCleanup id nowMs =>
    (Pg.claimPendingCleanup id nowMs).reply fun r => .ledger (.candidate r)
  | claimStalePendingCleanup nowMs maxAgeMs =>
    (Pg.claimStalePendingCleanup nowMs maxAgeMs).reply fun rs => .ledger (.records rs)
  | finishPendingCleanup id => (Pg.finishPendingCleanup id).reply fun b => .ledger (.flag b)
  | initializePeriod baseline => (External.initializePeriod baseline).reply fun _ => .unit
  | reserve r clock => (External.reserve r clock).reply .admission
  | activate r clock => (External.activate r clock).reply .receipt
  | cancel r clock => (External.cancel r clock).reply .receipt
  | settle r settlement => (External.settle r settlement).reply .receipt

end CorelinkRunners
