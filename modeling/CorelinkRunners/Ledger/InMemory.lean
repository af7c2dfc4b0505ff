import CorelinkRunners.Ledger.Record

/-!
# The in-memory ledger

`InMemoryInner` is the raw state both single-process ledgers hold behind their lock: the records
and the four side stores keyed beside them. Every operation takes the state and answers with its
result and the state it leaves, also when the result is an error, so that a mutation made before
an early return is visible.

The maps iterate in key order here and in hash order in the source. No operation depends on the
difference: the enumerations sort their output, and the folds are sums and counts.
-/

namespace CorelinkRunners

open Kit

structure InMemoryInner where
  records : OrdMap String LeaseRecord
  checkpoints : OrdMap String String
  reservations : OrdMap String LeaseReservation
  accruals : OrdMap (TenantId × Nat) Nat
  pendingCleanupClaims : OrdSet String
deriving DecidableEq

namespace InMemoryInner

def empty : InMemoryInner := ⟨∅, ∅, ∅, ∅, ∅⟩

/-! ## Reads -/

def get (s : InMemoryInner) (leaseId : String) : Option LeaseRecord := s.records[leaseId]?

def sortById (rows : List LeaseRecord) : List LeaseRecord :=
  rows.insertionSort fun a b => a.leaseId ≤ b.leaseId

def byTenant (s : InMemoryInner) (t : TenantId) : List LeaseRecord :=
  sortById (s.records.vals.filter fun r => r.tenant = t)

def held (s : InMemoryInner) : List LeaseRecord :=
  sortById (s.records.vals.filter fun r => r.state.isHeld)

def isStalePending (record : LeaseRecord) (cutoffMs : Nat) : Bool :=
  record.state.isPending && record.createdAtMs < cutoffMs

def pendingOlderThan (s : InMemoryInner) (nowMs maxAgeMs : Nat) : List LeaseRecord :=
  let cutoff := nowMs - maxAgeMs
  sortById (s.records.vals.filter fun r => isStalePending r cutoff)

def computeAccrued (s : InMemoryInner) (tenant : TenantId) (periodKey : Nat) : Nat :=
  s.accruals[(tenant, periodKey)]?.getD 0

def getEnvelopeCheckpoint (s : InMemoryInner) (leaseId : String) : Option String :=
  s.checkpoints[leaseId]?

def active (s : InMemoryInner) (tenant : TenantId) : List LeaseRecord :=
  s.records.vals.filter fun r => r.tenant = tenant && r.state.isActive

def reservedInPeriod (s : InMemoryInner) (tenant : TenantId) (periodKey : Nat) : List Nat :=
  let held := (s.active tenant).filterMap fun r => s.reservations[r.leaseId]?
  (held.filter fun res => res.accrualPeriodKey = periodKey).map fun res => res.reservedVcpuMs

/-! ## Admission -/

def existsError (leaseId : String) : String :=
  "lease " ++ leaseId ++ " already exists: put never overwrites"

def put (s : InMemoryInner) (rec : LeaseRecord) : Result Unit × InMemoryInner :=
  if s.records.contains rec.leaseId then (.error (existsError rec.leaseId), s)
  else (.ok (), { s with records := s.records.insert rec.leaseId rec })

def tryAdmit (s : InMemoryInner) (rec : LeaseRecord) (maxConcurrency : Nat) :
    Result Bool × InMemoryInner :=
  if Word.asU32 (s.active rec.tenant).length < maxConcurrency then
    match s.put rec with
    | (.ok (), s) => (.ok true, s)
    | (.error e, s) => (.error e, s)
  else (.ok false, s)

def concurrencyOnlyOutcome (admitted : Bool) : AdmitOutcome :=
  if admitted then .admitted else .overConcurrency

def concurrencyOnlyAdmit (s : InMemoryInner) (rec : LeaseRecord) (maxConcurrency : Nat) :
    Result AdmitOutcome × InMemoryInner :=
  match s.tryAdmit rec maxConcurrency with
  | (.ok admitted, s) => (.ok (concurrencyOnlyOutcome admitted), s)
  | (.error e, s) => (.error e, s)

/-- The gated admit check. The compute ceiling is checked before the concurrency cap, so a lease
over both is reported over the ceiling. -/
def admitDecision (s : InMemoryInner) (rec : LeaseRecord) (maxConcurrency : Nat)
    (gate : ComputeGate) : AdmitOutcome × Option LeaseReservation :=
  let sigma := (s.reservedInPeriod rec.tenant gate.periodKey).foldl Word.satAdd 0
  let accrued := s.computeAccrued rec.tenant gate.periodKey
  let projected := Word.satAdd (Word.satAdd accrued sigma) gate.newReservedVcpuMs
  if projected > gate.ceilingVcpuMs then (.overCompute, none)
  else if Word.asU32 (s.active rec.tenant).length ≥ maxConcurrency then (.overConcurrency, none)
  else (.admitted, some gate.reservation)

/-- Admit with an optional compute gate. No gate, or a gate with ceiling zero, is the concurrency
check alone and records no compute state. -/
def tryAdmitWithCompute (s : InMemoryInner) (rec : LeaseRecord) (maxConcurrency : Nat)
    (gate : Option ComputeGate) : Result AdmitOutcome × InMemoryInner :=
  match gate with
  | none => s.concurrencyOnlyAdmit rec maxConcurrency
  | some gate =>
    if gate.ceilingVcpuMs = 0 then s.concurrencyOnlyAdmit rec maxConcurrency
    else match s.admitDecision rec maxConcurrency gate with
      | (.admitted, some res) =>
        match s.put rec with
        | (.ok (), s) =>
          (.ok .admitted, { s with reservations := s.reservations.insert rec.leaseId res })
        | (.error e, s) => (.error e, s)
      | (outcome, _) => (.ok outcome, s)

/-! ## Transitions -/

/-- Fold the terminal accrual once: the reservation's latch is set and the tenant's total for the
reservation's period grows, saturating at the ledger bound. -/
def accrueOnTerminal (s : InMemoryInner) (leaseId : String) (tenant : TenantId) (createdAtMs : Nat)
    (target : RunnerState) (nowMs : Nat) : Option AccrualEvent × InMemoryInner :=
  if !target.isTerminal then (none, s)
  else match s.reservations[leaseId]? with
    | none => (none, s)
    | some res =>
      if res.accruedAtMs.isSome then (none, s)
      else
        let actual := res.actual createdAtMs nowMs
        let period := res.accrualPeriodKey
        let entry := min (Word.satAdd (s.computeAccrued tenant period) actual) maxLedgerVcpuMs
        (some ⟨leaseId, tenant, period, entry⟩,
          { s with
            reservations := s.reservations.insert leaseId { res with accruedAtMs := some nowMs }
            accruals := s.accruals.insert (tenant, period) entry })

/-- A transition that also reports the accrual it folded. -/
def transitionCapturing (s : InMemoryInner) (leaseId : String) (target : RunnerState)
    (nowMs : Nat) : Result (LeaseRecord × Option AccrualEvent) × InMemoryInner :=
  match s.records[leaseId]? with
  | none => (.error ("unknown lease " ++ leaseId ++ ": cannot transition"), s)
  | some rec =>
    match applyTransition rec target nowMs with
    | .error e => (.error e, s)
    | .ok updated =>
      let s := { s with records := s.records.insert leaseId updated }
      match s.accrueOnTerminal leaseId rec.tenant rec.createdAtMs target nowMs with
      | (event, s) => (.ok (updated, event), s)

def fencedError (leaseId : String) : String :=
  "lease " ++ leaseId ++ " is fenced by a pending cleanup claim"

def transition (s : InMemoryInner) (leaseId : String) (target : RunnerState) (nowMs : Nat) :
    Result LeaseRecord × InMemoryInner :=
  if s.pendingCleanupClaims.contains leaseId then (.error (fencedError leaseId), s)
  else match s.transitionCapturing leaseId target nowMs with
    | (.ok (updated, _), s) => (.ok updated, s)
    | (.error e, s) => (.error e, s)

/-! ## Checkpoints and removal -/

def absentError (leaseId : String) : String :=
  "lease " ++ leaseId ++ " does not exist: cannot set envelope checkpoint (fail-closed)"

def setEnvelopeCheckpoint (s : InMemoryInner) (leaseId checkpointJson : String) :
    Result Unit × InMemoryInner :=
  if !s.records.contains leaseId then (.error (absentError leaseId), s)
  else (.ok (), { s with checkpoints := s.checkpoints.insert leaseId checkpointJson })

/-- Removing a Held lease with a reservation would drop its compute unbilled. -/
def heldReservationError (leaseId : String) : String :=
  "lease " ++ leaseId ++ " is Held with a compute reservation: `remove` is the admission-rollback "
    ++ "seam for Pending only — a Held accounting-on lease must terminalize via `transition` so "
    ++ "its accrual is folded (fail-closed: refusing to drop the reservation un-billed)"

def heldWithReservation (s : InMemoryInner) (leaseId : String) : Bool :=
  match s.records[leaseId]? with
  | some rec => rec.state.isHeld && s.reservations.contains leaseId
  | none => false

def forget (s : InMemoryInner) (leaseId : String) : InMemoryInner :=
  { s with
    records := s.records.erase leaseId
    checkpoints := s.checkpoints.erase leaseId
    reservations := s.reservations.erase leaseId }

def remove (s : InMemoryInner) (leaseId : String) : Result Bool × InMemoryInner :=
  if s.pendingCleanupClaims.contains leaseId then (.error (fencedError leaseId), s)
  else if s.heldWithReservation leaseId then (.error (heldReservationError leaseId), s)
  else (.ok (s.records.contains leaseId), s.forget leaseId)

def removeIfPending (s : InMemoryInner) (leaseId : String) : Result Bool × InMemoryInner :=
  if s.pendingCleanupClaims.contains leaseId then (.ok false, s)
  else match s.get leaseId with
    | some rec => if rec.state.isPending then s.remove leaseId else (.ok false, s)
    | none => (.ok false, s)

/-! ## Provider binding -/

def cleanupClaimedError (leaseId : String) : String := "lease " ++ leaseId ++ " is cleanup-claimed"

def bindProviderRef [SerdeJson] (s : InMemoryInner) (leaseId providerRef : String) :
    Result LeaseRecord × InMemoryInner :=
  match validateProviderRef providerRef with
  | .error e => (.error e, s)
  | .ok () =>
    if s.pendingCleanupClaims.contains leaseId then (.error (cleanupClaimedError leaseId), s)
    else match s.records[leaseId]? with
      | none => (.error ("unknown lease " ++ leaseId), s)
      | some current =>
        match bind current providerRef with
        | .error e => (.error e, s)
        | .ok updated => (.ok updated, { s with records := s.records.insert leaseId updated })

/-! ## Cleanup claims -/

/-- The Pending records that are stale or already claimed, in the order of their ids. -/
def candidates (s : InMemoryInner) (nowMs maxAgeMs : Nat) : List LeaseRecord :=
  let cutoff := nowMs - maxAgeMs
  sortById (s.records.vals.filter fun record =>
    record.state.isPending &&
      (isStalePending record cutoff || s.pendingCleanupClaims.contains record.leaseId))

def claim (s : InMemoryInner) (leaseId : String) : InMemoryInner :=
  { s with pendingCleanupClaims := s.pendingCleanupClaims.insert leaseId }

def claimPendingCleanup (s : InMemoryInner) (leaseId : String) :
    Result (Option LeaseRecord) × InMemoryInner :=
  match s.records[leaseId]? with
  | none => (.ok none, s)
  | some record =>
    if !record.state.isPending then (.ok none, s) else (.ok (some record), s.claim leaseId)

def claimStalePendingCleanup (s : InMemoryInner) (nowMs maxAgeMs : Nat) :
    Result (List LeaseRecord) × InMemoryInner :=
  let rows := s.candidates nowMs maxAgeMs
  (.ok rows, rows.foldl (fun s row => s.claim row.leaseId) s)

def isPendingAt (s : InMemoryInner) (leaseId : String) : Bool :=
  match s.records[leaseId]? with
  | some record => record.state.isPending
  | none => false

def claimedPending (s : InMemoryInner) (leaseId : String) : Bool :=
  s.pendingCleanupClaims.contains leaseId && s.isPendingAt leaseId

def finish (s : InMemoryInner) (leaseId : String) : InMemoryInner :=
  { s.forget leaseId with pendingCleanupClaims := s.pendingCleanupClaims.erase leaseId }

def finishPendingCleanup (s : InMemoryInner) (leaseId : String) : Result Bool × InMemoryInner :=
  if !s.claimedPending leaseId then (.ok false, s)
  else (.ok (s.records.contains leaseId), s.finish leaseId)

end InMemoryInner

/-! ## The operations as one type -/

inductive LedgerOp
  | put (rec : LeaseRecord)
  | tryAdmit (rec : LeaseRecord) (maxConcurrency : Nat)
  | tryAdmitWithCompute (rec : LeaseRecord) (maxConcurrency : Nat) (gate : Option ComputeGate)
  | transition (leaseId : String) (target : RunnerState) (nowMs : Nat)
  | bindProviderRef (leaseId providerRef : String)
  | setEnvelopeCheckpoint (leaseId checkpointJson : String)
  | remove (leaseId : String)
  | removeIfPending (leaseId : String)
  | claimPendingCleanup (leaseId : String) (nowMs : Nat)
  | claimStalePendingCleanup (nowMs maxAgeMs : Nat)
  | finishPendingCleanup (leaseId : String)
deriving DecidableEq

inductive Reply
  | unit
  | flag (value : Bool)
  | outcome (value : AdmitOutcome)
  | record (value : LeaseRecord)
  | candidate (value : Option LeaseRecord)
  | records (value : List LeaseRecord)
deriving DecidableEq

def replying {α σ : Type} (f : α → Reply) (answer : Result α × σ) : Result Reply × σ :=
  (answer.1.map f, answer.2)

def InMemoryInner.exec [SerdeJson] (s : InMemoryInner) : LedgerOp → Result Reply × InMemoryInner
  | .put rec => replying (fun _ => .unit) (s.put rec)
  | .tryAdmit rec cap => replying .flag (s.tryAdmit rec cap)
  | .tryAdmitWithCompute rec cap gate => replying .outcome (s.tryAdmitWithCompute rec cap gate)
  | .transition id target nowMs => replying .record (s.transition id target nowMs)
  | .bindProviderRef id providerRef => replying .record (s.bindProviderRef id providerRef)
  | .setEnvelopeCheckpoint id json => replying (fun _ => .unit) (s.setEnvelopeCheckpoint id json)
  | .remove id => replying .flag (s.remove id)
  | .removeIfPending id => replying .flag (s.removeIfPending id)
  | .claimPendingCleanup id _ => replying .candidate (s.claimPendingCleanup id)
  | .claimStalePendingCleanup nowMs maxAgeMs =>
    replying .records (s.claimStalePendingCleanup nowMs maxAgeMs)
  | .finishPendingCleanup id => replying .flag (s.finishPendingCleanup id)

def InMemoryInner.after [SerdeJson] (ops : List LedgerOp) : InMemoryInner :=
  ops.foldl (fun s op => (s.exec op).2) .empty

end CorelinkRunners
