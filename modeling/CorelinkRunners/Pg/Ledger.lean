import CorelinkRunners.Pg.Tables

/-!
# The Postgres ledger

The calls of the Postgres ledger as programs of statements, in the order the source sends them.
Nothing is locked by the pre-read that most calls begin with: it runs in a transaction of its own,
and what it saw can be out of date when the call's transaction takes its first lock.

A transaction that is dropped is rolled back, so a path of the source that returns out of an open
transaction rolls back here.
-/

namespace CorelinkRunners

open Kit

def stateToDb : LeaseState → String
  | .pending => "pending"
  | .wire .held => "held"
  | .wire .released => "released"
  | .wire .expired => "expired"
  | .wire .crashed => "crashed"

def legalFromFor : RunnerState → LeaseState
  | .held => .pending
  | .released | .expired | .crashed => .wire .held

/-- The row an admission inserts: updated when created, never billed yet, and with the compute
columns of its gate if it has one. -/
def LeaseRow.admitted (rec : LeaseRecord) (gate : Option ComputeGate) : LeaseRow where
  record := { rec with updatedAtMs := rec.createdAtMs, billingAcquiredAtMs := none }
  boxVcpuCount := gate.map ComputeGate.boxVcpuCount
  accrualPeriodKey := gate.map ComputeGate.periodKey
  reservedVcpuMs := gate.map ComputeGate.newReservedVcpuMs
  accruedAtMs := none

/-- The terminal accrual: the box's vCPU·ms, capped by the reservation and by the ledger bound. -/
def terminalAccrual (vcpu reserved createdAtMs nowMs : Nat) : Nat :=
  let raw := vcpuMs vcpu (nowMs - createdAtMs)
  let accrual := if raw > reserved then reserved else raw
  if !fitsLedger accrual then maxLedgerVcpuMs else accrual

def checkedEpochMs (value : Nat) (field : String) : Result Int :=
  if value ≤ Word.maxI64 then .ok value
  else
    .error ("pending cleanup " ++ field ++ " exceeds PostgreSQL bigint range (fail-closed)")

def strictCutoffMs (nowMs maxAgeMs : Nat) : Result Int := do
  let nowMs ← checkedEpochMs nowMs "now_ms"
  let maxAgeMs ← checkedEpochMs maxAgeMs "max_age_ms"
  return nowMs - maxAgeMs

namespace Pg

variable {A : Type}

/-! ## Shared pieces -/

/-- Lock the lease row, then look for a claim in a statement of its own. -/
def lockUnclaimedLease (leaseId : String) (k : Bool → Pg A) : Pg A :=
  sql (.lockLease leaseId) fun locked =>
  match locked with
  | none => k false
  | some _ => sql (.claimed leaseId) fun claimed => k (!claimed)

/-- The tenant's advisory lock, for a lease the pre-read found accounting-on. -/
def lockAccounted (pre : Attribution) (k : Pg A) : Pg A :=
  if pre.boxVcpuCount.isSome then sql (.advisoryLock pre.tenant) fun _ => k else k

/-! ## Transitions -/

def lostTransition (leaseId : String) (target : RunnerState) (why : String) : Result LeaseRecord :=
  .error ("illegal/lost lease transition for " ++ leaseId ++ ": -> " ++ stateToDb (.wire target)
    ++ " (" ++ why ++ "; contract §1 fail-closed)")

/-- The path of a lease the pre-read found without compute columns. -/
def transitionOff (leaseId : String) (target : RunnerState) (nowMs : Nat) :
    Pg (Result LeaseRecord) :=
  start <| lockUnclaimedLease leaseId fun unclaimed =>
  if unclaimed then
    sql (.updateState leaseId (legalFromFor target) target nowMs) fun row =>
    match row with
    | some record => commit <| answer (.ok record)
    | none => rollback <| answer
        (lostTransition leaseId target "no row in the required source state")
  else rollback <| answer (lostTransition leaseId target "cleanup-claimed or no row")

/-- Accrue a terminal transition under the tenant and the period the pre-read saw. Reading a column
that is NULL panics and drops the transaction. -/
def accrueTerminal (leaseId tenant : String) (periodKey : Option Nat) (row : LeaseRow)
    (nowMs : Nat) : Pg (Result LeaseRecord) :=
  match row.boxVcpuCount, row.reservedVcpuMs with
  | some vcpu, some reserved =>
    match periodKey with
    | some periodKey =>
      sql (.accrue tenant periodKey
        (terminalAccrual vcpu reserved row.record.createdAtMs nowMs)) fun _ =>
      commit <| answer (.ok row.record)
    | none =>
      rollback <| answer (.error ("accounting-on lease " ++ leaseId
        ++ " has NULL accrual_period_key at terminal accrual (corrupt admit; fail-closed)"))
  | _, _ => rollback <| answer (.error "error retrieving column: a Postgres value was NULL")

/-- The path of a lease the pre-read found with compute columns. -/
def transitionOn (leaseId tenant : String) (periodKey : Option Nat) (target : RunnerState)
    (nowMs : Nat) : Pg (Result LeaseRecord) :=
  start <| sql (.advisoryLock tenant) fun _ =>
  lockUnclaimedLease leaseId fun unclaimed =>
  if unclaimed then
    sql (.updateStamped leaseId (legalFromFor target) target nowMs) fun row =>
    match row with
    | some (row, wasUnaccrued) =>
      if target.isTerminal && wasUnaccrued then accrueTerminal leaseId tenant periodKey row nowMs
      else commit <| answer (.ok row.record)
    | none => rollback <| answer
        (lostTransition leaseId target "no row in the required source state")
  else rollback <| answer (lostTransition leaseId target "cleanup-claimed or no row")

/-- The path is chosen by a pre-read that holds no lock. -/
def transition (leaseId : String) (target : RunnerState) (nowMs : Nat) : Pg (Result LeaseRecord) :=
  sql (.attribution leaseId) fun pre =>
  match pre with
  | some ⟨tenant, some _, periodKey⟩ => transitionOn leaseId tenant periodKey target nowMs
  | _ => transitionOff leaseId target nowMs

/-! ## Admission -/

def tryAdmit (rec : LeaseRecord) (maxConcurrency : Nat) : Pg (Result Bool) :=
  start <| sql (.advisoryLock rec.tenant.raw) fun _ =>
  sql (.countAndInsert (.admitted rec none) maxConcurrency) fun res =>
  match res with
  | .ok inserted => commit <| answer (.ok inserted)
  | .error e =>
    rollback <| answer (.error ("try_admit failed for lease " ++ rec.leaseId
      ++ " (duplicate id or DB error): " ++ e))

/-- The compute gate under the tenant's lock, the ceiling before the cap. -/
def admitGated (rec : LeaseRecord) (maxConcurrency : Nat) (gate : ComputeGate) :
    Pg (Result AdmitOutcome) :=
  start <| sql (.advisoryLock rec.tenant.raw) fun _ =>
  sql (.gate rec.tenant.raw gate.periodKey) fun row =>
  let projected := Word.satAdd (Word.satAdd row.accrued row.sigma) gate.newReservedVcpuMs
  if projected > gate.ceilingVcpuMs then rollback <| answer (.ok .overCompute)
  else if row.cnt ≥ maxConcurrency then rollback <| answer (.ok .overConcurrency)
  else
    sql (.insertLease (.admitted rec (some gate))) fun res =>
    match res with
    | .ok () => commit <| answer (.ok .admitted)
    | .error e =>
      rollback <| answer (.error ("try_admit_with_compute failed for lease " ++ rec.leaseId
        ++ " (duplicate id or DB error): " ++ e))

def tryAdmitWithCompute (rec : LeaseRecord) (maxConcurrency : Nat) (gate : Option ComputeGate) :
    Pg (Result AdmitOutcome) :=
  match gate.filter fun g => g.ceilingVcpuMs > 0 with
  | none =>
    (tryAdmit rec maxConcurrency).map fun res =>
      res.map fun admitted => if admitted then .admitted else .overConcurrency
  | some g =>
    if !fitsLedger g.newReservedVcpuMs then
      answer (.error ("try_admit_with_compute: new_reserved_vcpu_ms "
        ++ toString g.newReservedVcpuMs
        ++ " exceeds the i64 ledger bound (fail-closed — refusing to store a wrapping reservation)"))
    else if !fitsLedger g.ceilingVcpuMs then
      answer (.error ("try_admit_with_compute: ceiling_vcpu_ms " ++ toString g.ceilingVcpuMs
        ++ " exceeds the i64 ledger bound (an unlimited tier must be 0/disabled, not a huge value;"
        ++ " fail-closed)"))
    else admitGated rec maxConcurrency g

/-! ## Binding -/

/-- What the driver reports where a query that must return one row returns none. -/
def rowCount : String := "query returned an unexpected number of rows"

def bindLocked (leaseId providerRef : String) : Pg (Result LeaseRecord) :=
  sql (.selectLease leaseId) fun row =>
  match row with
  | none => rollback <| answer (.error rowCount)
  | some current =>
    if !current.state.isPending then
      rollback <| answer (.error ("lease " ++ leaseId ++ " is not Pending"))
    else if current.boxRef = providerRef then commit <| answer (.ok current)
    else if current.boxRef ≠ "box:" ++ leaseId then
      rollback <| answer (.error ("lease " ++ leaseId
        ++ " already has a different provider reference"))
    else
      sql (.updateBoxRef leaseId providerRef ("box:" ++ leaseId)) fun updated =>
      match updated with
      | some record => commit <| answer (.ok record)
      | none => rollback <| answer (.error rowCount)

def bindProviderRef [SerdeJson] (leaseId providerRef : String) : Pg (Result LeaseRecord) :=
  match validateProviderRef providerRef with
  | .error e => answer (.error e)
  | .ok () =>
    sql (.attribution leaseId) fun pre =>
    match pre with
    | none => answer (.error ("unknown lease " ++ leaseId))
    | some pre =>
      start <| lockAccounted pre <| lockUnclaimedLease leaseId fun unclaimed =>
      if unclaimed then bindLocked leaseId providerRef
      else rollback <| answer (.error ("lease " ++ leaseId ++ " is unknown or cleanup-claimed"))

/-! ## Removal -/

/-- Why an accounting-on lease that is not Pending is not dropped. -/
def refusedRemoval (leaseId : String) (state : LeaseState) : Result Bool :=
  .error ("remove(" ++ leaseId ++ "): refusing to drop an accounting-on lease in state \""
    ++ stateToDb state ++ "\" — `remove` is Pending-only under accounting-on (wave plan §13 F5; use"
    ++ " `transition` to a terminal state so the consumed vCPU·ms accrues)")

def removeLocked (leaseId : String) (pendingOnly : Bool) : Pg (Result Bool) :=
  sql (.deleteLease leaseId pendingOnly) fun deleted =>
  if deleted then commit <| answer (.ok true)
  else if pendingOnly then commit <| answer (.ok false)
  else
    sql (.accountedState leaseId) fun still =>
    match still with
    | some state => rollback <| answer (refusedRemoval leaseId state)
    | none => commit <| answer (.ok false)

def removeWith (leaseId : String) (pendingOnly : Bool) : Pg (Result Bool) :=
  sql (.attribution leaseId) fun pre =>
  match pre with
  | none => answer (.ok false)
  | some pre =>
    start <| lockAccounted pre <| lockUnclaimedLease leaseId fun unclaimed =>
    if unclaimed then removeLocked leaseId pendingOnly else rollback <| answer (.ok false)

def remove (leaseId : String) : Pg (Result Bool) := removeWith leaseId false

def removeIfPending (leaseId : String) : Pg (Result Bool) := removeWith leaseId true

/-! ## Cleanup claims -/

/-- A sweep claims by age, a rollback claims one named lease. -/
inductive ClaimPredicate
  | strictlyOlderThan (cutoffMs : Int)
  | namedPending

def ClaimPredicate.spares (predicate : ClaimPredicate) (createdAtMs : Nat) : Bool :=
  match predicate with
  | strictlyOlderThan cutoffMs => cutoffMs ≤ createdAtMs
  | namedPending => false

/-- Can the predicate be evaluated? A stale-age check needs a creation time in `bigint` range. -/
def ClaimPredicate.corrupt (predicate : ClaimPredicate) (createdAtMs : Nat) : Bool :=
  match predicate with
  | strictlyOlderThan _ => Word.maxI64 < createdAtMs
  | namedPending => false

/-- Claim one Pending lease, or return it if it is claimed already. -/
def claimOne (leaseId : String) (predicate : ClaimPredicate) (claimedAtMs : Nat)
    (k : Result (Option LeaseRecord) → Pg A) : Pg A :=
  sql (.attribution leaseId) fun pre =>
  match pre with
  | none => k (.ok none)
  | some pre =>
    start <| lockAccounted pre <| sql (.lockLease leaseId) fun row =>
    match row with
    | none => rollback <| k (.ok none)
    | some record =>
      if !record.state.isPending then rollback <| k (.ok none)
      else sql (.claimed leaseId) fun alreadyClaimed =>
        if alreadyClaimed then commit <| k (.ok (some record))
        else if predicate.corrupt record.createdAtMs then
          rollback <| k (.error ("lease " ++ leaseId
            ++ " created_at_ms exceeds PostgreSQL bigint range (corrupt row)"))
        else if predicate.spares record.createdAtMs then rollback <| k (.ok none)
        else sql (.insertClaim leaseId claimedAtMs) fun res =>
          match res with
          | .ok () => commit <| k (.ok (some record))
          | .error e => rollback <| k (.error e)

def claimPendingCleanup (leaseId : String) (nowMs : Nat) : Pg (Result (Option LeaseRecord)) :=
  match checkedEpochMs nowMs "now_ms" with
  | .error e => answer (.error e)
  | .ok _ => claimOne leaseId .namedPending nowMs answer

/-- Claim the leases of the work list one after the other, each in a transaction of its own. -/
def claimEach (predicate : ClaimPredicate) (claimedAtMs : Nat) :
    List String → List LeaseRecord → Pg (Result (List LeaseRecord))
  | [], claimed => answer (.ok claimed)
  | leaseId :: rest, claimed =>
    claimOne leaseId predicate claimedAtMs fun res =>
    match res with
    | .ok (some record) => claimEach predicate claimedAtMs rest (claimed ++ [record])
    | .ok none => claimEach predicate claimedAtMs rest claimed
    | .error e => answer (.error e)

def claimStalePendingCleanup (nowMs maxAgeMs : Nat) : Pg (Result (List LeaseRecord)) :=
  match strictCutoffMs nowMs maxAgeMs with
  | .error e => answer (.error e)
  | .ok cutoffMs =>
    sql (.staleIds cutoffMs) fun ids => claimEach (.strictlyOlderThan cutoffMs) nowMs ids []

def finishPendingCleanup (leaseId : String) : Pg (Result Bool) :=
  sql (.attribution leaseId) fun pre =>
  match pre with
  | none => answer (.ok false)
  | some pre =>
    start <| lockAccounted pre <| sql (.lockLease leaseId) fun row =>
    match row with
    | none => rollback <| answer (.ok false)
    | some record =>
      if !record.state.isPending then rollback <| answer (.ok false)
      else sql (.claimed leaseId) fun owned =>
        if owned then sql (.deleteLease leaseId true) fun deleted => commit <| answer (.ok deleted)
        else rollback <| answer (.ok false)

/-! ## Reads -/

def get (leaseId : String) : Pg (Option LeaseRecord) := sql (.selectLease leaseId) answer

def byTenant (tenant : TenantId) : Pg (List LeaseRecord) := sql (.byTenant tenant.raw) answer

def held : Pg (List LeaseRecord) := sql .heldLeases answer

def pendingOlderThan (nowMs maxAgeMs : Nat) : Pg (Result (List LeaseRecord)) :=
  match strictCutoffMs nowMs maxAgeMs with
  | .error e => answer (.error e)
  | .ok cutoffMs => sql (.pendingBelow cutoffMs) fun rows => answer (.ok rows)

def computeAccrued (tenant : TenantId) (periodKey : Nat) : Pg Nat :=
  sql (.accrued tenant.raw periodKey) answer

end Pg

end CorelinkRunners
