import CorelinkRunners.Contracts
import CorelinkRunners.Kit.Word

/-!
# Lease records, the transition matrix and the compute gate

The data every ledger backend stores, and the three checks they share: `applyTransition` enforces
the lifecycle matrix and stamps the record, `validateProviderRef` and `bind` decide whether a
provider reference may replace the placeholder a record was created with.

How `serde_json` reads a text is not modelled. `SerdeJson` is the one thing the ledger asks of it,
and every result below holds whatever that answer is.
-/

namespace CorelinkRunners

open Kit

/-! ## Metering -/

/-- The largest value a signed `bigint` ledger column stores. -/
def maxLedgerVcpuMs : Nat := Word.maxI64

def fitsLedger (v : Nat) : Bool := v ≤ maxLedgerVcpuMs

def vcpuMs (vcpu durMs : Nat) : Nat := Word.satMul vcpu durMs

/-! ## Records -/

structure LeaseRecord where
  leaseId : String
  tenant : TenantId
  state : LeaseState
  boxRef : String
  createdAtMs : Nat
  updatedAtMs : Nat
  deadlineMs : Option Nat
  billingAcquiredAtMs : Option Nat
deriving DecidableEq

/-- The four legal pairs: `Pending → Held` and `Held →` one of the terminal states. -/
def transitionIsLegal (source : LeaseState) (target : RunnerState) : Bool :=
  match source, target with
  | .pending, .held => true
  | .wire .held, .released => true
  | .wire .held, .expired => true
  | .wire .held, .crashed => true
  | _, _ => false

/-- The record a legal transition leaves: the new state, the new stamp, and the billing stamp on
the first `Held` only. -/
def LeaseRecord.stamped (rec : LeaseRecord) (target : RunnerState) (nowMs : Nat) : LeaseRecord :=
  let moved := { rec with state := .wire target, updatedAtMs := nowMs }
  if moved.state.isHeld && moved.billingAcquiredAtMs.isNone then
    { moved with billingAcquiredAtMs := some nowMs }
  else moved

def applyTransition (rec : LeaseRecord) (target : RunnerState) (nowMs : Nat) : Result LeaseRecord :=
  if transitionIsLegal rec.state target then .ok (rec.stamped target nowMs)
  else
    .error ("illegal lease transition for " ++ rec.leaseId ++ ": " ++ rec.state.debug ++ " -> "
      ++ target.debug ++
      " (contract §1 allows only Pending->Held and Held->Released|Expired|Crashed)")

theorem transitionIsLegal_iff {source : LeaseState} {target : RunnerState} :
    transitionIsLegal source target = true ↔
      (source = .pending ∧ target = .held) ∨ (source = .wire .held ∧ target.isTerminal = true) := by
  rcases source with _ | (_ | _ | _ | _) <;> cases target <;>
    simp [transitionIsLegal, RunnerState.isTerminal]

section Stamped

variable (rec : LeaseRecord) (target : RunnerState) (nowMs : Nat)

@[simp] theorem LeaseRecord.stamped_leaseId : (rec.stamped target nowMs).leaseId = rec.leaseId := by
  simp only [LeaseRecord.stamped]
  split <;> rfl

@[simp] theorem LeaseRecord.stamped_tenant : (rec.stamped target nowMs).tenant = rec.tenant := by
  simp only [LeaseRecord.stamped]
  split <;> rfl

@[simp] theorem LeaseRecord.stamped_state : (rec.stamped target nowMs).state = .wire target := by
  simp only [LeaseRecord.stamped]
  split <;> rfl

end Stamped

/-! ## Provider references -/

/-- What the ledger distinguishes among parsed JSON values. -/
inductive JsonShape
  | object (isEmpty : Bool)
  | other

/-- How `serde_json` reads a text. -/
class SerdeJson where
  fromStr : String → Result JsonShape

/-- A reader that accepts nothing, for runs that bind no provider reference. -/
abbrev refuseJson : SerdeJson := ⟨fun _ => .error "EOF while parsing a value at line 1 column 0"⟩

def providerRefPrefix : String := "provider-ref:v1:"

def providerRefMaxBytes : Nat := 4096

def stripPrefix (beginning text : String) : Option String :=
  if beginning.toList <+: text.toList then
    some (String.ofList (text.toList.drop beginning.length))
  else none

/-- A provider reference is short, tagged, and carries a non-empty JSON object. -/
def validateProviderRef [SerdeJson] (providerRef : String) : Result Unit :=
  if providerRef.utf8ByteSize > providerRefMaxBytes then
    .error ("provider reference exceeds " ++ toString providerRefMaxBytes ++ " bytes")
  else match stripPrefix providerRefPrefix providerRef with
    | none => .error "provider reference has invalid version prefix"
    | some payload =>
      match SerdeJson.fromStr payload with
      | .error err => .error ("provider reference is invalid JSON: " ++ err)
      | .ok (.object false) => .ok ()
      | .ok (.object true) => .error "provider reference object is empty"
      | .ok .other => .error "provider reference payload must be a nonempty JSON object"

def bind (current : LeaseRecord) (providerRef : String) : Result LeaseRecord :=
  if !current.state.isPending then
    .error ("lease " ++ current.leaseId ++ " is not Pending")
  else if current.boxRef = providerRef then .ok current
  else if current.boxRef ≠ "box:" ++ current.leaseId then
    .error ("lease " ++ current.leaseId ++ " already has a different provider reference")
  else .ok { current with boxRef := providerRef }

theorem bind_ok {current updated : LeaseRecord} {providerRef : String}
    (h : bind current providerRef = .ok updated) :
    current.state = .pending ∧ updated = { current with boxRef := providerRef } := by
  simp only [bind] at h
  split at h
  · cases h
  next hp =>
    simp only [Bool.not_eq_true', Bool.not_eq_false, LeaseState.isPending_iff] at hp
    refine ⟨hp, ?_⟩
    split at h
    next href =>
      cases h
      subst href
      rfl
    · split at h
      · cases h
      · cases h
        rfl

/-! ## The compute gate -/

structure ComputeGate where
  periodKey : Nat
  ceilingVcpuMs : Nat
  boxVcpuCount : Nat
  newReservedVcpuMs : Nat
deriving DecidableEq

inductive AdmitOutcome
  | admitted
  | overConcurrency
  | overCompute
deriving DecidableEq

/-- One lease's compute reservation, with the once-only accrual latch. -/
structure LeaseReservation where
  boxVcpuCount : Nat
  accrualPeriodKey : Nat
  reservedVcpuMs : Nat
  accruedAtMs : Option Nat
deriving DecidableEq

def ComputeGate.reservation (gate : ComputeGate) : LeaseReservation where
  boxVcpuCount := gate.boxVcpuCount
  accrualPeriodKey := gate.periodKey
  reservedVcpuMs := gate.newReservedVcpuMs
  accruedAtMs := none

/-- What a terminal transition charges: the box's vCPU·ms since creation, never more than was
reserved. -/
def LeaseReservation.actual (res : LeaseReservation) (createdAtMs nowMs : Nat) : Nat :=
  min (vcpuMs res.boxVcpuCount (nowMs - createdAtMs)) res.reservedVcpuMs

/-- The terminal accrual, as a durable ledger journals it. -/
structure AccrualEvent where
  leaseId : String
  tenant : TenantId
  periodKey : Nat
  newAccrualTotal : Nat

end CorelinkRunners
