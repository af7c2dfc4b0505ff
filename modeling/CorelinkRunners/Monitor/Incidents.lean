import CorelinkRunners.Monitor.Envelopes

/-!
# Lifecycle decisions, incidents and the delivery queue

The pure policies of the monitor: what a lifecycle payload says about its source (`lifecycle.ts`),
how an incident goes on with a signal (`incidents.ts`), and what its alerts add to the delivery
queue of the lane (`outbox.ts`).
-/

namespace CorelinkRunners.Monitor

open Kit

/-! ## Lifecycle -/

structure LifecycleDecision where
  status : Health
  reason : String
  authority : LifecycleAuthority
  nonce : String

def maxSampleAgeMs : Nat := 120000

def boundedIdentity (value label : String) : Except String Unit :=
  if value ≠ "" ∧ Text.utf16Len value.toList ≤ 256 then .ok () else .error (label ++ "_invalid")

def safeMs (value : Nat) (label : String) : Except String Unit :=
  if isPositive value then .ok () else .error (label ++ "_invalid")

def classifyLifecycle (payload : LifecyclePayload) (r : Registration)
    (previousAuthority : Option LifecycleAuthority) (previousNonce : Option String) (nowMs : Nat) :
    Except String LifecycleDecision := do
  boundedIdentity payload.sourceId "source_id"
  boundedIdentity payload.sourceVersion "source_version"
  boundedIdentity payload.transitionId "transition_id"
  boundedIdentity payload.nonce "nonce"
  unless isPositive payload.monotonicSeq do throw "monotonic_seq_invalid"
  safeMs payload.transitionAt "transition_at"
  safeMs payload.sampledAt "sampled_at"
  safeMs nowMs "now"
  if r.authoritySourceId ≠ some payload.sourceId then throw "source_id_not_pinned"
  if r.sourceVersion ≠ payload.sourceVersion then throw "source_version_not_pinned"
  if previousNonce = some payload.nonce then throw "nonce_replayed"
  if payload.sampledAt < payload.transitionAt then throw "transition_in_future"
  if nowMs < payload.sampledAt then throw "sample_in_future"
  let authority : LifecycleAuthority :=
    ⟨payload.sourceId, payload.monotonicSeq, payload.transitionId, payload.state,
      payload.transitionAt, payload.sourceVersion⟩
  if let some previous := previousAuthority then
    if payload.monotonicSeq < previous.sequence then throw "sequence_regressed"
    if payload.monotonicSeq = previous.sequence ∧ authority ≠ previous then
      throw "same_sequence_changed"
  if maxSampleAgeMs < nowMs - payload.sampledAt then
    return ⟨.unknown, "sample_stale", authority, payload.nonce⟩
  return ⟨payload.state, payload.state.name, authority, payload.nonce⟩

/-! ## Incidents -/

abbrev Waters : Type := List (String × Nat)

def Waters.names (w : Waters) : List String := w.map (·.1)

structure Signal where
  sourceKey : Data
  failing : Bool
  reason : String
  highWaters : Waters
  monitorTupleDigest : Data

inductive IncidentStatus
  | opened
  | recovering
  | recovered
  deriving DecidableEq

structure Incident where
  incidentId : Data
  sourceKey : Data
  monitorTupleDigest : Data
  status : IncidentStatus
  openedAt : Nat
  lastFailureAt : Nat
  allClearSince : Option Nat
  initialHighWaters : Waters
  latestHighWaters : Waters
  humanAcknowledgedAt : Option Nat
  escalationCreated : Bool
  revision : Nat
  lastReason : String

inductive AlertKind
  | initial
  | escalation
  | recovery
  | update

def AlertKind.name : AlertKind → String
  | .initial => "initial"
  | .escalation => "escalation"
  | .recovery => "recovery"
  | .update => "update"

structure AlertIntent where
  operationId : Data
  incidentId : Data
  kind : AlertKind
  reason : String

structure IncidentDecision where
  incident : Option Incident
  alerts : List AlertIntent

def quietMs : Nat := 330000
def escalationMs : Nat := 300000

def validTime (value : Nat) (field : String) : Except String Unit :=
  if isNonnegative value then .ok () else .error (field ++ " is invalid")

def validateSignal (signal : Signal) (nowMs : Nat) : Except String Unit := do
  unless isDigest signal.sourceKey do throw "sourceKey is invalid"
  unless isTrimmed signal.reason do throw "reason is invalid"
  unless isDigest signal.monitorTupleDigest do throw "monitorTupleDigest is invalid"
  validTime nowMs "nowMs"
  unless signal.highWaters.all (fun entry => entry.1 != "" && isNonnegative entry.2) do
    throw "highWater is invalid"

def validateWaters (waters : Waters) (field : String) : Except String Unit :=
  if waters.all fun entry => isLabel entry.1 && isNonnegative entry.2 then .ok ()
  else .error (field ++ " is invalid")

def validatePrevious (previous : Incident) (nowMs : Nat) : Except String Unit := do
  unless isDigest previous.incidentId do throw "incidentId is invalid"
  unless isDigest previous.sourceKey do throw "sourceKey is invalid"
  unless isDigest previous.monitorTupleDigest do throw "monitorTupleDigest is invalid"
  unless isLabel previous.lastReason do throw "lastReason is invalid"
  unless isPositive previous.revision do throw "revision is invalid"
  validateWaters previous.initialHighWaters "initialHighWaters"
  validateWaters previous.latestHighWaters "latestHighWaters"
  unless previous.initialHighWaters.names.all previous.latestHighWaters.names.contains do
    throw "latestHighWaters is incomplete"
  validTime previous.openedAt "openedAt"
  validTime previous.lastFailureAt "lastFailureAt"
  if let some clear := previous.allClearSince then validTime clear "allClearSince"
  if previous.lastFailureAt < previous.openedAt ∨
      previous.allClearSince.any (fun clear => decide (clear < previous.lastFailureAt)) then
    throw "incident times are incoherent"
  if let some acknowledged := previous.humanAcknowledgedAt then
    validTime acknowledged "humanAcknowledgedAt"
    if acknowledged < previous.openedAt ∨ nowMs < acknowledged then
      throw "humanAcknowledgedAt is incoherent"
  if previous.status = .opened ∧ previous.allClearSince.isSome then
    throw "open incident has clear time"
  if previous.status ≠ .opened ∧ previous.allClearSince.isNone then
    throw "cleared incident is missing clear time"
  if nowMs < previous.openedAt ∨ nowMs < previous.lastFailureAt ∨
      previous.allClearSince.any (fun clear => decide (nowMs < clear)) then
    throw "nowMs regresses incident time"

def alert (incident : Incident) (kind : AlertKind) (reason : String) : AlertIntent :=
  ⟨.hash (.list [incident.incidentId, .number incident.revision, .text kind.name]),
    incident.incidentId, kind, reason⟩

def newIncident (signal : Signal) (nowMs : Nat) : Incident where
  incidentId :=
    .hash (.list [signal.sourceKey, signal.monitorTupleDigest, .number nowMs, .number 1])
  sourceKey := signal.sourceKey
  monitorTupleDigest := signal.monitorTupleDigest
  status := .opened
  openedAt := nowMs
  lastFailureAt := nowMs
  allClearSince := none
  initialHighWaters := signal.highWaters
  latestHighWaters := signal.highWaters
  humanAcknowledgedAt := none
  escalationCreated := false
  revision := 1
  lastReason := signal.reason

def changedFailure (previous : Incident) (signal : Signal) : Bool :=
  previous.sourceKey != signal.sourceKey || previous.monitorTupleDigest !=
    signal.monitorTupleDigest || previous.lastReason != signal.reason ||
    (previous.latestHighWaters.names ++ signal.highWaters.names).any fun name =>
      previous.latestHighWaters.lookup name != signal.highWaters.lookup name

def allAdvanced (previous : Incident) (signal : Signal) : Bool :=
  previous.initialHighWaters.all fun entry =>
    (signal.highWaters.lookup entry.1).any fun value => isNonnegative value && decide
    (entry.2 < value)

def replaces (previous : Option Incident) (signal : Signal) : Bool :=
  previous.all fun p => p.status == .recovered || p.sourceKey != signal.sourceKey ||
    p.monitorTupleDigest != signal.monitorTupleDigest

def failAgain (previous : Incident) (signal : Signal) (nowMs : Nat) : IncidentDecision :=
  let incident := { previous with
    latestHighWaters := signal.highWaters, lastFailureAt := nowMs, lastReason := signal.reason,
    status := .opened, allClearSince := none }
  if changedFailure previous signal then
    let incident := { incident with revision := previous.revision + 1 }
    ⟨some incident, [alert incident .update signal.reason]⟩
  else ⟨some incident, []⟩

def recover (previous : Incident) (signal : Signal) (nowMs : Nat) : IncidentDecision :=
  let incident := { previous with latestHighWaters := signal.highWaters }
  if previous.status = .recovered then ⟨some incident, []⟩
  else if !allAdvanced previous signal then
    let incident := { incident with
      status := .opened, allClearSince := none, lastReason := signal.reason }
    if previous.allClearSince = none ∧ !changedFailure previous signal then ⟨some incident, []⟩
    else
      let incident := { incident with revision := previous.revision + 1 }
      ⟨some incident, [alert incident .update signal.reason]⟩
  else match previous.allClearSince with
    | none =>
      let incident := { incident with
        allClearSince := some nowMs, status := .recovering, revision := previous.revision + 1 }
      ⟨some incident, [alert incident .update signal.reason]⟩
    | some clear =>
      if nowMs - clear < quietMs then ⟨some { incident with status := .recovering }, []⟩
      else
        let incident := { incident with status := .recovered, revision := previous.revision + 1 }
        ⟨some incident, [alert incident .recovery signal.reason]⟩

def evaluateIncident (previous : Option Incident) (signal : Signal) (nowMs : Nat) :
    Except String IncidentDecision := do
  validateSignal signal nowMs
  if let some p := previous then validatePrevious p nowMs
  if signal.failing ∧ replaces previous signal then
    let incident := newIncident signal nowMs
    return ⟨some incident, [alert incident .initial signal.reason]⟩
  match previous with
  | none => return ⟨none, []⟩
  | some p => return if signal.failing then failAgain p signal nowMs else recover p signal nowMs

def evaluateEscalation (previous : Option Incident) (nowMs : Nat) :
    Except String IncidentDecision := do
  validTime nowMs "nowMs"
  match previous with
  | none => return ⟨none, []⟩
  | some p =>
    validatePrevious p nowMs
    if p.status = .recovered ∨ p.humanAcknowledgedAt.isSome ∨ p.escalationCreated = true ∨
        nowMs < p.openedAt + escalationMs then
      return ⟨some p, []⟩
    let incident := { p with escalationCreated := true, revision := p.revision + 1 }
    return ⟨some incident, [alert incident .escalation p.lastReason]⟩

/-! ## The delivery queue -/

structure DeliveryOperation where
  operationId : Data
  incidentId : Data
  kind : AlertKind
  destination : String
  payload : Data
  payloadDigest : Data

structure DeliveryQueue where
  sourceKey : Data
  pendingOperationIds : List Data

inductive DeliveryStatus
  | queued
  | inflight
  | delivered
  deriving DecidableEq

inductive LastResult
  | unknown
  | accepted

structure PendingDelivery where
  operation : DeliveryOperation
  sourceKey : Data
  createdAt : Nat
  status : DeliveryStatus
  attempt : Nat
  claimId : Option String
  claimUntil : Option Nat
  nextAttemptAt : Nat
  acceptedMessageId : Option String
  lastResult : Option LastResult

def maxPendingDeliveries : Nat := 100

def operationFromAlert (a : AlertIntent) (destination : String) (monitorTupleDigest : Data) :
    Except String DeliveryOperation := do
  unless isDigest a.operationId && isDigest a.incidentId && isLabel a.reason &&
      isDigest monitorTupleDigest do
    throw "invalid alert intent"
  let payload : Data := .list [a.incidentId, .text a.kind.name, .text a.reason, monitorTupleDigest]
  return ⟨a.operationId, a.incidentId, a.kind, destination, payload, .hash payload⟩

def queueValid (queue : DeliveryQueue) : Bool :=
  isDigest queue.sourceKey && decide (queue.pendingOperationIds.length ≤ maxPendingDeliveries) &&
    queue.pendingOperationIds.all isDigest

structure Plan where
  queue : DeliveryQueue
  deliveries : List PendingDelivery

/-- Add the alerts to the queue, one after the other; one that is in it already is passed over. -/
def enqueueAlerts (sourceKey : Data) (destination : String) (nowMs : Nat)
    (monitorTupleDigest : Data) :
    List AlertIntent → List Data → List PendingDelivery → Except String Plan
  | [], ids, deliveries => return ⟨⟨sourceKey, ids⟩, deliveries⟩
  | a :: alerts, ids, deliveries => do
    let operation ← operationFromAlert a destination monitorTupleDigest
    if ids.contains operation.operationId then
      enqueueAlerts sourceKey destination nowMs monitorTupleDigest alerts ids deliveries
    else
      if maxPendingDeliveries ≤ ids.length then throw "delivery queue is full"
      enqueueAlerts sourceKey destination nowMs monitorTupleDigest alerts
        (ids ++ [operation.operationId])
        (deliveries ++ [⟨operation, sourceKey, nowMs, .queued, 0, none, none, nowMs, none, none⟩])

def planEnqueue (queue : Option DeliveryQueue) (sourceKey : Data) (alerts : List AlertIntent)
    (destination : String) (nowMs : Nat) (monitorTupleDigest : Data) : Except String Plan := do
  unless isDigest sourceKey do throw "invalid source key"
  unless isPositive nowMs do throw "invalid trusted time"
  unless isLabel destination && isDigest monitorTupleDigest do throw "invalid enqueue input"
  unless queue.all fun q => queueValid q && q.sourceKey == sourceKey do throw "invalid queue"
  enqueueAlerts sourceKey destination nowMs monitorTupleDigest alerts
    (queue.elim [] (·.pendingOperationIds)) []

end CorelinkRunners.Monitor
