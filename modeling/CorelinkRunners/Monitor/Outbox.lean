import CorelinkRunners.Monitor.Ingest

/-!
# The alert outbox and the scheduler

`DurableDeliveryOutbox.drain` goes through the queue of a source: it claims a delivery, writes the
intent of the attempt ahead, publishes, writes the result and finalizes the delivery.
`MonitorScheduler.check` looks at the cursor of a lane, lets its incident go on, enqueues the alerts
in the transaction that stores the incident, and drains.

The calls here are of any number of instances on one store. An enqueue is a call of its own, for the
callers that are not modelled with it: it reads the queue, plans and writes the plan, together with
anything that is no queue and no delivery.
-/

namespace CorelinkRunners.Monitor.Outbox

open Kit
open Ingest (Key Record AuditReceipt)

/-! ## Effects -/

inductive DeliveryResult
  | accepted (operationId : Data) (provider providerMessageId : String)
  | unknown (operationId : Data) (reason : String)

inductive Effect
  | get (k : Key)
  | transact (writes : List (Write Key Record))
  /-- The transaction that claims a delivery. The identifier of the claim is drawn right before it
  is sent, with no await in between. -/
  | claim (operationId : Data) (stored : Stored PendingDelivery) (now : Nat)
  | now
  | append (operationId payload : Data)
  | verify (receipt : AuditReceipt)
  /-- The attempt and the call it is made in are noted with it; the transport sees the operation. -/
  | publish (operation : DeliveryOperation) (attempt caller : Nat)

abbrev Ans : Effect → Type
  | .get k => Option (Stored (Record k))
  | .transact _ => Outcome
  | .claim _ _ _ => Outcome × String
  | .now => Nat
  | .append _ _ => AuditReceipt
  | .verify _ => Unit
  | .publish _ _ _ => DeliveryResult

abbrev Method (A : Type) : Type := Kit.Call Effect Ans Failure A

def await (e : Effect) : Method (Ans e) := Call.await e

def get (k : Key) : Method (Option (Stored (Record k))) := await (.get k)

def transact (writes : List (Write Key Record)) : Method Outcome := await (.transact writes)

def decided {A : Type} (x : Except String A) : Method A :=
  Call.ofExcept (x.mapError .other)

structure Config where
  destination : String
  monitorTupleDigest : Data

/-! ## Deliveries -/

def claimMs : Nat := 30000
def retryMs : Nat := 5000

def claimActive (item : PendingDelivery) (now : Nat) : Bool :=
  item.status == .inflight && item.claimUntil.any fun deadline => decide (now < deadline)

def operationValid (destination : String) (o : DeliveryOperation) : Bool :=
  isDigest o.operationId && isDigest o.incidentId && isLabel o.destination &&
    o.destination == destination && isDigest o.payloadDigest && o.payloadDigest == .hash o.payload

def deliveryValid (destination : String) (item : PendingDelivery) : Bool :=
  operationValid destination item.operation && isDigest item.sourceKey &&
    isPositive item.createdAt && isNonnegative item.attempt &&
    (item.status != .inflight || (item.claimId.any isLabel && item.claimUntil.any isPositive)) &&
    (item.status == .inflight || item.claimId.isNone) && item.claimUntil.all isPositive &&
    isPositive item.nextAttemptAt && item.acceptedMessageId.all isLabel

def claimed (item : PendingDelivery) (claimId : String) (now : Nat) : PendingDelivery :=
  { item with
    status := .inflight, attempt := item.attempt + 1, claimId := some claimId
    claimUntil := some (now + claimMs) }

def notDue (item : PendingDelivery) (now : Nat) : Bool :=
  item.status == .delivered || decide (now < item.nextAttemptAt) || claimActive item now

def acceptedAs (operationId : Data) : DeliveryResult → Option String
  | .accepted id provider messageId =>
    if provider = "aws-sns" ∧ id = operationId ∧ isLabel messageId then some messageId else none
  | .unknown _ _ => none

def finalOf (item : PendingDelivery) (operationId : Data) (result : DeliveryResult)
    (finalNow : Nat) : PendingDelivery :=
  match acceptedAs operationId result with
  | some messageId =>
    { item with
      status := .delivered, claimId := none, claimUntil := none, acceptedMessageId := some messageId
      lastResult := some .accepted }
  | none =>
    { item with
      status := .queued, claimId := none, claimUntil := none, nextAttemptAt := finalNow + retryMs
      lastResult := some .unknown }

def intentId (operationId : Data) (attempt : Nat) : Data :=
  .list [operationId, .text ":attempt:", .number attempt, .text ":intent"]

def resultId (operationId : Data) (attempt : Nat) : Data :=
  .list [operationId, .text ":attempt:", .number attempt, .text ":result"]

def operationData (o : DeliveryOperation) : Data :=
  .list [o.operationId, o.incidentId, .text o.kind.name, .text o.destination, o.payload,
    o.payloadDigest]

def intentPayload (o : DeliveryOperation) (attempt : Nat) : Data :=
  .list [.text "WRITE_AHEAD_INTENT", operationData o, .number attempt]

def resultData : DeliveryResult → Data
  | .accepted id provider messageId => .list [.text "accepted", id, .text provider, .text messageId]
  | .unknown id reason => .list [.text "unknown", id, .text reason]

def resultPayload (operationId : Data) (attempt : Nat) (intentRoot : Data)
    (result : DeliveryResult) : Data :=
  .list [.text "DELIVERY_RESULT", operationId, .number attempt, intentRoot, resultData result]

/-! ## Draining -/

inductive Attempted
  | passedOver
  | left
  | delivered
  | unknown

structure Drained where
  delivered : Nat
  unknown : Nat
  pending : Nat
  deriving DecidableEq

section Drain

variable (cfg : Config) (caller : Nat) (lane operationId : Data)

def trustedNow : Method Nat := do
  let now ← await .now
  if !isPositive now then throw (.other "invalid trusted time proof")
  return now

def isOurs (claimId : String) (item : PendingDelivery) : Bool :=
  deliveryValid cfg.destination item && item.claimId == some claimId

/-- The writes that finalize a delivery: with a delivered one, its queue lets go of it. -/
def finalWrites (current : Stored PendingDelivery) (final : PendingDelivery) :
    Method (List (Write Key Record)) := do
  if final.status = .delivered then
    match ← get (.queue lane) with
    | none => throw (.other "malformed delivery queue")
    | some (q : Stored DeliveryQueue) =>
      if !queueValid q.value then throw (.other "malformed delivery queue")
      return [⟨.delivery operationId, some current.version, final⟩,
        ⟨.queue lane, some q.version,
          ⟨lane, q.value.pendingOperationIds.filter fun id => id != operationId⟩⟩]
  else return [⟨.delivery operationId, some current.version, final⟩]

def finalize (claimId : String) (final : PendingDelivery) : Nat → Method Attempted
  | 0 => return .left
  | retries + 1 => do
    match ← get (.delivery operationId) with
    | none => return .left
    | some (current : Stored PendingDelivery) =>
      if !isOurs cfg claimId current.value then return .left
      let writes ← finalWrites lane operationId current final
      match ← transact writes with
      | .committed => return if final.status = .delivered then .delivered else .unknown
      | .conflict => finalize claimId final retries

def settle (claimId : String) (attempt : Nat) (intent : AuditReceipt) (result : DeliveryResult) :
    Method Attempted := do
  let receipt ← await (.append (resultId operationId attempt)
    (resultPayload operationId attempt intent.checkpointRoot result))
  await (.verify receipt)
  let finalNow ← trustedNow
  if maxSafeInteger < finalNow + retryMs then throw (.other "retry deadline overflow")
  match ← get (.delivery operationId) with
  | none => return .left
  | some (stored : Stored PendingDelivery) =>
    if !isOurs cfg claimId stored.value then return .left
    finalize cfg lane operationId claimId (finalOf stored.value operationId result finalNow) 3

/-- Write the intent of the attempt ahead, publish if the claim is still good, and settle. -/
def publishClaimed (item : PendingDelivery) (claimId : String) : Method Attempted := do
  let intent ← await (.append (intentId operationId (item.attempt + 1))
    (intentPayload item.operation (item.attempt + 1)))
  await (.verify intent)
  let fresh ← get (.delivery operationId)
  let beforePublish ← trustedNow
  match fresh with
  | none => return .left
  | some (stored : Stored PendingDelivery) =>
    if !isOurs cfg claimId stored.value ∨ stored.value.claimUntil.getD 0 ≤ beforePublish then
      return .left
    let result ← await (.publish item.operation (item.attempt + 1) caller)
    settle cfg lane operationId claimId (item.attempt + 1) intent result

def attempt : Method Attempted := do
  match ← get (.delivery operationId) with
  | none => throw (.other "malformed delivery record")
  | some (stored : Stored PendingDelivery) =>
    if !deliveryValid cfg.destination stored.value ∨
        stored.value.operation.operationId ≠ operationId ∨ stored.value.sourceKey ≠ lane then
      throw (.other "malformed delivery record")
    let now ← trustedNow
    if notDue stored.value now then return .passedOver
    if maxSafeInteger ≤ stored.value.attempt ∨ maxSafeInteger < now + claimMs then
      throw (.other "delivery counter or claim deadline overflow")
    match ← await (.claim operationId stored now) with
    | (.conflict, _) => return .passedOver
    | (.committed, claimId) => publishClaimed cfg caller lane operationId stored.value claimId

def Drained.count (d : Drained) : Attempted → Drained
  | .delivered => { d with delivered := d.delivered + 1 }
  | .unknown => { d with unknown := d.unknown + 1 }
  | .passedOver | .left => d

def drainEach : List Data → Nat → Drained → Method Drained
  | [], _, d => return d
  | _ :: _, 0, d => return d
  | operationId :: rest, room + 1, d => do
    match ← attempt cfg caller lane operationId with
    | .passedOver => drainEach rest (room + 1) d
    | attempted => drainEach rest room (d.count attempted)

def drain (maxOperations : Nat) : Method Drained := do
  if !isDigest lane then throw (.other "invalid source key")
  if maxOperations = 0 ∨ maxPendingDeliveries < maxOperations then
    throw (.other "invalid operation limit")
  match ← get (.queue lane) with
  | none => return ⟨0, 0, 0⟩
  | some (queue : Stored DeliveryQueue) =>
    if !queueValid queue.value ∨ queue.value.sourceKey ≠ lane then
      throw (.other "malformed delivery queue")
    let counted ← drainEach cfg caller lane queue.value.pendingOperationIds maxOperations ⟨0, 0, 0⟩
    let last ← get (.queue lane)
    return { counted with
      pending := last.elim 0 fun (q : Stored DeliveryQueue) => q.value.pendingOperationIds.length }

end Drain

/-! ## Enqueueing -/

structure OtherWrite where
  write : Write Key Record
  other : ∀ k, write.key ≠ .queue k ∧ write.key ≠ .delivery k

def planWrites (lane : Data) (queue : Option (Stored DeliveryQueue)) (planned : Plan) :
    List (Write Key Record) :=
  ⟨.queue lane, queue.map (·.version), planned.queue⟩ ::
    planned.deliveries.map fun delivery =>
    ⟨.delivery delivery.operation.operationId, none, delivery⟩

/-- Write a plan made of the queue, with other records. Some callers write a queue that stays as it
is, others do not. -/
def enqueue (cfg : Config) (lane : Data) (alerts : List AlertIntent) (nowMs : Nat)
    (others : List OtherWrite) (skip : Bool) : Method Outcome := do
  let queue ← get (.queue lane)
  let planned ← decided (planEnqueue (queue.map (·.value)) lane alerts cfg.destination nowMs
    cfg.monitorTupleDigest)
  let same := planned.deliveries.isEmpty && queue.isSome && skip
  transact (others.map (·.write) ++ if same then [] else planWrites lane queue planned)

/-! ## The scheduler -/

inductive Checked
  | unbound
  | unknown
  | committed (alerts : Nat)
  deriving DecidableEq

structure SchedulerResult where
  checked : Nat
  unbound : Nat
  alertsCreated : Nat
  delivered : Nat
  unknown : Nat
  late : Bool

def cursorSignal (cfg : Config) (lane : Data) (cursor : Cursor) (failing : Bool) (reason : String) :
    Signal where
  sourceKey := lane
  failing
  reason
  highWaters := ("producer_seq", cursor.lastSequence) ::
    (cursor.lifecycle.map fun authority => ("lifecycle_seq", authority.sequence)).toList
  monitorTupleDigest := cfg.monitorTupleDigest

def isFailing (cursor : Cursor) (now : Nat) (late : Bool) : Bool :=
  late || cursor.quarantined || cursor.sourceHealth != .healthy ||
    cursor.expectedAt.any fun expected => decide (expected ≤ now)

def failureReason (cursor : Cursor) (late : Bool) : String :=
  if late then "scheduler_late"
  else if cursor.quarantined then "quarantined"
  else if cursor.sourceHealth ≠ .healthy then cursor.sourceReason
  else "missing_source"

def decideIncident (cfg : Config) (lane : Data) (cursor : Cursor) (previous : Option Incident)
    (now : Nat) (late : Bool) : Except String IncidentDecision := do
  let decision ← evaluateIncident previous
    (cursorSignal cfg lane cursor (isFailing cursor now late) (failureReason cursor late)) now
  let escalation ← evaluateEscalation decision.incident now
  return ⟨escalation.incident, decision.alerts ++ escalation.alerts⟩

/-- The writes of a check: the cursor is written back as it was, which fences a commit in
between. -/
def checkWrites (lane : Data) (cursor : Stored Cursor) (incident : Option (Stored Incident))
    (decision : IncidentDecision) : List (Write Key Record) :=
  ⟨.source lane, some cursor.version, cursor.value⟩ ::
    (decision.incident.map fun next =>
      (⟨.incident lane, incident.map (·.version), next⟩ : Write Key Record)).toList

section Check

variable (cfg : Config) (r : Registration) (now : Nat) (late : Bool)

def planAlerts (alerts : List AlertIntent) (queue : Option (Stored DeliveryQueue)) :
    Except String (List (Write Key Record)) :=
  if alerts.isEmpty then .ok []
  else do
    let planned ← planEnqueue (queue.map (·.value)) (laneKey r) alerts cfg.destination now
      cfg.monitorTupleDigest
    return planWrites (laneKey r) queue planned

def assess : Nat → Method Checked
  | 0 => return .unknown
  | attempts + 1 => do
    match ← get (.source (laneKey r)) with
    | none => return .unbound
    | some (cursor : Stored Cursor) =>
      if (parseSourceCursor cursor.value none).isOk = false ∨ !cursorValid cursor.value r then
        return .unknown
      let incident ← get (.incident (laneKey r))
      if incident.any fun (i : Stored Incident) =>
        i.value.sourceKey != laneKey r then return .unknown
      let decision ← decided
        (decideIncident cfg (laneKey r) cursor.value (incident.map (·.value)) now late)
      match ← tryCatch (some <$> get (.queue (laneKey r))) fun _ => return none with
      | none => return .unknown
      | some queue =>
        match planAlerts cfg r now decision.alerts queue with
        | .error _ => return .unknown
        | .ok queued =>
          match ← transact (checkWrites (laneKey r) cursor incident decision ++ queued) with
          | .conflict => assess attempts
          | .committed => return .committed decision.alerts.length

/-- `check`, where the time and the lateness of the run are given. -/
def check (caller : Nat) : Method SchedulerResult := do
  match ← assess cfg r now late 8 with
  | .unbound => return ⟨1, 1, 0, 0, 0, late⟩
  | .unknown => return ⟨1, 0, 0, 0, 1, late⟩
  | .committed alerts =>
    let drained ← drain cfg caller (laneKey r) 10
    return ⟨1, 0, alerts, drained.delivered, drained.unknown, late⟩

end Check

/-! ## The world -/

inductive Happened
  | appended (operationId payload : Data) (receipt : AuditReceipt)
  | verified (receipt : AuditReceipt)
  | published (operationId : Data) (attempt caller : Nat)

structure World where
  store : Versioned Key Record := ∅
  drawn : List String := []
  trace : List Happened := []
  started : List (Nat × Versioned Key Record) := []

inductive Outside
  | done
  | uuid (value : String)
  | time (ms : Nat)
  | receipt (value : AuditReceipt)
  | result (value : DeliveryResult)
  | fails (failure : Failure)
  /-- The effect takes place and its answer is lost. -/
  | lost (outside : Outside) (failure : Failure)

def World.commit (s : World) (writes : List (Write Key Record)) : Except Failure Outcome × World :=
  match Monitor.transact s.store writes with
  | (.ok .committed, store) => (.ok .committed, { s with store })
  | (.ok .conflict, _) => (.ok .conflict, s)
  | (.error message, _) => (.error (.other message), s)

def World.claim (s : World) (operationId : Data) (stored : Stored PendingDelivery) (now : Nat)
    (claimId : String) : Except Failure (Outcome × String) × World :=
  let (told, t) :=
    s.commit [⟨.delivery operationId, some stored.version, claimed stored.value claimId now⟩]
  (told.map fun outcome => (outcome, claimId), { t with drawn := t.drawn ++ [claimId] })

def answer : (e : Effect) → Outside → World → Except Failure (Ans e) × World
  | .get k, .done, s => (.ok (s.store.get k), s)
  | .transact writes, .done, s => s.commit writes
  | .claim operationId stored now, .uuid value, s =>
    -- an identifier is never drawn twice
    if value ∈ s.drawn then (.error (.other "no answer"), s)
    else s.claim operationId stored now value
  | .now, .time ms, s => (.ok ms, s)
  | .append operationId payload, .receipt value, s =>
    (.ok value, { s with trace := s.trace ++ [.appended operationId payload value] })
  | .verify receipt, .done, s =>
    if s.trace.any fun
        | .appended _ _ known => known == receipt
        | _ => false then
      (.ok (), { s with trace := s.trace ++ [.verified receipt] })
    else (.error (.auditIntegrity "audit receipt refused"), s)
  | .publish operation attempt caller, .result value, s =>
    (.ok value, { s with trace := s.trace ++ [.published operation.operationId attempt caller] })
  | _, _, s => (.error (.other "no answer"), s)

def perform (e : Effect) : Outside → World → Except Failure (Ans e) × World
  | .fails failure, s => (.error failure, s)
  | .lost outside failure, s => (.error failure, (perform e outside s).2)
  | outside, s => answer e outside s

inductive Request
  | enqueue (lane : Data) (alerts : List AlertIntent) (nowMs : Nat) (others : List OtherWrite)
      (skip : Bool)
  | drain (caller : Nat) (lane : Data) (maxOperations : Nat)
  | check (caller : Nat) (r : Registration) (now : Nat) (late : Bool)

def Request.prog (cfg : Config) : Request → Method Unit
  | .enqueue lane alerts nowMs others skip => do
    let _ ← Outbox.enqueue cfg lane alerts nowMs others skip
    return ()
  | .drain caller lane maxOperations => do
    let _ ← Outbox.drain cfg caller lane maxOperations
    return ()
  | .check caller r now late => do
    let _ ← Outbox.check cfg r now late caller
    return ()

def Request.caller : Request → Option Nat
  | .enqueue _ _ _ _ _ => none
  | .drain caller _ _ | .check caller _ _ _ => some caller

/-- Note the start of a call, under a name that no call had. -/
def World.enter (s : World) (request : Request) : Option World :=
  match request.caller with
  | none => some s
  | some caller =>
    if s.started.any fun entry => entry.1 == caller then none
    else some { s with started := s.started ++ [(caller, s.store)] }

/-- Any number of instances, whose calls interleave at every effect and can be cut at any. -/
def machine (cfg : Config) :
    Machine Effect (fun e => Except Failure (Ans e)) Outside Request
    (Except Failure Unit) World where
  perform := perform
  prog request := (request.prog cfg).run
  enter request s := s.enter request
  leave _ _ s := s
  awaits _ := true
  droppable _ := true
  remnant e := .vis e fun _ => .pure (.ok ())
  cancels _ := true

abbrev Event : Type := TaskEvent Request Outside

def World.run (cfg : Config) (events : List Event) : World :=
  (events.foldl (Tasks.step (machine cfg)) (Tasks.initial {})).shared

end CorelinkRunners.Monitor.Outbox
