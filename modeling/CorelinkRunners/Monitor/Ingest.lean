import CorelinkRunners.Kit.Calls
import CorelinkRunners.Kit.Tasks
import CorelinkRunners.Monitor.Incidents
import CorelinkRunners.Monitor.Store

/-!
# The ingest of envelopes

`IngestService.ingest` takes an envelope through a pending record, an intent in the audit log, one
transaction that commits the envelope together with the cursor, the incident and the alerts of its
lane, and a result in the audit log, and answers with an acknowledgement. Calls are cut at any await
and resumed by another call of the same envelope; what keeps them apart are the versions under which
each of them writes.

The calls here are of any number of instances with one configuration on one store.
-/

namespace CorelinkRunners.Monitor.Ingest

open Kit

/-! ## Records -/

structure AuditReceipt where
  operationId : Data
  checkpointRoot : Data
  deriving DecidableEq

structure AckFields where
  eventId : String
  producerSeq : Nat
  payloadDigest : Data
  source : String
  service : String
  application : String
  keyId : String
  credentialEpoch : String
  monitorRearmTupleDigest : Data
  ingestCommitId : Data
  committedAt : Nat
  signerKeyId : String
  signerEpoch : String
  deriving DecidableEq

structure AckToken extends AckFields where
  signature : String

structure HistoricalTerminal where
  ack : AckToken
  terminalAt : Nat
  signerKeyId : String
  signerEpoch : String
  signature : String

inductive CommitOutcome
  | applied
  | historicalNoState

structure CommittedIngest where
  envelope : Envelope
  envelopeDigest : Data
  commitId : Data
  committedAt : Nat
  outcome : CommitOutcome
  ack : AckToken
  terminal : Option HistoricalTerminal
  intentReceipt : AuditReceipt
  resultReceipt : Option AuditReceipt

structure Pending where
  envelope : Envelope
  envelopeDigest : Data
  commitId : Data
  intentReceipt : Option AuditReceipt

/-- The pending record of a lane, or the mark that the last one is done. -/
inductive Marker
  | pending (value : Pending)
  | completed (envelopeDigest commitId : Data)

structure Quarantine where
  reason : String
  eventId : String

inductive Key
  | source (lane : Data)
  | quarantine (lane : Data)
  | pending (lane : Data)
  | ingest (lane eventDigest : Data)
  | incident (lane : Data)
  | queue (lane : Data)
  | delivery (operationId : Data)
  deriving DecidableEq

abbrev Record : Key → Type
  | .source _ => Cursor
  | .quarantine _ => Quarantine
  | .pending _ => Marker
  | .ingest _ _ => CommittedIngest
  | .incident _ => Incident
  | .queue _ => DeliveryQueue
  | .delivery _ => PendingDelivery

def ingestKey (lane : Data) (eventId : String) : Key := .ingest lane (.hash (.text eventId))

inductive IngestResult
  | ack (body : AckToken ⊕ HistoricalTerminal)
  | recoveryRequired (commit : CommittedIngest)
  | retry (reason : String)
  | quarantined (reason : String)
  | rejected (reason : String)
  | unknown (reason : String)

structure Config where
  registrations : List Registration
  monitorTupleDigest : Data
  destination : String
  hmac : Hmac
  verify : Verifier

/-! ## Effects -/

inductive Effect
  | get (k : Key)
  | transact (writes : List (Write Key Record))
  | load (r : Registration)
  | now
  | append (operationId payload : Data)
  | verify (receipt : AuditReceipt)
  | resolveIngestSigner (nowMs : Nat)
  | isIngestSignerCurrent (identity : PublicSigningIdentity) (nowMs : Nat)
  | sign (identity : PublicSigningIdentity) (bytes : Data)

abbrev Ans : Effect → Type
  | .get k => Option (Stored (Record k))
  | .transact _ => Outcome
  | .load _ => String
  | .now => Nat
  | .append _ _ => AuditReceipt
  | .verify _ => Unit
  | .resolveIngestSigner _ => PublicSigningIdentity
  | .isIngestSignerCurrent _ _ => Bool
  | .sign _ _ => String

abbrev Method (A : Type) : Type := Kit.Call Effect Ans Failure A

def await (e : Effect) : Method (Ans e) := Call.await e

def get (k : Key) : Method (Option (Stored (Record k))) := await (.get k)

def transact (writes : List (Write Key Record)) : Method Outcome := await (.transact writes)

def decided {A : Type} (x : Except String A) : Method A :=
  Call.ofExcept (x.mapError .other)

/-! ## Acknowledgements -/

def isShort (max : Nat) (s : String) : Bool := s != "" && decide (Text.utf16Len s.toList ≤ max)

def validIdentity (identity : PublicSigningIdentity) : Bool :=
  isShort 256 identity.keyId && isShort 256 identity.epoch && isShort 8192 identity.publicKeySpkiPem

def validAckFields (a : AckFields) : Bool :=
  isShort 256 a.eventId && isPositive a.producerSeq && isDigest a.payloadDigest &&
    isShort 256 a.source && isShort 256 a.service && isShort 256 a.application &&
    isShort 256 a.keyId && isShort 256 a.credentialEpoch &&
    isDigest a.monitorRearmTupleDigest && isDigest a.ingestCommitId &&
    isPositive a.committedAt && isShort 256 a.signerKeyId && isShort 256 a.signerEpoch

/-- `canonicalAckPayload`. -/
def AckFields.data (a : AckFields) : List Data :=
  [.text "1", .text a.eventId, .number a.producerSeq, a.payloadDigest, .text a.source,
    .text a.service, .text a.application, .text a.keyId, .text a.credentialEpoch,
    a.monitorRearmTupleDigest, a.ingestCommitId, .number a.committedAt, .text a.signerKeyId,
    .text a.signerEpoch]

def ackFields (e : Envelope) (commitId : Data) (committedAt : Nat)
    (signer : PublicSigningIdentity) : AckFields :=
  ⟨e.eventId, e.producerSeq, e.payloadDigest, e.source, e.service, e.application, e.keyId,
    e.credentialEpoch, e.monitorRearmTupleDigest, commitId, committedAt, signer.keyId, signer.epoch⟩

def isBase64Url (s : String) : Bool :=
  s != "" && s.toList.all fun c => c.isAlphanum || c == '_' || c == '-'

def createAck (fields : AckFields) (signer : PublicSigningIdentity) : Method AckToken := do
  if !validAckFields fields ∨ !validIdentity signer ∨ signer.role ≠ .ingestAck ∨
      fields.signerKeyId ≠ signer.keyId ∨ fields.signerEpoch ≠ signer.epoch then
    throw (.other "invalid ACK or signer identity")
  let signature ← await (.sign signer (.list fields.data))
  if !isBase64Url signature then throw (.other "invalid signer output")
  return { fields with signature }

def verifyAck (verify : Verifier) (token : AckToken) (expected : AckFields)
    (identity : PublicSigningIdentity) : Bool :=
  validAckFields expected && validAckFields token.toAckFields && identity.role == .ingestAck &&
    token.signerKeyId == identity.keyId && token.signerEpoch == identity.epoch &&
    token.toAckFields == expected && verify (.list token.data) token.signature identity

def ackDigest (ack : AckToken) : Data := .hash (.list (ack.data ++ [.text ack.signature]))

/-- `canonicalHistoricalTerminalPayload`. -/
def HistoricalTerminal.data (t : HistoricalTerminal) : Data :=
  .list [.text "1", .text "HISTORICAL_NO_STATE", ackDigest t.ack, .number t.terminalAt,
    .text t.signerKeyId, .text t.signerEpoch]

def createHistoricalTerminal (verify : Verifier) (ack : AckToken) (signer : PublicSigningIdentity) :
    Method HistoricalTerminal := do
  if !verifyAck verify ack ack.toAckFields signer then
    throw (.other "invalid ACK or signer identity")
  let unsigned : HistoricalTerminal := ⟨ack, ack.committedAt, signer.keyId, signer.epoch, ""⟩
  let signature ← await (.sign signer unsigned.data)
  if !isBase64Url signature ∨ !verify unsigned.data signature signer then
    throw (.other "invalid signer output")
  return { unsigned with signature }

def verifyHistoricalTerminal (verify : Verifier) (t : HistoricalTerminal) (expected : AckFields)
    (identity : PublicSigningIdentity) : Bool :=
  isPositive t.terminalAt && isShort 256 t.signerKeyId && isShort 256 t.signerEpoch &&
    t.terminalAt == t.ack.committedAt && t.signerKeyId == identity.keyId &&
    t.signerEpoch == identity.epoch && verifyAck verify t.ack expected identity &&
    verify t.data t.signature identity

/-! ## What a commit writes -/

section Commit

variable (cfg : Config) (lane : Data) (r : Registration) (e : Envelope)

def commitIdOf : Data := .hash (.list [lane, .text e.eventId, e.digest])

def isPeriodic : Bool :=
  e.kind == .canaryTick || e.kind == .canaryConfigInvalid || e.kind == .canaryLifecycle

def isLate (fresh : Nat) : Bool :=
  decide (e.occurredAt + 60000 < fresh) || decide (e.scheduledFor + 120000 < fresh)

def isStale (fresh : Nat) : Bool := isPeriodic e && isLate e fresh

/-- The cursor after the envelope: a stale one only counts. -/
def nextCursor (previous : Option Cursor) (decision : Option LifecycleDecision) (fresh : Nat) :
    Cursor :=
  match isStale e fresh, previous with
  | true, some previous =>
    { previous with lastSequence := e.producerSeq, lastEnvelopeDigest := e.digest }
  | stale, previous =>
    { source := r.source, service := r.service, application := r.application, keyId := r.keyId
      credentialEpoch := r.credentialEpoch, lastSequence := e.producerSeq
      lastEnvelopeDigest := e.digest, lastOccurredAt := e.occurredAt
      lastScheduledFor := e.scheduledFor
      firstAcceptedAt := (previous.map (·.firstAcceptedAt)).getD fresh, lastAcceptedAt := fresh
      expectedAt := if r.intervalMs = some 300000 then some (e.scheduledFor + 300000) else none
      quarantined := false, lifecycle := decision.map (·.authority)
      lastLifecycleNonce := decision.map (·.nonce)
      sourceHealth :=
        if stale then .unknown
        else (decision.map (·.status)).getD (if e.kind = .breakerOpen then .failed else .healthy)
      sourceReason :=
        if isLate e fresh then "producer_late"
        else (decision.map (·.reason)).getD (if e.kind = .breakerOpen then "breaker_open"
          else "healthy") }

def commitSignal (decision : Option LifecycleDecision) (fresh : Nat) : Signal where
  sourceKey := laneKey r
  failing := isStale e fresh || e.kind == .canaryConfigInvalid || e.kind == .breakerOpen ||
    decision.any (·.status != .healthy)
  reason :=
    if isLate e fresh then "producer_late"
    else (decision.map (·.reason)).getD
      (if e.kind = .canaryConfigInvalid then "config_invalid"
       else if e.kind = .breakerOpen then "breaker_open" else "healthy")
  highWaters := ("producer", e.producerSeq) ::
    (decision.map fun d => ("lifecycle", d.authority.sequence)).toList
  monitorTupleDigest := cfg.monitorTupleDigest

def refusalSignal (reason : String) : Signal :=
  ⟨laneKey r, true, reason, [("producer", e.producerSeq)], cfg.monitorTupleDigest⟩

def incidentWrites (incident : Option (Stored Incident)) (decision : IncidentDecision)
    (queue : Option (Stored DeliveryQueue)) (planned : Plan) : List (Write Key Record) :=
  (decision.incident.map fun next =>
      (⟨.incident (laneKey r), incident.map (·.version), next⟩ : Write Key Record)).toList ++
    (if planned.deliveries ≠ [] ∨ queue.isNone then
      [⟨.queue (laneKey r), queue.map (·.version), planned.queue⟩] else []) ++
    planned.deliveries.map fun delivery =>
      ⟨.delivery delivery.operation.operationId, none, delivery⟩

def commitWrites (source : Option (Stored Cursor)) (marker : Option (Stored Marker)) (next : Cursor)
    (record : CommittedIngest) : List (Write Key Record) :=
  [⟨ingestKey (laneKey r) e.eventId, none, record⟩,
    ⟨.source (laneKey r), source.map (·.version), next⟩,
    ⟨.pending (laneKey r), marker.map (·.version), .completed e.digest (commitIdOf (laneKey r) e)⟩]

def intentId : Data := .list [.text "ingest:", commitIdOf lane e, .text ":intent"]

def resultId : Data := .list [.text "ingest:", commitIdOf lane e, .text ":result"]

def intentPayload : Data :=
  .list [.text "WRITE_AHEAD_INTENT", commitIdOf lane e, e.data, e.digest]

def CommitOutcome.name : CommitOutcome → String
  | .applied => "APPLIED"
  | .historicalNoState => "HISTORICAL_NO_STATE"

def resultPayload (ack : AckToken) (outcome : CommitOutcome) : Data :=
  .list [.text "WRITE_AHEAD_RESULT", commitIdOf lane e, e.digest, ackDigest ack,
    .text (CommitOutcome.name outcome)]

end Commit

/-! ## Methods -/

section Methods

variable (cfg : Config) (e : Envelope) (r : Registration)

def refusalWrites (reason : String) (now : Nat) : Method (List (Write Key Record)) := do
  let incident ← get (.incident (laneKey r))
  let decision ← decided
    (evaluateIncident (incident.map (·.value)) (refusalSignal cfg r e reason) now)
  let queue ← get (.queue (laneKey r))
  let planned ← decided
    (planEnqueue (queue.map (·.value)) (laneKey r) decision.alerts cfg.destination now
    cfg.monitorTupleDigest)
  return incidentWrites r incident decision queue planned

def recordQuarantine (reason : String) : Method Bool := do
  let now ← await .now
  if !isPositive now then return false
  let writes ← refusalWrites cfg e r reason now
  let outcome ← tryCatch
    (some <$> transact (⟨.quarantine (laneKey r), none, ⟨reason, e.eventId⟩⟩ :: writes))
    fun _ => return none
  return outcome == some .committed

def recordSignal (reason : String) : Method Bool := do
  let now ← await .now
  if !isPositive now then return false
  let writes ← refusalWrites cfg e r reason now
  if writes.isEmpty then return true
  return (← transact writes) == .committed

def isCommitOf (value : CommittedIngest) : Bool :=
  value.envelopeDigest == e.digest && value.envelope.eventId == e.eventId

def committed : Method (Option CommittedIngest) := do
  match ← get (ingestKey (laneKey r) e.eventId) with
  | none => return none
  | some (stored : Stored CommittedIngest) =>
    if !isCommitOf e stored.value then return none
    await (.verify stored.value.intentReceipt)
    match stored.value.resultReceipt with
    | some receipt =>
      await (.verify receipt)
      return some stored.value
    | none =>
      let receipt ← await (.append (resultId (laneKey r) e)
        (resultPayload (laneKey r) e stored.value.ack stored.value.outcome))
      await (.verify receipt)
      let completed := { stored.value with resultReceipt := some receipt }
      match ← transact [⟨ingestKey (laneKey r) e.eventId, some stored.version, completed⟩] with
      | .committed => return some completed
      | .conflict => throw (.other "result_attach_conflict")

def ackBody (ack : AckToken) (terminal : Option HistoricalTerminal) :
    AckToken ⊕ HistoricalTerminal :=
  terminal.elim (.inl ack) .inr

def acknowledge (old : CommittedIngest) : Method IngestResult := do
  let now ← await .now
  let signer ← await (.resolveIngestSigner now)
  let expected := ackFields old.envelope old.commitId old.committedAt signer
  if old.ack.signerKeyId ≠ signer.keyId ∨ old.ack.signerEpoch ≠ signer.epoch ∨
      !verifyAck cfg.verify old.ack expected signer ∨
      old.terminal.any (fun t => !verifyHistoricalTerminal cfg.verify t expected signer) then
    return .recoveryRequired old
  if !(← await (.isIngestSignerCurrent signer now)) then return .recoveryRequired old
  return .ack (ackBody old.ack old.terminal)

def quarantineLane (reason : String) : Method IngestResult := do
  match ← transact [⟨.quarantine (laneKey r), none, ⟨reason, e.eventId⟩⟩] with
  | .committed => return .quarantined reason
  | .conflict => return .unknown "quarantine_conflict"

def attachResult (record : CommittedIngest) : Method IngestResult := do
  let receipt ← await (.append (resultId (laneKey r) e)
    (resultPayload (laneKey r) e record.ack record.outcome))
  await (.verify receipt)
  match ← get (ingestKey (laneKey r) e.eventId) with
  | none => return .unknown "commit_missing"
  | some (final : Stored CommittedIngest) =>
    match ← transact [⟨ingestKey (laneKey r) e.eventId, some final.version,
        ({ final.value with resultReceipt := some receipt } : CommittedIngest)⟩] with
    | .conflict => return .unknown "result_attach_conflict"
    | .committed => return .ack (ackBody record.ack record.terminal)

def terminalFor (ack : AckToken) (signer : PublicSigningIdentity) (fresh : Nat) :
    Method (Option HistoricalTerminal) :=
  if isStale e fresh then some <$> createHistoricalTerminal cfg.verify ack signer else pure none

def commit (source : Option (Stored Cursor)) (intent : AuditReceipt) (fresh : Nat)
    (decision : Option LifecycleDecision) : Method IngestResult := do
  let signer ← await (.resolveIngestSigner fresh)
  if !(← await (.isIngestSignerCurrent signer fresh)) then
    return .unknown "ingest_signer_unavailable"
  let ack ← createAck (ackFields e (commitIdOf (laneKey r) e) fresh signer) signer
  let terminal ← terminalFor cfg e ack signer fresh
  let incident ← get (.incident (laneKey r))
  let incidentDecision ← decided (evaluateIncident (incident.map (·.value))
    (commitSignal cfg r e decision fresh) fresh)
  let queue ← get (.queue (laneKey r))
  let planned ← decided (planEnqueue (queue.map (·.value)) (laneKey r) incidentDecision.alerts
    cfg.destination fresh cfg.monitorTupleDigest)
  let record : CommittedIngest :=
    { envelope := e, envelopeDigest := e.digest, commitId := commitIdOf (laneKey r) e,
      committedAt := fresh
      outcome := if isStale e fresh then .historicalNoState else .applied
      ack, terminal, intentReceipt := intent, resultReceipt := none }
  let marker ← get (.pending (laneKey r))
  let next := nextCursor r e (source.map (·.value)) decision fresh
  match ← transact (commitWrites r e source marker next record ++
      incidentWrites r incident incidentDecision queue planned) with
  | .conflict => return .retry "state_conflict"
  | .committed => attachResult e r record

/-- What a lifecycle envelope says, after the cursor of its lane. -/
def lifecycleDecision (source : Option Cursor) (fresh : Nat) : Except String LifecycleDecision :=
  match e.payload with
  | none => .error "Cannot read properties of undefined (reading 'source_id')"
  | some payload =>
    classifyLifecycle payload r (source.bind (·.lifecycle))
      (source.bind (·.lastLifecycleNonce)) fresh

/-- Classify a lifecycle envelope at a fresh time, and commit. -/
def classify (source : Option (Stored Cursor)) (intent : AuditReceipt) : Method IngestResult := do
  let fresh ← await .now
  if !isPositive fresh then return .unknown "trusted_time_unavailable"
  if e.kind ≠ .canaryLifecycle then commit cfg e r source intent fresh none
  else
    match lifecycleDecision e r (source.map (·.value)) fresh with
    | .ok decision => commit cfg e r source intent fresh (some decision)
    | .error reason =>
      if ← recordQuarantine cfg e r reason then return .quarantined "lifecycle_refused"
      return .unknown "quarantine_unavailable"

/-- Write the intent to the audit log and attach it to the pending record. -/
def writeIntent (source : Option (Stored Cursor)) (version : Nat) : Method IngestResult := do
  let receipt ← await (.append (intentId (laneKey r) e) (intentPayload (laneKey r) e))
  await (.verify receipt)
  match ← transact [⟨.pending (laneKey r), some version,
      .pending ⟨e, e.digest, commitIdOf (laneKey r) e, some receipt⟩⟩] with
  | .conflict => return .retry "intent_attach_conflict"
  | .committed => classify cfg e r source receipt

/-- Reserve the lane for the envelope, or go on with what was reserved for it. -/
def reserve (source : Option (Stored Cursor)) : Method IngestResult := do
  let stored ← get (.pending (laneKey r))
  match stored with
  | some ⟨version, .pending active⟩ =>
    if active.commitId ≠ commitIdOf (laneKey r) e ∨ active.envelopeDigest ≠ e.digest then
      return .retry "pending_commit"
    match active.intentReceipt with
    | some intent => classify cfg e r source intent
    | none => writeIntent cfg e r source version
  | stored =>
    match ← transact [⟨.pending (laneKey r), stored.map (·.version),
        .pending ⟨e, e.digest, commitIdOf (laneKey r) e, none⟩⟩] with
    | .conflict => return .retry "pending_conflict"
    | .committed =>
      match ← get (.pending (laneKey r)) with
      | none => throw (.other "Cannot read properties of null (reading 'version')")
      | some (mine : Stored Marker) => writeIntent cfg e r source mine.version

/-- Check an envelope that is not committed against the clock and the cursor of its lane. -/
def ingestNew : Method IngestResult := do
  let now ← await .now
  if !isPositive now then return .unknown "trusted_time_unavailable"
  let source ← get (.source (laneKey r))
  if now < e.occurredAt ∨ now < e.scheduledFor then
    if source.isSome then
      if !(← recordSignal cfg e r "future_envelope") then
        return .unknown "future_signal_unavailable"
    return .retry "future_envelope"
  if source.any fun s => !cursorReadable s.value r then quarantineLane e r "invalid_cursor"
  else if source.any fun s => e.producerSeq != s.value.lastSequence + 1 then
    quarantineLane e r "sequence_not_next"
  else reserve cfg e r source

def ingestAuthentic : Method IngestResult := do
  if (← get (.quarantine (laneKey r))).isSome then return .quarantined "lane_quarantined"
  match ← committed e r with
  | some old => acknowledge cfg old
  | none => ingestNew cfg e r

def caught : Failure → IngestResult
  | .auditBusy message => .retry message
  | .auditIntegrity message | .witnessInput message | .witnessFork message | .witnessBusy message
  | .other message => .unknown message
  | .scanning => .unknown "ingest_failed"

def ingest : Method IngestResult := do
  if !parseEnvelope e then return .rejected "invalid_envelope"
  match exactRegistration e cfg.registrations with
  | none => return .rejected "unknown_registration"
  | some r =>
    match ← tryCatch (some <$> await (.load r)) fun _ => return none with
    | none => return .unknown "secret_unavailable"
    | some secret =>
      if !authenticateEnvelope cfg.hmac e r secret then
        if ← recordQuarantine cfg e r "authentication_failed" then
          return .quarantined "authentication_failed"
        return .unknown "quarantine_unavailable"
      tryCatch (ingestAuthentic cfg e r) fun failure => return caught failure

end Methods

/-! ## The world -/

structure Entry where
  operationId : Data
  payload : Data
  receipt : AuditReceipt

structure World where
  store : Versioned Key Record := ∅
  audit : List Entry := []
  /-- The transactions that were committed. -/
  log : List (List (Write Key Record)) := []
  times : List Nat := []
  answers : List (Envelope × IngestResult) := []

inductive Outside
  | done
  | secret (value : String)
  | time (ms : Nat)
  | receipt (value : AuditReceipt)
  | signer (identity : PublicSigningIdentity)
  | current (value : Bool)
  | signature (value : String)
  | fails (failure : Failure)
  /-- The effect takes place and its answer is lost. -/
  | lost (outside : Outside) (failure : Failure)

def World.commit (s : World) (writes : List (Write Key Record)) : Except Failure Outcome × World :=
  match Monitor.transact s.store writes with
  | (.ok .committed, store) => (.ok .committed, { s with store, log := s.log ++ [writes] })
  | (.ok .conflict, _) => (.ok .conflict, s)
  | (.error message, _) => (.error (.other message), s)

def answer : (e : Effect) → Outside → World → Except Failure (Ans e) × World
  | .get k, .done, s => (.ok (s.store.get k), s)
  | .transact writes, .done, s => s.commit writes
  | .load _, .secret value, s => (.ok value, s)
  | .now, .time ms, s => (.ok ms, { s with times := s.times ++ [ms] })
  | .append operationId payload, .receipt value, s =>
    (.ok value, { s with audit := s.audit ++ [⟨operationId, payload, value⟩] })
  | .verify receipt, .done, s =>
    (if s.audit.any fun entry => entry.receipt == receipt then .ok ()
      else .error (.auditIntegrity "audit receipt refused"), s)
  | .resolveIngestSigner _, .signer identity, s => (.ok identity, s)
  | .isIngestSignerCurrent _ _, .current value, s => (.ok value, s)
  | .sign _ _, .signature value, s => (.ok value, s)
  | _, _, s => (.error (.other "no answer"), s)

def perform (e : Effect) : Outside → World → Except Failure (Ans e) × World
  | .fails failure, s => (.error failure, s)
  | .lost outside failure, s => (.error failure, (perform e outside s).2)
  | outside, s => answer e outside s

/-- A call of `ingest` and what it answers; nobody hears the rest of a call that was cut. -/
abbrev Reply : Type := Option (Except Failure IngestResult)

/-- Any number of instances, whose calls interleave at every effect and can be cut at any. -/
def machine (cfg : Config) :
    Machine Effect (fun e => Except Failure (Ans e)) Outside Envelope Reply World where
  perform := perform
  prog e := (ingest cfg e).run.map some
  enter _ s := some s
  leave e reply s :=
    match reply with
    | some (.ok result) => { s with answers := s.answers ++ [(e, result)] }
    | _ => s
  awaits _ := true
  droppable _ := true
  remnant e := .vis e fun _ => .pure none
  cancels _ := true

abbrev Event : Type := TaskEvent Envelope Outside

def World.run (cfg : Config) (events : List Event) : World :=
  (events.foldl (Tasks.step (machine cfg)) (Tasks.initial {})).shared

def commitOf (lane : Data) : List (Write Key Record) → Option CommittedIngest
  | ⟨.ingest l _, none, record⟩ :: _ => if l = lane then some record else none
  | _ => none

def World.commits (s : World) (lane : Data) : List CommittedIngest :=
    s.log.filterMap (commitOf lane)

/-! ## What an effect does -/

theorem World.commit_cases (s : World) (writes : List (Write Key Record)) :
    (s.store.Committed writes (s.commit writes).2.store ∧
        (s.commit writes).2 =
          { s with store := writes.foldl Versioned.put s.store, log := s.log ++ [writes] }) ∨
      (s.commit writes).1 ≠ .ok .committed ∧ (s.commit writes).2 = s := by
  have whole := transact_cases s.store writes
  have replays := transact_replays s.store writes
  unfold World.commit
  split
  next store told =>
    rw [told] at whole replays
    left
    rcases whole with ⟨-, committed⟩ | ⟨refused, -⟩
    · exact ⟨committed, by rw [← replays rfl]⟩
    · exact absurd rfl refused
  · exact .inr ⟨nofun, rfl⟩
  · exact .inr ⟨nofun, rfl⟩

/-- **An effect that changes the store is a transaction**, and goes into its history. -/
theorem perform_cases (e : Effect) (env : Outside) (s : World) :
    ((perform e env s).2.store = s.store ∧ (perform e env s).2.log = s.log) ∨
      ∃ writes, e = .transact writes ∧ s.store.Committed writes (perform e env s).2.store ∧
        (perform e env s).2.log = s.log ++ [writes] := by
  induction env with
  | fails failure => exact .inl ⟨rfl, rfl⟩
  | lost outside failure ih => exact ih
  | done =>
    cases e with
    | transact writes =>
      rcases s.commit_cases writes with ⟨committed, same⟩ | ⟨-, same⟩
      · exact .inr ⟨writes, rfl, committed, congrArg World.log same⟩
      · exact .inl ⟨congrArg World.store same, congrArg World.log same⟩
    | _ => exact .inl ⟨rfl, rfl⟩
  | _ => cases e <;> exact .inl ⟨rfl, rfl⟩

theorem perform_get {k : Key} {env : Outside} {s : World} {x : Option (Stored (Record k))}
    (told : (perform (.get k) env s).1 = .ok x) : x = s.store.get k := by
  cases env with
  | done => exact (Except.ok.inj told).symm
  | _ => nomatch told

end CorelinkRunners.Monitor.Ingest
