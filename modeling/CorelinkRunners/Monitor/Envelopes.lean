import CorelinkRunners.Monitor.Audit

/-!
# Envelopes, registrations and source cursors

What a producer sends to the monitor, how the monitor knows it, and the cursor that is kept of each
lane: the fields of `types.ts` with their checks, and the second check of a cursor that the
scheduler makes on its own.

An input that is not an object with exactly the fields of an envelope is no value of the types here.
Numbers are natural numbers, checked where the source checks that they are safe integers.
-/

namespace CorelinkRunners.Monitor

open Kit

/-! ## Records -/

inductive Kind
  | canaryTick
  | canaryConfigInvalid
  | canaryLifecycle
  | attemptReserved
  | breakerOpen
  | breakerClosed
  deriving DecidableEq

def Kind.name : Kind → String
  | .canaryTick => "canary-tick"
  | .canaryConfigInvalid => "CANARY_CONFIG_INVALID"
  | .canaryLifecycle => "canary-lifecycle"
  | .attemptReserved => "ATTEMPT_RESERVED"
  | .breakerOpen => "BREAKER_OPEN"
  | .breakerClosed => "BREAKER_CLOSED"

def Kind.isLifecycle : Kind → Bool
  | .canaryLifecycle | .attemptReserved | .breakerOpen | .breakerClosed => true
  | .canaryTick | .canaryConfigInvalid => false

inductive Health
  | healthy
  | failed
  | unknown
  deriving DecidableEq

def Health.name : Health → String
  | .healthy => "healthy"
  | .failed => "failed"
  | .unknown => "unknown"

structure LifecyclePayload where
  sourceId : String
  monotonicSeq : Nat
  transitionId : String
  state : Health
  transitionAt : Nat
  sourceVersion : String
  sampledAt : Nat
  nonce : String

structure Envelope where
  kind : Kind
  source : String
  service : String
  application : String
  eventId : String
  producerSeq : Nat
  occurredAt : Nat
  scheduledFor : Nat
  keyId : String
  credentialEpoch : String
  payloadDigest : Data
  monitorRearmTupleDigest : Data
  payload : Option LifecyclePayload
  signature : String

structure Registration where
  source : String
  service : String
  application : String
  keyId : String
  credentialEpoch : String
  allowedKinds : List Kind
  intervalMs : Option Nat
  sourceVersion : String
  authoritySourceId : Option String
  enabled : Bool

/-- What is known of the authority behind a lifecycle source. -/
structure LifecycleAuthority where
  sourceId : String
  sequence : Nat
  transitionId : String
  state : Health
  transitionAt : Nat
  sourceVersion : String
  deriving DecidableEq

structure Cursor where
  source : String
  service : String
  application : String
  keyId : String
  credentialEpoch : String
  lastSequence : Nat
  lastEnvelopeDigest : Data
  lastOccurredAt : Nat
  lastScheduledFor : Nat
  firstAcceptedAt : Nat
  lastAcceptedAt : Nat
  expectedAt : Option Nat
  quarantined : Bool
  lifecycle : Option LifecycleAuthority
  lastLifecycleNonce : Option String
  sourceHealth : Health
  sourceReason : String

/-! ## Serializations -/

def LifecyclePayload.data (p : LifecyclePayload) : Data :=
  .list [.text p.sourceId, .number p.monotonicSeq, .text p.transitionId, .text p.state.name,
    .number p.transitionAt, .text p.sourceVersion, .number p.sampledAt, .text p.nonce]

def Envelope.signed (e : Envelope) : List Data :=
  [.text e.kind.name, .text e.source, .text e.service, .text e.application, .text e.eventId,
    .number e.producerSeq, .number e.occurredAt, .number e.scheduledFor, .text "1", .text e.keyId,
    .text e.credentialEpoch, e.payloadDigest, e.monitorRearmTupleDigest] ++
    e.payload.toList.map (·.data)

def Envelope.data (e : Envelope) : Data := .list (e.signed ++ [.text e.signature])

def Envelope.digest (e : Envelope) : Data := .hash e.data

def laneKey (r : Registration) : Data :=
  .hash (.list [.text r.source, .text r.service, .text r.application])

/-! ## Checks -/

/-- `ID`: printable characters of ASCII other than the space. -/
def isId (s : String) : Bool :=
  decide (1 ≤ s.toList.length) && decide (s.toList.length ≤ 256) &&
    s.toList.all fun c => decide ('!' ≤ c) && decide (c ≤ '~')

def isNonnegative (n : Nat) : Bool := decide (n ≤ maxSafeInteger)

/-- The white space that `trim` removes. -/
def isSpace (c : Char) : Bool :=
  let n := c.toNat
  (0x09 ≤ n && n ≤ 0x0D) || n == 0x20 || n == 0xA0 || n == 0x1680 || (0x2000 ≤ n && n ≤ 0x200A) ||
    n == 0x2028 || n == 0x2029 || n == 0x202F || n == 0x205F || n == 0x3000 || n == 0xFEFF

def isTrimmed (s : String) : Bool :=
  (s.toList.head?.all fun c => !isSpace c) && s.toList.getLast?.all fun c => !isSpace c

def isLabel (s : String) : Bool :=
  s != "" && decide (Text.utf16Len s.toList ≤ 256) && isTrimmed s

def validPayload (p : LifecyclePayload) : Bool :=
  isId p.sourceId && isPositive p.monotonicSeq && isId p.transitionId &&
    isNonnegative p.transitionAt &&
    isId p.sourceVersion && isNonnegative p.sampledAt && isId p.nonce

def fieldsValid (e : Envelope) : Bool :=
  isId e.source && isId e.service && isId e.application && isId e.eventId &&
    isPositive e.producerSeq &&
    isNonnegative e.occurredAt && isNonnegative e.scheduledFor && isId e.keyId &&
    isId e.credentialEpoch && isDigest e.payloadDigest && isDigest e.monitorRearmTupleDigest &&
    e.signature != "" && isHex e.signature && e.signature.toList.length % 2 == 0

def payloadDigestFor (e : Envelope) : Data :=
  match e.payload with
  | some payload => .hash payload.data
  | none => .hash (.list [.text e.kind.name, .number e.producerSeq, .number e.occurredAt,
      .number e.scheduledFor, .text "1"])

/-- `parseEnvelope` of an input that has the fields of an envelope. -/
def parseEnvelope (e : Envelope) : Bool :=
  e.payload.isSome == e.kind.isLifecycle && fieldsValid e && e.payload.all validPayload &&
    e.payloadDigest == payloadDigestFor e

def exactRegistration (e : Envelope) (registrations : List Registration) : Option Registration :=
  registrations.find? fun r => r.enabled && r.source == e.source && r.service == e.service &&
    r.application == e.application && r.keyId == e.keyId &&
    r.credentialEpoch == e.credentialEpoch && r.allowedKinds.contains e.kind

abbrev Hmac : Type := String → Data → String

def authenticateEnvelope (hmac : Hmac) (e : Envelope) (r : Registration) (secret : String) : Bool :=
  r.enabled && e.source == r.source && e.service == r.service && e.application == r.application &&
    e.keyId == r.keyId && e.credentialEpoch == r.credentialEpoch &&
    r.allowedKinds.contains e.kind &&
    decide (32 ≤ secret.utf8ByteSize) && e.signature == hmac secret (.list e.signed)

/-! ## Cursors -/

def validAuthority (a : LifecycleAuthority) : Bool :=
  isId a.sourceId && isPositive a.sequence && isId a.transitionId && isNonnegative a.transitionAt &&
    isId a.sourceVersion

/-- `lastScheduledFor + intervalMs` is what is expected next. -/
def scheduleValid (r : Registration) (c : Cursor) : Bool :=
  match r.intervalMs with
  | none => c.expectedAt == none
  | some interval =>
    decide (c.lastScheduledFor + interval ≤ maxSafeInteger) &&
      c.expectedAt == some (c.lastScheduledFor + interval)

def parseSourceCursor (c : Cursor) (registration : Option Registration) : Except String Cursor := do
  unless isId c.source && isId c.service && isId c.application && isId c.keyId &&
      isId c.credentialEpoch && isPositive c.lastSequence && isDigest c.lastEnvelopeDigest &&
      isNonnegative c.lastOccurredAt && isNonnegative c.lastScheduledFor &&
      isNonnegative c.firstAcceptedAt && isNonnegative c.lastAcceptedAt &&
      decide (c.firstAcceptedAt ≤ c.lastAcceptedAt) && c.expectedAt.all isNonnegative &&
      c.lifecycle.all validAuthority && c.lifecycle.isNone == c.lastLifecycleNonce.isNone &&
      isId c.sourceReason do
    throw "invalid source cursor"
  match registration with
  | none => return c
  | some r =>
    let lifecycleRegistration := r.allowedKinds == [.canaryLifecycle]
    unless c.source == r.source && c.service == r.service && c.application == r.application &&
        (lifecycleRegistration || (c.lifecycle.isNone && c.lastLifecycleNonce.isNone)) &&
        !(lifecycleRegistration && c.sourceHealth == .healthy &&
          (c.lifecycle.isNone || c.lastLifecycleNonce.isNone)) &&
        c.lifecycle.all (fun a => r.authoritySourceId == some a.sourceId &&
          a.sourceVersion == r.sourceVersion) &&
        scheduleValid r c do
      throw "cursor scope mismatch"
    return c

/-- `cursorValid` of the ingest. -/
def cursorReadable (c : Cursor) (r : Registration) : Bool :=
  match parseSourceCursor c (some r) with
  | .ok _ => true
  | .error _ => false

/-- `cursorValid` of the scheduler. -/
def cursorValid (c : Cursor) (r : Registration) : Bool :=
  c.source == r.source && c.service == r.service && c.application == r.application &&
    isPositive c.lastSequence && isPositive c.lastOccurredAt && isPositive c.lastScheduledFor &&
    isPositive c.firstAcceptedAt && isPositive c.lastAcceptedAt &&
    decide (c.firstAcceptedAt ≤ c.lastAcceptedAt) &&
      decide (c.lastScheduledFor ≤ c.lastOccurredAt) &&
    decide (c.lastOccurredAt ≤ c.lastAcceptedAt) && isDigest c.lastEnvelopeDigest &&
    isLabel c.sourceReason && c.expectedAt.all isPositive && c.lastLifecycleNonce.all isLabel &&
    c.lifecycle.all (fun a => isLabel a.sourceId && isPositive a.sequence &&
      isLabel a.transitionId && isPositive a.transitionAt && isLabel a.sourceVersion &&
      r.authoritySourceId == some a.sourceId && r.sourceVersion == a.sourceVersion) &&
    scheduleValid r c &&
    !(r.intervalMs == some 60000 && c.sourceHealth == .healthy &&
      (c.lifecycle.isNone || c.lastLifecycleNonce.isNone))

end CorelinkRunners.Monitor
