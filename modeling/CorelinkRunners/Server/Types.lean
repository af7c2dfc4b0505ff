import CorelinkRunners.Billing.Meter
import CorelinkRunners.Envelope.Hook
import CorelinkRunners.Ledger.InMemory
import CorelinkRunners.Pg.Queue
import CorelinkRunners.Scheduler.Tick

/-!
# Requests, answers and the outside of a server

What the handlers of a server process take and give, with their texts; its configuration; and what
the outside decides about one effect of a handler (`Outside`): the clock, which dependency fails,
what the provider, the mint and the plan source answer.

How a container spec is checked, how `serde_json` writes the metrics, and what plan a tenant has are
not modelled: they are functions of the configuration or answers of the outside, and every result
holds whatever they are.
-/

namespace CorelinkRunners.Server

open Kit Envelope

/-! ## Answers -/

inductive ApiError
  | unauthorized
  | notFound
  | overCap
  | failClosed
  | invalid
  | badRequest

inductive Body
  | acquired (leaseId : String) (expiry : Nat)
  | cached (resultBytesLen : Nat)
  | released (leaseId : String)
  | closed (metrics : IntentMetrics) (captureIncomplete : Bool)
  | suspended (tenant : TenantId) (leasesKilled : Nat)
  | unsuspended (tenant : TenantId)
  | empty

inductive Response
  | ok (body : Body)
  | error (kind : ApiError) (message : String)

def errorResponse (kind : ApiError) (message : String) : Response := .error kind message

/-- A control-plane dependency could not be consulted. -/
def failClosed (what : String) : Response := errorResponse .failClosed (what ++ "; failing closed")

def notFound : Response := errorResponse .notFound "no such lease for this tenant"

def capacityExhausted503 : Response :=
  errorResponse .failClosed "provider capacity exhausted — retry later; failing closed"

inductive FinalizeOutcome
  | done (response : Response)
  | capacityError

/-- The golden counters the handlers bump. -/
inductive Counter
  | leasesAcquired
  | acquireRejectedSuspended
  | acquireRejectedBadRequest
  | acquireRejectedNoPlan
  | acquireRejectedRate
  | acquireRejectedInvalidImage
  | acquireRejectedOverCap
  | acquireRejectedComputeCeiling
  | acquireRejectedLeaseInvalid
  | leasesClosed
  | leasesExpired
  | leasesCrashed
  | provisionCapacity503
  | mintAttempts
  | mintFailures
  | suspendActions

/-! ## Boxes -/

/-- What the provisioners read of a validated container spec. -/
structure ContainerSpec where
  allowEgress : Bool
  runOnCreate : Bool
  env : List (String × String)

/-- Why there is no box. -/
inductive ProvisionError
  | capacity
  | failed (message : String)

/-- What the cleanup of a Pending lease learns from the provider. -/
inductive CleanupTeardown
  | confirmedDestroyed
  | retryable
  | unconfirmed

/-- What the acquisition path knows about provider contact when it gives up a Pending lease. -/
inductive PendingRollbackPhase
  | beforeProvision
  | afterProvision

inductive ProbeStatus
  | alive
  | dead
  | unbound

/-- What becomes of one request to a provider: whether it takes effect there, and what is
answered. -/
structure RequestOutcome where
  takesEffect : Bool := true
  answer : Except ProvisionError String := .ok ""

/-- What the provider's side sees of the requests of one operation, in their order. -/
abbrev Requests : Type := List RequestOutcome

/-! ## Requests -/

inductive RunnerTarget
  | repo (owner name : String)
  | org (name : String)

def RunnerTarget.canonical : RunnerTarget → String
  | repo owner name => "repo:" ++ owner.toLower ++ "/" ++ name.toLower
  | org name => "org:" ++ name.toLower

structure AcquireRequest where
  imageDigest : String := ""
  netPolicy : String := ""
  tmpRoot : String := ""
  expiryMs : Nat := 0
  runner : Option RunnerTarget := none
  agent : Bool := false
  toolchainDigest : Option String := none
  repoFullName : Option String := none
  installationId : Option String := none

/-- A close request; whether the memo key of a delivered result is the one its input axes give is
checked by the caller of the model. -/
structure CloseRequest where
  status : String
  memoKeyMatches : Bool := true
  costUsdMicros : Option Nat := none

def maxExpiryMs : Nat := 3600000

structure MintedLease where
  leaseId : String
  expiry : Nat
  spec : ContainerSpec

/-- A parked acquire: everything the dispatch needs. The waker is the channel of the lease. -/
structure QueuedAcquire where
  tenant : TenantId
  pat : String
  req : AcquireRequest
  minted : MintedLease
  ttlMs : Nat
  pending : LeaseRecord

/-! ## The outside -/

structure Plan where
  maxConcurrency : Nat := 0
  repoAllowlist : List String := []

inductive PlanResolve
  | ok (plan : Option Plan)
  | unreachable
  | shed
  | panicked

inductive AcPreLeaseOutcome
  | hit (resultBytesLen : Nat)
  | miss
  | failClosed (reason : String)

/-- What the outside decides about one effect. -/
structure Outside where
  nowMs : Nat := 0
  instant : Instant := 0
  ledgerError : Option String := none
  /-- The call on the durable queue fails with this error. -/
  durableError : Option String := none
  requests : Requests := []
  panicked : Bool := false
  ready : Bool := true
  acLookup : AcPreLeaseOutcome := .miss
  plan : PlanResolve := .ok none
  overRate : Bool := false
  ceilingVcpuMs : Nat := 0
  /-- The cap of the tenant a dispatch asks about. -/
  maxConcurrency : Nat := 0
  /-- The answers to the cap checks of a tick, by their number. -/
  underCap : Nat → TenantId → Bool := fun _ _ => true
  /-- Which of the least rows the durable queue takes, and which are locked elsewhere. -/
  tie : Nat := 0
  locked : String → Bool := fun _ => false
  mint : Result String := .ok ""
  permit : Bool := true
  /-- Was the park semaphore replaced in the map, so that its budget does not count the others? -/
  parkReplaced : Bool := false

/-! ## Configuration -/

structure ServerConfig where
  numShards : Nat := 1
  crossInstanceSafe : Bool := true
  runnerBroker : Bool := false
  casPatMint : Bool := false
  /-- Is a signer for credential tickets wired? -/
  credSigner : Bool := false
  bindsBoxes : Bool := true
  queueMode : Bool := false
  admissionQueue : Bool := false
  /-- Is the durable queue wired? -/
  durable : Bool := false
  parkCap : Nat := 0
  runnerVcpu : Option Nat := none
  /-- The validated spec of the box of a request, for a lease id. -/
  containerSpec : AcquireRequest → String → Result ContainerSpec := fun _ _ => .error ""
  metricsToString : IntentMetrics → Result String := fun _ => .error ""
  metricsFromStr : String → Option IntentMetrics := fun _ => none

/-- The year and the month of a day, counted from 1970-01-01. -/
def civilFromDays (days : Nat) : Nat × Nat :=
  let z := days + 719468
  let era := z / 146097
  let doe := z - era * 146097
  let yoe := (doe - doe / 1460 + doe / 36524 - doe / 146096) / 365
  let doy := doe - (365 * yoe + yoe / 4 - yoe / 100)
  let mp := (5 * doy + 2) / 153
  let month := if mp < 10 then mp + 3 else mp - 9
  (yoe + era * 400 + if month ≤ 2 then 1 else 0, month)

/-- The calendar month of an instant, as `YYYYMM`. The source packs it into a `u32`, which holds it
up to the year 42949672. -/
def periodKey (nowMs : Nat) : Nat :=
  let (year, month) := civilFromDays (nowMs / 86400000)
  year * 100 + month

/-- The compute gate of an admission. A reservation that would not fit the ledger's columns is
refused. -/
def buildComputeGate (cfg : ServerConfig) (ceilingVcpuMs ttl nowMs : Nat) :
    Result (Option ComputeGate) :=
  match cfg.runnerVcpu with
  | none => .ok none
  | some vcpu =>
    let reserved := vcpuMs vcpu ttl
    if !fitsLedger reserved then .error "compute reservation exceeds ledger bound"
    else .ok (some ⟨periodKey nowMs, ceilingVcpuMs, vcpu, reserved⟩)

/-! ## Calls -/

/-- What a server process can be asked to do, or does by itself. The first argument is the process.
A lease id is minted for the acquire that carries it. -/
inductive Call
  | acquire (i : Nat) (leaseId : String) (tenant : TenantId) (pat : String) (req : AcquireRequest)
  | admissionTick (i : Nat)
  | close (i : Nat) (tenant : TenantId) (leaseId : String) (req : CloseRequest)
  | cancel (i : Nat) (tenant : TenantId) (leaseId : String)
  | reapOnce (i : Nat)
  | surfaceCrashes (i : Nat)
  | sweepStalePending (i : Nat) (maxAgeMs : Nat)
  | suspend (i : Nat) (tenant : TenantId)
  | unsuspend (i : Nat) (tenant : TenantId)
  | ingest (i : Nat) (leaseId : String) (events : List TranscriptEvent)

namespace Call

def lease? : Call → Option String
  | acquire _ id .. | close _ _ id _ | cancel _ _ id | ingest _ id _ => some id
  | _ => none

/-- The calls of request handlers. The sweeps and the admission loop run in the background. -/
def isRequest : Call → Bool
  | acquire .. | close .. | cancel .. | suspend .. | unsuspend .. | ingest .. => true
  | _ => false

end Call

inductive Reply
  | response (response : Response)
  | swept (count : Nat)
  /-- Nobody is there to answer. -/
  | dropped

end CorelinkRunners.Server
