import CorelinkRunners.Server.Lease

/-!
# Acquiring a lease

An acquire passes its gates, reserves a slot and finalizes the lease; over its cap, in queue mode,
it parks instead and waits for the admission loop. A tick of the loop selects fairly among the
parked acquires, reserves for each, turns away those that can never be served, finalizes the rest
and wakes their handlers.

The timed wait of a parked acquire is three effects: it finds its channel empty, the deadline has
passed, and it drops the receiver. A look that finds the channel empty before the deadline changes
nothing and is left out. The wait statistics are left out as well.
-/

namespace CorelinkRunners.Server

open Kit Envelope
open Server.Path

/-! ## The gates -/

/-- Why a request cannot be served by this server, whoever asks. -/
def badRequest? (cfg : ServerConfig) (req : AcquireRequest) : Option String :=
  if req.runner.isSome && !cfg.runnerBroker then
    some "runner mode is not enabled on this fabric (no runner registration broker configured)"
  else if req.runner.isSome && !cfg.bindsBoxes then
    some ("runner mode requires a cloud box backend, but none is configured "
      ++ "(no-op provisioner). Wire the NORTHFLANK_* environment to enable runner boxes.")
  else if req.agent && req.runner.isSome then
    some ("agent mode and runner mode are mutually exclusive: set at most one of "
      ++ "`agent` / `runner` on an acquire.")
  else if req.agent && !cfg.bindsBoxes then
    some ("agent mode requires a cloud box backend, but none is configured "
      ++ "(no-op provisioner). Configure a cloud box backend to enable agent-exec.")
  else none

def runnerPermitted (plan : Plan) (req : AcquireRequest) : Bool :=
  match req.runner with
  | none => true
  | some target =>
    plan.repoAllowlist.any fun entry => entry.trimAscii.toString.toLower == target.canonical

def pendingRecord (leaseId : String) (tenant : TenantId) (expiry nowMs : Nat) : LeaseRecord where
  leaseId
  tenant
  state := .pending
  boxRef := "box:" ++ leaseId
  createdAtMs := nowMs
  updatedAtMs := nowMs
  deadlineMs := some expiry
  billingAcquiredAtMs := none

/-! ## Parking -/

section Queue

variable (cfg : ServerConfig) (i : Nat)

def evictWaiter {A : Type} (leaseId : String) (k : Path A) : Path A :=
  act (.queue i (.discardWaiter leaseId)) <|
  if cfg.durable then ask (.queue i (.durableRemove leaseId)) fun _ => k else k

def shed (counter : Counter) (leaseId : String) (tenant : TenantId) (message : String) :
    Path Response :=
  act (.meter i (.count counter leaseId)) <|
  act (.queue i (.releasePark leaseId tenant)) <|
  answer (errorResponse .failClosed message)

def awaitDispatch (leaseId : String) (tenant : TenantId) : Path Response :=
  ask (.queue i (.poll leaseId tenant)) fun found =>
  match found with
  | .response response => act (.queue i (.releasePark leaseId tenant)) <| answer response
  | .closed =>
    shed i .acquireRejectedLeaseInvalid leaseId tenant
      "admission loop dropped the queued acquire; failing closed"
  | .empty =>
    act (.queue i (.dropReceiver leaseId)) <|
    act (.cred i (.revokePatFor leaseId)) <|
    evictWaiter cfg i leaseId <|
    shed i .acquireRejectedOverCap leaseId tenant
      "queued admission timed out before a slot freed; failing closed"

def enqueueDurably (leaseId : String) (tenant : TenantId) (nowMs : Nat) : Path Response :=
  if cfg.durable then
    ask (.queue i (.durableEnqueue tenant leaseId nowMs)) fun queued =>
    match queued with
    | .ok () => awaitDispatch cfg i leaseId tenant
    | .error _ =>
      act (.queue i (.discardWaiter leaseId)) <|
      evictWaiter cfg i leaseId <|
      shed i .acquireRejectedOverCap leaseId tenant
        "durable admission queue refused the enqueue: shed (try again shortly)"
  else awaitDispatch cfg i leaseId tenant

def acquireQueued (tenant : TenantId) (pat : String) (req : AcquireRequest) (minted : MintedLease)
    (nowMs : Nat) : Path Response :=
  let leaseId := minted.leaseId
  if !cfg.admissionQueue then
    act (.meter i (.count .acquireRejectedLeaseInvalid leaseId)) <|
    answer (errorResponse .failClosed
      "queued admission selected but no admission queue is wired; failing closed")
  else
    ask (.queue i (.parkPermit leaseId tenant cfg.parkCap)) fun permit =>
    match permit with
    | false =>
      act (.meter i (.count .acquireRejectedOverCap leaseId)) <|
      answer (errorResponse .failClosed
        "tenant parked-waiter budget exhausted: shed (try again shortly)")
    | true =>
      act (.queue i (.openChannel leaseId)) <|
      -- the context comes first: no queued item is ever seen without one
      act (.queue i (.insertWaiter leaseId
        ⟨tenant, pat, req, minted, req.expiryMs,
          pendingRecord leaseId tenant minted.expiry nowMs⟩)) <|
      ask (.queue i (.enqueue ⟨leaseId, tenant, nowMs⟩)) fun queued =>
      match queued with
      | false =>
        act (.queue i (.discardWaiter leaseId)) <|
        shed i .acquireRejectedOverCap leaseId tenant
          "admission queue full for tenant: shed (try again shortly)"
      | true => enqueueDurably cfg i leaseId tenant nowMs

/-! ## Acquiring -/

def acquireAdmitted (tenant : TenantId) (pat : String) (minted : MintedLease)
    (req : AcquireRequest) : Path Response :=
  (finalizeAdmittedLease cfg i tenant pat minted req).bind fun outcome =>
  match outcome with
  | .done response => answer response
  | .capacityError =>
    act (.meter i (.count .provisionCapacity503 minted.leaseId)) <|
    act (.cred i (.revokePatFor minted.leaseId)) <|
    answer capacityExhausted503

def reserve (tenant : TenantId) (pat : String) (plan : Plan) (minted : MintedLease)
    (req : AcquireRequest) (nowMs : Nat) : Path Response :=
  let leaseId := minted.leaseId
  ask (.outer (.tenantCeiling leaseId)) fun ceiling =>
  match buildComputeGate cfg ceiling req.expiryMs nowMs with
  | .error message => answer (failClosed message)
  | .ok gate =>
    ask (.row (.tryAdmitWithCompute (pendingRecord leaseId tenant minted.expiry nowMs)
      plan.maxConcurrency gate)) fun outcome =>
    match outcome with
    | .ok .admitted => acquireAdmitted cfg i tenant pat minted req
    | .ok .overConcurrency =>
      if cfg.queueMode then acquireQueued cfg i tenant pat req minted nowMs
      else
        act (.meter i (.count .acquireRejectedOverCap leaseId)) <|
        answer (errorResponse .overCap
          "concurrency cap reached: rejected preventively, before any box/VM")
    | .ok .overCompute =>
      act (.meter i (.count .acquireRejectedComputeCeiling leaseId)) <|
      answer (errorResponse .overCap "monthly compute ceiling reached; upgrade tier")
    | .error _ =>
      act (.meter i (.count .acquireRejectedLeaseInvalid leaseId)) <|
      answer (failClosed "lease ledger refused the admission reserve")

/-- The environment entry that makes a box a check host. -/
def toolchainDigestEnv : String := "TOOLCHAIN_DIGEST"

def mintAndReserve (leaseId : String) (tenant : TenantId) (pat : String) (plan : Plan)
    (req : AcquireRequest) (nowMs : Nat) : Path Response :=
  match cfg.containerSpec req leaseId with
  | .error e =>
    act (.meter i (.count .acquireRejectedInvalidImage leaseId)) <|
    answer (errorResponse .invalid ("lease rejected: " ++ e))
  | .ok spec =>
    let expiry := Word.satAdd nowMs req.expiryMs
    match req.runner, req.toolchainDigest with
    | none, some digest =>
      act (.side i (.markToolchainDigest leaseId digest)) <|
      reserve cfg i tenant pat plan
        ⟨leaseId, expiry, { spec with env := spec.env ++ [(toolchainDigestEnv, digest)] }⟩ req nowMs
    | _, _ => reserve cfg i tenant pat plan ⟨leaseId, expiry, spec⟩ req nowMs

def acquirePlanned (leaseId : String) (tenant : TenantId) (pat : String) (req : AcquireRequest)
    (nowMs : Nat) : Path Response :=
  ask (.outer (.resolvePlan leaseId)) fun resolved =>
  match resolved with
  | .ok none =>
    act (.meter i (.count .acquireRejectedNoPlan leaseId)) <|
    answer (errorResponse .overCap "no plan on file for tenant: zero concurrency slots")
  | .unreachable => answer (failClosed "plan source unreachable")
  | .shed => answer (errorResponse .failClosed "introspect saturated; shed — failing closed")
  | .panicked => answer (failClosed "plan source resolution task panicked")
  | .ok (some plan) =>
    if !runnerPermitted plan req then
      act (.meter i (.count .acquireRejectedBadRequest leaseId)) <|
      answer (errorResponse .invalid "runner target not permitted for this tenant")
    else
      ask (.outer (.overRate leaseId)) fun limited =>
      match limited with
      | true =>
        act (.meter i (.count .acquireRejectedRate leaseId)) <|
        answer (errorResponse .overCap
          "acquire rate ceiling reached: rejected preventively, before any box/VM")
      | false => mintAndReserve cfg i leaseId tenant pat plan req nowMs

def acquirePermitted (leaseId : String) (tenant : TenantId) (pat : String) (req : AcquireRequest)
    (nowMs : Nat) : Path Response :=
  let req := { req with expiryMs := min req.expiryMs maxExpiryMs }
  match badRequest? cfg req with
  | some message =>
    act (.meter i (.count .acquireRejectedBadRequest leaseId)) <|
    answer (errorResponse .invalid message)
  | none =>
    ask (.outer (.acLookup leaseId)) fun found =>
    match found with
    | .hit len => answer (.ok (.cached len))
    | .failClosed reason => answer (failClosed ("AC pre-lease lookup failed: " ++ reason))
    | .miss => acquirePlanned cfg i leaseId tenant pat req nowMs

def acquire (leaseId : String) (tenant : TenantId) (pat : String) (req : AcquireRequest) :
    Path Response :=
  ask (.outer .acquireGuard) fun ready =>
  match ready with
  | false => answer (failClosed "runner mint is not ready")
  | true =>
    ask (.outer (.nowMs (some leaseId))) fun nowMs =>
    if 1 < cfg.numShards && !cfg.crossInstanceSafe then
      answer (failClosed ("multi-instance fabricd (N>1) requires a cross-instance ledger (pg); "
        ++ "acquire is disabled until the durable ledger is configured"))
    else
      ask (.gate i (.isTenantSuspended leaseId tenant (1 < cfg.numShards))) fun suspended =>
      match suspended with
      | true =>
        act (.meter i (.count .acquireRejectedSuspended leaseId)) <|
        answer (errorResponse .overCap
          "tenant is suspended: acquire is disabled (contact the operator)")
      | false => acquirePermitted cfg i leaseId tenant pat req nowMs

/-! ## The admission loop -/

/-- Claim the durable rows of the selected items, in the fair order of all instances. -/
def claimFair (localIds : List String) :
    Nat → OrdMap String Candidate → List Candidate → Path (List Candidate)
  | 0, _, fair => answer fair
  | n + 1, byId, fair =>
    ask (.queue i (.dequeueNextLocal localIds)) fun claimed =>
    match claimed with
    | .ok (some id) =>
      match byId[id]? with
      | some candidate => claimFair localIds n (byId.erase id) (fair ++ [candidate])
      | none => claimFair localIds n byId fair
    | .ok none | .error _ => answer fair

/-- The order of dispatch: that of the scheduler, or of the durable queue where one is wired. -/
def fairOrderOf (candidates : List Candidate) : Path (List Candidate) :=
  if cfg.durable then
    let localIds := (candidates.filter fun c => c.pending.isSome).map fun c => c.item.id
    let byId := candidates.foldl (fun m c => m.insert c.item.id c) (∅ : OrdMap String Candidate)
    claimFair i localIds localIds.length byId []
  else answer candidates

/-- A waiter to be turned away: its lease, the counter, and what it is told. -/
structure Rejection where
  leaseId : String
  counter : Counter
  response : Response

/-- What the reservations of a tick decide: the leases to finalize and the waiters to reject. -/
structure Reserved where
  toFinalize : List String := []
  rejected : List Rejection := []

def requeue {A : Type} (item : WorkItem) (k : Path A) : Path A :=
  let enqueue : Path A := ask (.queue i (.enqueue item)) fun _ => k
  if cfg.durable then
    ask (.queue i (.durableEnqueue item.tenant item.id item.enqueuedAtMs)) fun _ => enqueue
  else enqueue

/-- The outcome of one reservation of a tick, and then the rest. -/
def reserveOutcome (item : WorkItem) (outcome : Result AdmitOutcome) (reserved : Reserved)
    (k : Reserved → Path Reserved) : Path Reserved :=
  match outcome with
  | .ok .admitted =>
    let admitted := { reserved with toFinalize := reserved.toFinalize ++ [item.id] }
    if cfg.durable then
      ask (.queue i (.durableAdmit item.id item.tenant)) fun _ => k admitted
    else k admitted
  | .ok .overCompute =>
    k { reserved with rejected := reserved.rejected ++
      [⟨item.id, .acquireRejectedComputeCeiling,
        errorResponse .overCap "monthly compute ceiling reached; upgrade tier"⟩] }
  | .error _ =>
    k { reserved with rejected := reserved.rejected ++
      [⟨item.id, .acquireRejectedLeaseInvalid, errorResponse .failClosed
        "lease ledger refused the queued admission reserve; failing closed"⟩] }
  | .ok .overConcurrency => requeue cfg i item (k reserved)

def reserveAll (nowMs : Nat) : List Candidate → Reserved → Path Reserved
  | [], reserved => answer reserved
  | candidate :: rest, reserved =>
    match candidate.pending with
    | none => reserveAll nowMs rest reserved
    | some (pending, ttlMs) =>
      let id := candidate.item.id
      ask (.outer (.tenantCap id)) fun cap =>
      ask (.outer (.tenantCeiling id)) fun ceiling =>
      match buildComputeGate cfg ceiling ttlMs nowMs with
      | .error message =>
        reserveAll nowMs rest { reserved with rejected := reserved.rejected ++
          [⟨id, .acquireRejectedLeaseInvalid,
            errorResponse .failClosed (message ++ "; failing closed")⟩] }
      | .ok gate =>
        ask (.row (.tryAdmitWithCompute
          { pending with createdAtMs := nowMs, updatedAtMs := nowMs } cap gate)) fun outcome =>
        reserveOutcome cfg i candidate.item outcome reserved (reserveAll nowMs rest)

/-- Wake the waiters that are turned away. A waiter that is gone is not counted. -/
def rejectAll : List Rejection → Path Unit
  | [] => answer ()
  | rejection :: rest =>
    ask (.queue i (.takeWaiter rejection.leaseId)) fun waiter =>
    evictWaiter cfg i rejection.leaseId <|
    match waiter with
    | none => rejectAll rest
    | some _ =>
      ask (.queue i (.send rejection.leaseId rejection.response)) fun sent =>
      match sent with
      | true => act (.meter i (.count rejection.counter rejection.leaseId)) <| rejectAll rest
      | false => rejectAll rest

/-- Put a waiter whose provider had no capacity back into the queue, or turn it away where the queue
is full. -/
def requeueWaiter {A : Type} (leaseId : String) (queued : QueuedAcquire) (k : Path A) : Path A :=
  act (.queue i (.insertWaiter leaseId queued)) <|
  ask (.queue i (.enqueue ⟨leaseId, queued.tenant, queued.pending.createdAtMs⟩)) fun again =>
  match again with
  | true => k
  | false =>
    ask (.queue i (.takeWaiter leaseId)) fun waiter =>
    match waiter with
    | none => k
    | some _ =>
      act (.cred i (.revokePatFor leaseId)) <|
      ask (.queue i (.send leaseId capacityExhausted503)) fun sent =>
      match sent with
      | true => act (.meter i (.count .provisionCapacity503 leaseId)) k
      | false => k

/-- A reservation whose waiter went away before it could be finalized. -/
def rollbackOrphan (leaseId : String) : Path Unit :=
  ask (.row (.get leaseId)) fun found =>
  match found with
  | .ok (some row) => rollbackUndispatchedLease i row.tenant leaseId .beforeProvision
  | .ok none | .error _ => answer ()

def finalizeAll : List String → Nat → Path Nat
  | [], dispatched => answer dispatched
  | leaseId :: rest, dispatched =>
    ask (.queue i (.takeWaiter leaseId)) fun waiter =>
    match waiter with
    | none => (rollbackOrphan i leaseId).bind fun _ => finalizeAll rest dispatched
    | some queued =>
      (finalizeAdmittedLease cfg i queued.tenant queued.pat queued.minted queued.req).bind
        fun outcome =>
      match outcome with
      | .capacityError => requeueWaiter i leaseId queued (finalizeAll rest dispatched)
      | .done response =>
        ask (.queue i (.send leaseId response)) fun sent =>
        match sent with
        | true => finalizeAll rest (dispatched + 1)
        | false =>
          (rollbackUndispatchedLease i queued.tenant leaseId .afterProvision).bind fun _ =>
          finalizeAll rest dispatched

def runAdmissionTick : Path Nat :=
  ask (.outer (.nowMs none)) fun nowMs =>
  if !cfg.admissionQueue then answer 0
  else
    ask (.outer .acquireGuard) fun ready =>
    match ready with
    | false => answer 0
    | true =>
      ask (.queue i (.select nowMs)) fun candidates =>
      (fairOrderOf cfg i candidates).bind fun fair =>
      (reserveAll cfg i nowMs fair {}).bind fun reserved =>
      (rejectAll cfg i reserved.rejected).bind fun _ =>
      finalizeAll cfg i reserved.toFinalize 0

end Queue

/-! ## The machine -/

def Call.prog (cfg : ServerConfig) : Call → Path Reply
  | acquire i leaseId tenant pat req => (Server.acquire cfg i leaseId tenant pat req).map .response
  | admissionTick i => (runAdmissionTick cfg i).map .swept
  | close i tenant leaseId req => (Server.close i tenant leaseId req).map .response
  | cancel i tenant leaseId => (Server.cancel i tenant leaseId).map .response
  | reapOnce i => (Server.reapOnce cfg i).map .swept
  | surfaceCrashes i => (Server.surfaceCrashes cfg i).map .swept
  | sweepStalePending i maxAgeMs => (Server.sweepStalePending i maxAgeMs).map .swept
  | suspend i tenant => (Server.suspend i tenant).map .response
  | unsuspend i tenant => (Server.unsuspend i tenant).map .response
  | ingest i leaseId events => (Server.ingest cfg i leaseId events).map .response

/-- What goes on of an awaited effect when its handler is dropped: blocking work runs to its end,
and a dropped wait drops its receiver and its park permit. -/
def remnant : Op → Path Reply
  | .box i (.provision leaseId spec) => (provisionLease i leaseId spec).map fun _ => .dropped
  | .hook i (.closeBegin leaseId status price) =>
    ask (.hook i (.closeBegin leaseId status price)) fun begun =>
    match begun with
    | .error _ => answer .dropped
    | .ok metrics => ask (.hook i (.closeEnd leaseId status metrics)) fun _ => answer .dropped
  | .queue i (.poll leaseId tenant) =>
    act (.queue i (.dropReceiver leaseId)) <|
    act (.queue i (.releasePark leaseId tenant)) <| answer .dropped
  | op => act op <| answer .dropped

/-- The awaited effects that a dropped handler may cancel. -/
def Op.cancels : Op → Bool
  | .box _ (.provision ..) | .cred .. | .hook _ (.closeAckGate _) | .outer _ => true
  | _ => false

variable {B : Type}

/-- A lease id is minted once, and a process runs one tick at a time. -/
def World.enter (w : World B) : Call → Option (World B)
  | .acquire _ leaseId .. =>
    if w.leaseIds.contains leaseId then none
    else some { w with leaseIds := w.leaseIds.insert leaseId }
  | .admissionTick i =>
    if (w.inst i).ticking then none
    else some (w.onInst i fun self => { self with ticking := true })
  | _ => some w

def World.leave (w : World B) : Call → Reply → World B
  | .admissionTick i, _ => w.onInst i fun self => { self with ticking := false }
  | call, .response response => w.note (.replied call response)
  | _, .swept _ | _, .dropped => w

/-- **The server**: the handlers of all processes over one world. -/
def server [SerdeJson] (cfg : ServerConfig) (prov : BoxProvisioner B) :
    Machine Op Op.Ans Outside Call Reply (World B) where
  perform op env w := w.perform prov env op
  prog := Call.prog cfg
  enter call w := w.enter call
  leave call reply w := w.leave call reply
  awaits := Op.awaits
  droppable := Call.isRequest
  remnant := remnant
  cancels := Op.cancels

abbrev Running (B : Type) : Type := Tasks Op Op.Ans Call Reply (World B)

end CorelinkRunners.Server
