import CorelinkRunners.Kit.Tasks
import CorelinkRunners.Server.Types

/-!
# What the handlers of all server processes act on

The processes share the ledger, the durable queue, the durable suspensions and the provider. Each
has its own side tables, hooks, credentials, meter and admission queue. A process that restarts is a
new process: its tables start empty, and the old one does nothing any more. The slot events that a
process records are also the exports of its usage push (`Billing.Push`).

`Op` lists the effects of the handlers, by what they touch. A ledger call is one effect, and so is
everything under one lock, and everything a handler awaits. A ledger call that fails leaves the
ledger as it was. `log` keeps what happened, in order; no handler reads it.
-/

namespace CorelinkRunners.Server

open Kit Envelope

/-! ## Boxes -/

/-- A backend that spawns and tears down boxes. `B` is everything on its side: what the provider
holds, and the evidence each process keeps. -/
structure BoxProvisioner (B : Type) where
  provision : Nat → String → ContainerSpec → Requests → B → Except ProvisionError Unit × B
  providerRef : Nat → String → B → Result String
  restoreProviderRef : Nat → String → String → B → Result Unit × B
  teardown : Nat → String → Requests → B → Result Unit × B
  teardownPending : Nat → String → Requests → B → CleanupTeardown × B
  probe : Nat → String → Requests → B → Result ProbeStatus × B
  forgetPendingCleanup : Nat → String → B → B

/-! ## One process -/

def zeroMetrics : IntentMetrics := ⟨⟨0, 0, 0, 0, 0⟩, 0, 0, 0, [], 0, 0⟩

structure Channel where
  value : Option Response := none
  sender : Bool := true
  receiver : Bool := true

structure RegisteredHook where
  tenant : TenantId
  price : PriceCard

structure Instance where
  images : OrdMap String String := ∅
  runnerLeases : OrdSet String := ∅
  agentLeases : OrdSet String := ∅
  toolchainDigests : OrdMap String String := ∅
  hooks : OrdMap String RegisteredHook := ∅
  /-- The shared states of the hooks; handles keep them alive after the entry is gone. -/
  hookStates : OrdMap String Inner := ∅
  patIds : OrdMap String String := ∅
  pendingCred : OrdMap String TenantId := ∅
  suspendedTenants : OrdSet TenantId := ∅
  meter : SlotMeter := .new
  waiters : OrdMap String QueuedAcquire := ∅
  scheduler : FairScheduler
  channels : OrdMap String Channel := ∅
  parked : OrdMap TenantId Nat := ∅
  ticking : Bool := false

/-! ## What happens -/

inductive ForensicSource
  | localHook
  | durableCheckpoint
  | noCapture

inductive Happening
  /-- A transition succeeded and left this row. -/
  | moved (row : LeaseRecord)
  | transitionRefused (leaseId : String) (target : RunnerState)
  | provisioned (i : Nat) (leaseId : String)
  | torn (i : Nat) (leaseId : String)
  | tearFailed (i : Nat) (leaseId : String)
  | slot (i : Nat) (ev : SlotOccupancyEvent)
  | counted (i : Nat) (counter : Counter) (leaseId : String)
  | minted (i : Nat) (leaseId patId : String)
  | revoked (i : Nat) (leaseId patId : String)
  | forensic (i : Nat) (leaseId : String) (source : ForensicSource) (reason : CloseReason)
      (metrics : IntentMetrics)
  | suspended (i : Nat) (tenant : TenantId)
  | unsuspended (i : Nat) (tenant : TenantId)
  | gated (i : Nat) (leaseId : String) (tenant : TenantId) (refused : Bool)
  | replied (call : Call) (response : Response)

/-- Everything the handlers act on. -/
structure World (B : Type) where
  ledger : InMemoryInner
  durable : QueueDb
  suspendedDurable : OrdSet TenantId
  boxes : B
  inst : Nat → Instance
  leaseIds : OrdSet String
  log : List Happening

/-! ## Effects -/

/-- Calls on the ledger. A transition without an instant reads the clock. -/
inductive RowOp
  | get (leaseId : String)
  | held
  | byTenant (tenant : TenantId)
  | tryAdmitWithCompute (rec : LeaseRecord) (maxConcurrency : Nat) (gate : Option ComputeGate)
  | transition (leaseId : String) (target : RunnerState) (nowMs : Option Nat)
  | claimPendingCleanup (leaseId : String)
  | claimStalePendingCleanup (nowMs maxAgeMs : Nat)
  | finishPendingCleanup (leaseId : String)
  | bindProviderRef (leaseId providerRef : String)
  | getEnvelopeCheckpoint (leaseId : String)
  | setEnvelopeCheckpoint (leaseId checkpointJson : String)

inductive BoxOp
  /-- Spawn the box and read the reference to bind. -/
  | provision (leaseId : String) (spec : ContainerSpec)
  | teardown (leaseId : String)
  | teardownPending (leaseId : String)
  | probe (leaseId : String)
  | forgetPendingCleanup (leaseId : String)

inductive CredOp
  | mintJit (leaseId : String)
  | mintCasPat (leaseId : String)
  /-- Record a minted credential, and stash it where a signer is wired. -/
  | recordPat (leaseId patId : String) (stash : Option TenantId)
  | revokePatFor (leaseId : String)

inductive SideOp
  | recordImage (leaseId digest : String)
  | markRunnerLease (leaseId : String)
  | markAgentLease (leaseId : String)
  | markToolchainDigest (leaseId digest : String)
  | forgetLease (leaseId : String)

inductive HookOp
  /-- Open a hook and register it with the zero price card. -/
  | register (leaseId : String) (tenant : TenantId) (pat : String)
  | unregister (leaseId : String)
  | closeHandle (leaseId : String) (tenant : TenantId)
  | closeHandleAny (leaseId : String)
  | closeAckGate (leaseId : String)
  | closeBegin (leaseId : String) (status : JobStatus) (price : PriceCard)
  | closeEnd (leaseId : String) (status : JobStatus) (metrics : IntentMetrics)
  | closeAbnormal (leaseId : String) (kind : AbnormalKind) (price : PriceCard)
  | emitForensic (leaseId : String) (source : ForensicSource) (reason : CloseReason)
      (metrics : IntentMetrics)
  | write (leaseId : String) (ev : TranscriptEvent)
  | snapshotMetrics (leaseId : String) (price : PriceCard)

inductive MeterOp
  | recordSlot (leaseId : String) (tenant : TenantId) (kind : SlotEventKind)
      (acquiredAtMs : Option Nat)
  | count (counter : Counter) (leaseId : String)

/-- Suspension. The gate of an acquire reads the durable store where the cache does not answer. -/
inductive GateOp
  | isTenantSuspended (leaseId : String) (tenant : TenantId) (readsDurable : Bool)
  | suspendTenantWithEvent (tenant : TenantId)
  | unsuspendTenant (tenant : TenantId)

/-- A selected item: with the reservation to try, or an orphan whose waiter is gone. -/
structure Candidate where
  item : WorkItem
  pending : Option (LeaseRecord × Nat)

/-- What a look at the channel of a parked acquire finds. An empty channel is found for good: the
deadline has passed. -/
inductive WaitAnswer
  | response (response : Response)
  | closed
  | empty

/-- The admission queue of a process, and the durable queue. -/
inductive QueueOp
  | parkPermit (leaseId : String) (tenant : TenantId) (parkCap : Nat)
  | releasePark (leaseId : String) (tenant : TenantId)
  | openChannel (leaseId : String)
  | insertWaiter (leaseId : String) (queued : QueuedAcquire)
  /-- Take the context out of the map, to use it. -/
  | takeWaiter (leaseId : String)
  /-- Take the context out of the map and drop it. -/
  | discardWaiter (leaseId : String)
  | enqueue (item : WorkItem)
  | select (nowMs : Nat)
  | poll (leaseId : String) (tenant : TenantId)
  | dropReceiver (leaseId : String)
  | send (leaseId : String) (response : Response)
  | durableEnqueue (tenant : TenantId) (leaseId : String) (enqueuedAtMs : Nat)
  | durableRemove (leaseId : String)
  | dequeueNextLocal (localIds : List String)
  | durableAdmit (leaseId : String) (tenant : TenantId)

inductive OuterOp
  | nowMs (leaseId : Option String)
  | acquireGuard
  | acLookup (leaseId : String)
  | resolvePlan (leaseId : String)
  | overRate (leaseId : String)
  | tenantCap (leaseId : String)
  | tenantCeiling (leaseId : String)

/-- The effects of the handlers; the number is the process. -/
inductive Op
  | row (op : RowOp)
  | box (i : Nat) (op : BoxOp)
  | cred (i : Nat) (op : CredOp)
  | side (i : Nat) (op : SideOp)
  | hook (i : Nat) (op : HookOp)
  | meter (i : Nat) (op : MeterOp)
  | gate (i : Nat) (op : GateOp)
  | queue (i : Nat) (op : QueueOp)
  | outer (op : OuterOp)

abbrev RowOp.Ans : RowOp → Type
  | get _ | claimPendingCleanup _ => Result (Option LeaseRecord)
  | held | byTenant _ | claimStalePendingCleanup .. => Result (List LeaseRecord)
  | tryAdmitWithCompute .. => Result AdmitOutcome
  | transition .. | bindProviderRef .. => Result LeaseRecord
  | finishPendingCleanup _ => Result Bool
  | getEnvelopeCheckpoint _ => Result (Option String)
  | setEnvelopeCheckpoint .. => Result Unit

abbrev BoxOp.Ans : BoxOp → Type
  | provision .. => Except ProvisionError String
  | teardown _ => Bool
  | teardownPending _ => CleanupTeardown
  | probe _ => Result ProbeStatus
  | forgetPendingCleanup _ => Unit

abbrev CredOp.Ans : CredOp → Type
  | mintJit _ | mintCasPat _ => Result String
  | recordPat .. | revokePatFor _ => Unit

abbrev HookOp.Ans : HookOp → Type
  | closeHandle .. | closeHandleAny _ => Option PriceCard
  | closeAckGate _ => Bool
  | closeBegin .. => Result IntentMetrics
  | closeEnd .. => Option CloseOutcome
  | closeAbnormal .. => Result CloseOutcome
  | write .. => Result Unit
  | snapshotMetrics .. => IntentMetrics
  | register .. | unregister _ | emitForensic .. => Unit

abbrev GateOp.Ans : GateOp → Type
  | isTenantSuspended .. => Bool
  | suspendTenantWithEvent _ | unsuspendTenant _ => Result Bool

abbrev QueueOp.Ans : QueueOp → Type
  | parkPermit .. | enqueue _ | send .. => Bool
  | takeWaiter _ => Option QueuedAcquire
  | select _ => List Candidate
  | poll .. => WaitAnswer
  | durableEnqueue .. | durableAdmit .. => Result Unit
  | durableRemove _ => Result Bool
  | dequeueNextLocal _ => Result (Option String)
  | releasePark .. | openChannel _ | insertWaiter .. | discardWaiter _ | dropReceiver _ => Unit

abbrev OuterOp.Ans : OuterOp → Type
  | nowMs _ | tenantCap _ | tenantCeiling _ => Nat
  | acquireGuard | overRate _ => Bool
  | acLookup _ => AcPreLeaseOutcome
  | resolvePlan _ => PlanResolve

abbrev Op.Ans : Op → Type
  | row op => op.Ans
  | box _ op => op.Ans
  | cred _ op => op.Ans
  | side .. | meter .. => Unit
  | hook _ op => op.Ans
  | gate _ op => op.Ans
  | queue _ op => op.Ans
  | outer op => op.Ans

/-! ## What the effects do -/

namespace Instance

variable (self : Instance)

def new (tickSlots : Nat) : Instance := { scheduler := .new tickSlots }

def forgetLease (leaseId : String) : Instance :=
  { self with
    images := self.images.erase leaseId
    runnerLeases := self.runnerLeases.erase leaseId
    agentLeases := self.agentLeases.erase leaseId
    toolchainDigests := self.toolchainDigests.erase leaseId
    hooks := self.hooks.erase leaseId
    patIds := self.patIds.erase leaseId
    pendingCred := self.pendingCred.erase leaseId }

def openHook (pat : String) (now : Instant) : Inner :=
  (Inner.pending ⟨256⟩ pat.toUTF8.data.toList (.new now) now).completeOpen now

def setHook (leaseId : String) (hook : Inner) : Instance :=
  { self with hookStates := self.hookStates.insert leaseId hook }

def parkedBy (tenant : TenantId) : Nat := self.parked[tenant]?.getD 0

def snapshot (item : WorkItem) : Candidate :=
  ⟨item, self.waiters[item.id]?.map fun queued => (queued.pending, queued.ttlMs)⟩

/-- The seams of a tick: the cap checks are answered from outside, and every item is taken. -/
def seams (underCap : Nat → TenantId → Bool) : Seams (Nat × List Candidate) where
  capCheck asked tenant := (underCap asked.1 tenant, (asked.1 + 1, asked.2))
  dispatch asked item := (true, (asked.1, asked.2 ++ [self.snapshot item]))

end Instance

namespace World

variable {B : Type} (w : World B)

def note (what : Happening) : World B := { w with log := w.log ++ [what] }

def onInst (i : Nat) (f : Instance → Instance) : World B :=
  { w with inst := fun j => if j = i then f (w.inst i) else w.inst j }

def onLedger {A : Type} (env : Outside) (call : InMemoryInner → Result A × InMemoryInner) :
    Result A × World B :=
  match env.ledgerError with
  | some e => (.error e, w)
  | none =>
    let (answer, ledger) := call w.ledger
    (answer, { w with ledger })

def noteTransition (leaseId : String) (target : RunnerState) :
    Result LeaseRecord × World B → Result LeaseRecord × World B
  | (.ok row, w) => (.ok row, w.note (.moved row))
  | (.error e, w) => (.error e, w.note (.transitionRefused leaseId target))

def rowOp [SerdeJson] (env : Outside) : (op : RowOp) → op.Ans × World B
  | .get id => w.onLedger env fun ledger => (.ok (ledger.get id), ledger)
  | .held => w.onLedger env fun ledger => (.ok ledger.held, ledger)
  | .byTenant tenant => w.onLedger env fun ledger => (.ok (ledger.byTenant tenant), ledger)
  | .tryAdmitWithCompute rec cap gate => w.onLedger env (·.tryAdmitWithCompute rec cap gate)
  | .transition id target nowMs =>
    noteTransition id target (w.onLedger env (·.transition id target (nowMs.getD env.nowMs)))
  | .claimPendingCleanup id => w.onLedger env (·.claimPendingCleanup id)
  | .claimStalePendingCleanup nowMs maxAgeMs =>
    w.onLedger env (·.claimStalePendingCleanup nowMs maxAgeMs)
  | .finishPendingCleanup id => w.onLedger env (·.finishPendingCleanup id)
  | .bindProviderRef id providerRef => w.onLedger env (·.bindProviderRef id providerRef)
  | .getEnvelopeCheckpoint id =>
    w.onLedger env fun ledger => (.ok (ledger.getEnvelopeCheckpoint id), ledger)
  | .setEnvelopeCheckpoint id json => w.onLedger env (·.setEnvelopeCheckpoint id json)

section Boxes

variable (prov : BoxProvisioner B) (env : Outside) (i : Nat) (leaseId : String)

/-- Restore the handle of a lease from its row, where the row carries a reference. -/
def restoreForOperation : Result Unit × World B :=
  match env.ledgerError with
  | some e => (.error e, w)
  | none =>
    match w.ledger.get leaseId with
    | none => (.error "provider lease missing", w)
    | some record =>
      if record.boxRef = "box:" ++ leaseId then (.ok (), w)
      else
        let (answer, boxes) := prov.restoreProviderRef i leaseId record.boxRef w.boxes
        (answer, { w with boxes })

def provision (spec : ContainerSpec) : Except ProvisionError String × World B :=
  match prov.provision i leaseId spec env.requests w.boxes with
  | (.error e, boxes) => (.error e, { w with boxes })
  | (.ok (), boxes) =>
    let w := { w with boxes }.note (.provisioned i leaseId)
    if env.panicked then (.error (.failed "provisioner task panicked"), w)
    else
      match prov.providerRef i leaseId boxes with
      | .ok providerRef => (.ok providerRef, w)
      | .error e => (.error (.failed e), w)

def teardown : Bool × World B :=
  match w.restoreForOperation prov env i leaseId with
  | (.error _, w) => (false, w.note (.tearFailed i leaseId))
  | (.ok (), w) =>
    let (answer, boxes) := prov.teardown i leaseId env.requests w.boxes
    let w := { w with boxes }
    if answer.isOk && !env.panicked then (true, w.note (.torn i leaseId))
    else (false, w.note (.tearFailed i leaseId))

def teardownPending : CleanupTeardown × World B :=
  match w.restoreForOperation prov env i leaseId with
  | (.error _, w) => (.unconfirmed, w)
  | (.ok (), w) =>
    let (answer, boxes) := prov.teardownPending i leaseId env.requests w.boxes
    let w := { w with boxes }
    if env.panicked then (.retryable, w) else (answer, w)

def probe : Result ProbeStatus × World B :=
  match w.restoreForOperation prov env i leaseId with
  | (.error e, w) => (.error e, w)
  | (.ok (), w) =>
    let (answer, boxes) := prov.probe i leaseId env.requests w.boxes
    let w := { w with boxes }
    if env.panicked then (.error "probe task panicked", w) else (answer, w)

def boxOp : (op : BoxOp) → op.Ans × World B
  | .provision id spec => w.provision prov env i id spec
  | .teardown id => w.teardown prov env i id
  | .teardownPending id => w.teardownPending prov env i id
  | .probe id => w.probe prov env i id
  | .forgetPendingCleanup id => ((), { w with boxes := prov.forgetPendingCleanup i id w.boxes })

def sideOp : SideOp → World B
  | .recordImage id digest =>
    w.onInst i fun self => { self with images := self.images.insert id digest }
  | .markRunnerLease id =>
    w.onInst i fun self => { self with runnerLeases := self.runnerLeases.insert id }
  | .markAgentLease id =>
    w.onInst i fun self => { self with agentLeases := self.agentLeases.insert id }
  | .markToolchainDigest id digest =>
    w.onInst i fun self => { self with toolchainDigests := self.toolchainDigests.insert id digest }
  | .forgetLease id =>
    { w with boxes := prov.forgetPendingCleanup i id w.boxes }.onInst i (·.forgetLease id)

end Boxes

section Local

variable (env : Outside) (i : Nat)

def revokePatFor (leaseId : String) : World B :=
  let cleared := w.onInst i fun self => { self with
    patIds := self.patIds.erase leaseId
    pendingCred := self.pendingCred.erase leaseId }
  match (w.inst i).patIds[leaseId]? with
  | some patId => cleared.note (.revoked i leaseId patId)
  | none => cleared

def credOp : (op : CredOp) → op.Ans × World B
  | .mintJit _ => (env.mint, w)
  | .mintCasPat id =>
    match env.mint with
    | .ok patId => (.ok patId, w.note (.minted i id patId))
    | .error e => (.error e, w)
  | .recordPat id patId stash =>
    ((), w.onInst i fun self => { self with
      patIds := self.patIds.insert id patId
      pendingCred := match stash with
        | some tenant => self.pendingCred.insert id tenant
        | none => self.pendingCred })
  | .revokePatFor id => ((), w.revokePatFor i id)

/-- Let a hook take a step; a lease without a hook state has none to take. -/
def onHook {A : Type} (leaseId : String) (absent : A) (call : Inner → A × Inner) : A × World B :=
  match (w.inst i).hookStates[leaseId]? with
  | none => (absent, w)
  | some hook => ((call hook).1, w.onInst i (·.setHook leaseId (call hook).2))

def hookOp : (op : HookOp) → op.Ans × World B
  | .register id tenant pat =>
    ((), w.onInst i fun self => { self.setHook id (Instance.openHook pat env.instant) with
      hooks := self.hooks.insert id ⟨tenant, ⟨0, 0, 0, 0⟩⟩ })
  | .unregister id => ((), w.onInst i fun self => { self with hooks := self.hooks.erase id })
  | .closeHandle id tenant =>
    (((w.inst i).hooks[id]?.filter fun hook => hook.tenant = tenant).map RegisteredHook.price, w)
  | .closeHandleAny id => ((w.inst i).hooks[id]?.map RegisteredHook.price, w)
  | .closeAckGate _ => (env.permit, w)
  | .closeBegin id status price => w.onHook i id (.error "") (·.closeBegin status env.instant price)
  | .closeEnd id status metrics =>
    let (outcome, w) := w.onHook i id none fun hook =>
      let (outcome, hook) := hook.closeEnd status metrics
      (some outcome, hook)
    (if env.panicked then none else outcome, w)
  | .closeAbnormal id kind price =>
    w.onHook i id (.error "") (·.closeAbnormal kind env.instant price)
  | .emitForensic id source reason metrics => ((), w.note (.forensic i id source reason metrics))
  | .write id ev => w.onHook i id (.error "") (·.write ev env.instant)
  | .snapshotMetrics id price =>
    w.onHook i id zeroMetrics fun hook => (hook.snapshotMetrics env.instant price, hook)

def recordSlot (ev : SlotOccupancyEvent) : World B :=
  (w.onInst i fun self => { self with meter := self.meter.record ev }).note (.slot i ev)

def meterOp : MeterOp → World B
  | .recordSlot id tenant kind acquiredAtMs =>
    w.recordSlot i ⟨tenant, id, kind, env.nowMs, acquiredAtMs⟩
  | .count counter id => w.note (.counted i counter id)

/-- The gate: the cache, then the durable store where it is read; a failed read does not refuse. -/
def isTenantSuspended (tenant : TenantId) (readsDurable : Bool) : Bool :=
  (w.inst i).suspendedTenants.contains tenant ||
    (readsDurable && env.ledgerError.isNone && w.suspendedDurable.contains tenant)

def gateOp : (op : GateOp) → op.Ans × World B
  | .isTenantSuspended id tenant readsDurable =>
    let refused := w.isTenantSuspended env i tenant readsDurable
    (refused, w.note (.gated i id tenant refused))
  | .suspendTenantWithEvent tenant =>
    match env.ledgerError with
    | some e => (.error e, w)
    | none =>
      (.ok !(w.inst i).suspendedTenants.contains tenant,
        ({ w with suspendedDurable := w.suspendedDurable.insert tenant }.onInst i fun self =>
          { self with suspendedTenants := self.suspendedTenants.insert tenant }).note
            (.suspended i tenant))
  | .unsuspendTenant tenant =>
    match env.ledgerError with
    | some e => (.error e, w)
    | none =>
      (.ok ((w.inst i).suspendedTenants.contains tenant),
        ({ w with suspendedDurable := w.suspendedDurable.erase tenant }.onInst i fun self =>
          { self with suspendedTenants := self.suspendedTenants.erase tenant }).note
            (.unsuspended i tenant))

def onChannel (leaseId : String) (f : Channel → Channel) : World B :=
  match (w.inst i).channels[leaseId]? with
  | some channel =>
    w.onInst i fun self => { self with channels := self.channels.insert leaseId (f channel) }
  | none => w

def dropWaiter (leaseId : String) : World B :=
  w.onInst i fun self => { self with waiters := self.waiters.erase leaseId }

def onDurable {A : Type} (call : QueueDb → Result A × QueueDb) : Result A × World B :=
  match env.durableError with
  | some e => (.error e, w)
  | none =>
    let (answer, durable) := call w.durable
    (answer, { w with durable })

def queueOp : (op : QueueOp) → op.Ans × World B
  | .parkPermit _ tenant parkCap =>
    if (w.inst i).parkedBy tenant < parkCap || env.parkReplaced then
      (true, w.onInst i fun self =>
        { self with parked := self.parked.insert tenant (self.parkedBy tenant + 1) })
    else (false, w)
  | .releasePark _ tenant =>
    ((), w.onInst i fun self =>
      { self with parked := self.parked.insert tenant (self.parkedBy tenant - 1) })
  | .openChannel id =>
    ((), w.onInst i fun self => { self with channels := self.channels.insert id {} })
  | .insertWaiter id queued =>
    ((), w.onInst i fun self => { self with waiters := self.waiters.insert id queued })
  | .takeWaiter id => ((w.inst i).waiters[id]?, w.dropWaiter i id)
  | .discardWaiter id =>
    ((), if (w.inst i).waiters.contains id then
      (w.onChannel i id fun channel => { channel with sender := false }).dropWaiter i id
    else w)
  | .enqueue item =>
    match (w.inst i).scheduler.enqueue item with
    | (answer, scheduler) => (answer.isOk, w.onInst i fun self => { self with scheduler })
  | .select nowMs =>
    match (w.inst i).scheduler.tick ((w.inst i).seams env.underCap) nowMs (0, []) with
    | (_, scheduler, _, candidates) => (candidates, w.onInst i fun self => { self with scheduler })
  | .poll id _ =>
    (match (w.inst i).channels[id]? with
      | none => .closed
      | some channel =>
        match channel.value with
        | some response => .response response
        | none => if channel.sender then .empty else .closed, w)
  | .dropReceiver id => ((), w.onChannel i id fun channel => { channel with receiver := false })
  | .send id response =>
    match (w.inst i).channels[id]? with
    | none => (false, w)
    | some channel =>
      if channel.receiver then
        (true, w.onChannel i id fun channel =>
          { channel with value := some response, sender := false })
      else (false, w.onChannel i id fun channel => { channel with sender := false })
  | .durableEnqueue tenant id enqueuedAtMs =>
    w.onDurable env fun db =>
      if db.pgAdmissionQueue.contains id then (.error (alreadyQueued id), db)
      else (.ok (), db.insert (db.stamped tenant id enqueuedAtMs))
  | .durableRemove id =>
    w.onDurable env fun db => (.ok (db.pgAdmissionQueue.contains id), db.delete id)
  | .dequeueNextLocal localIds =>
    w.onDurable env fun db =>
      if localIds.isEmpty then (.ok none, db)
      else
        match db.selectHead (some localIds) env.locked env.tie with
        | none => (.ok none, db)
        | some row => (.ok (some row.leaseRequestId), db.delete row.leaseRequestId)
  | .durableAdmit _ tenant =>
    w.onDurable env fun db => (.ok (), db.setAdmits tenant (db.admitCount tenant + 1))

def outerOp : (op : OuterOp) → op.Ans
  | .nowMs _ => env.nowMs
  | .acquireGuard => env.ready
  | .acLookup _ => env.acLookup
  | .resolvePlan _ => env.plan
  | .overRate _ => env.overRate
  | .tenantCap _ => env.maxConcurrency
  | .tenantCeiling _ => env.ceilingVcpuMs

end Local

def perform [SerdeJson] (prov : BoxProvisioner B) (env : Outside) : (op : Op) → op.Ans × World B
  | .row op => w.rowOp env op
  | .box i op => w.boxOp prov env i op
  | .cred i op => w.credOp env i op
  | .side i op => ((), w.sideOp prov i op)
  | .hook i op => w.hookOp env i op
  | .meter i op => ((), w.meterOp env i op)
  | .gate i op => w.gateOp env i op
  | .queue i op => w.queueOp env i op
  | .outer op => (outerOp env op, w)

def empty (boxes : B) (tickSlots : Nat) : World B where
  ledger := .empty
  durable := .empty
  suspendedDurable := ∅
  boxes
  inst _ := .new tickSlots
  leaseIds := ∅
  log := []

end World

/-! ## The lease an effect is about, and the effects that are awaited -/

def RowOp.about : RowOp → Option String
  | get id | transition id .. | claimPendingCleanup id | finishPendingCleanup id
  | bindProviderRef id _ | getEnvelopeCheckpoint id | setEnvelopeCheckpoint id _ => some id
  | tryAdmitWithCompute rec .. => some rec.leaseId
  | held | byTenant _ | claimStalePendingCleanup .. => none

def BoxOp.about : BoxOp → String
  | provision id _ | teardown id | teardownPending id | probe id | forgetPendingCleanup id => id

def CredOp.about : CredOp → String
  | mintJit id | mintCasPat id | recordPat id .. | revokePatFor id => id

def SideOp.about : SideOp → String
  | recordImage id _ | markRunnerLease id | markAgentLease id | markToolchainDigest id _
  | forgetLease id => id

def HookOp.about : HookOp → String
  | register id .. | unregister id | closeHandle id _ | closeHandleAny id | closeAckGate id
  | closeBegin id .. | closeEnd id .. | closeAbnormal id .. | emitForensic id .. | write id _
  | snapshotMetrics id _ => id

def MeterOp.about : MeterOp → String
  | recordSlot id .. | count _ id => id

def GateOp.about : GateOp → Option String
  | isTenantSuspended id .. => some id
  | suspendTenantWithEvent _ | unsuspendTenant _ => none

def QueueOp.about : QueueOp → Option String
  | parkPermit id .. | releasePark id _ | openChannel id | insertWaiter id _ | takeWaiter id
  | discardWaiter id | poll id _ | dropReceiver id | send id _ | durableEnqueue _ id _
  | durableRemove id | durableAdmit id _ => some id
  | enqueue item => some item.id
  | select _ | dequeueNextLocal _ => none

def OuterOp.about : OuterOp → Option String
  | nowMs id => id
  | acquireGuard => none
  | acLookup id | resolvePlan id | overRate id | tenantCap id | tenantCeiling id => some id

def Op.about : Op → Option String
  | row op => op.about
  | box _ op => some op.about
  | cred _ op => some op.about
  | side _ op => some op.about
  | hook _ op => some op.about
  | meter _ op => some op.about
  | gate _ op => op.about
  | queue _ op => op.about
  | outer op => op.about

/-- The effects a handler is suspended at. Ledger calls are not among them. -/
def Op.awaits : Op → Bool
  | box _ (.provision ..) | box _ (.teardown _) | box _ (.teardownPending _) | box _ (.probe _)
  | cred _ (.mintJit _) | cred _ (.mintCasPat _) | cred _ (.revokePatFor _)
  | hook _ (.closeAckGate _) | hook _ (.closeBegin ..) | hook _ (.closeEnd ..)
  | queue _ (.poll ..)
  | outer .acquireGuard | outer (.acLookup _) | outer (.resolvePlan _)
  -- the rest of the blocking task that spawned a box
  | row (.bindProviderRef ..) => true
  | _ => false

end CorelinkRunners.Server
