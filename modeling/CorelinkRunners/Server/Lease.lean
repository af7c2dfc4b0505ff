import CorelinkRunners.Server.World

/-!
# The paths of a lease

From a reservation to its end a lease passes through code that was written path by path: the
finalize of an acquire, the close and the cancel handler, the expiry sweep, the crash sweep, the
enforcement kill, the cleanup of stale reservations, and the rollback of a lease that nobody owns
any more. Each is a program of effects here, with its branches and its texts.

The attestation a close returns, the credentials injected into the environment of a box and the log
lines are left out.
-/

namespace CorelinkRunners.Server

open Kit Envelope

abbrev Path (A : Type) : Type := Prog Op Op.Ans A

namespace Path

variable {A : Type}

abbrev ask (op : Op) (k : op.Ans → Path A) : Path A := .vis op k

/-- An effect whose answer is not looked at. -/
abbrev act (op : Op) (k : Path A) : Path A := .vis op fun _ => k

abbrev answer (a : A) : Path A := .pure a

end Path

open Server.Path

/-! ## Rolling back -/

def finishRollback (i : Nat) (leaseId : String) : Path Bool :=
  ask (.row (.finishPendingCleanup leaseId)) fun finished =>
  match finished with
  | .ok true => act (.box i (.forgetPendingCleanup leaseId)) <| answer true
  | .ok false | .error _ => answer false

/-- Give up a reserved Pending lease: claim it, have its box confirmed gone where there may be one,
and finish the claim. -/
def rollbackPendingAdmission (i : Nat) (leaseId : String) (phase : PendingRollbackPhase) :
    Path Bool :=
  ask (.row (.claimPendingCleanup leaseId)) fun claimed =>
  match claimed with
  | .error _ | .ok none => answer false
  | .ok (some row) =>
    match phase with
    | .beforeProvision => finishRollback i row.leaseId
    | .afterProvision =>
      ask (.box i (.teardownPending row.leaseId)) fun torn =>
      match torn with
      | .confirmedDestroyed => finishRollback i row.leaseId
      | .retryable | .unconfirmed => answer false

/-- The state of a lease, as far as the ledger can be read. -/
def stateOf (read : Result (Option LeaseRecord)) : Option LeaseState :=
  match read with
  | .ok (some row) => some row.state
  | .ok none | .error _ => none

def crashUndispatched (i : Nat) (tenant : TenantId) (leaseId : String) : Path Unit :=
  ask (.row (.transition leaseId .crashed none)) fun crashed =>
  match crashed with
  | .ok _ =>
    act (.side i (.forgetLease leaseId)) <|
    act (.meter i (.recordSlot leaseId tenant .crashed none)) <| answer ()
  | .error _ => answer ()

def rollbackUndispatchedLease (i : Nat) (tenant : TenantId) (leaseId : String)
    (phase : PendingRollbackPhase) : Path Unit :=
  ask (.row (.get leaseId)) fun current =>
  match stateOf current with
  | some (.wire .held) =>
    ask (.box i (.teardown leaseId)) fun torn =>
    act (.cred i (.revokePatFor leaseId)) <|
    match torn with
    | true => crashUndispatched i tenant leaseId
    | false => answer ()
  | some .pending =>
    (rollbackPendingAdmission i leaseId phase).bind fun _ =>
    act (.cred i (.revokePatFor leaseId)) <| answer ()
  | some (.wire .released) | some (.wire .expired) | some (.wire .crashed) | none => answer ()

/-! ## Finalizing an admitted lease -/

def refuseBeforeProvision (i : Nat) (leaseId what : String) : Path (Option Response) :=
  (rollbackPendingAdmission i leaseId .beforeProvision).bind fun _ => answer
  (some (failClosed what))

/-- The registration of a runner, before its box is asked for; an answer is a refusal. -/
def mintRunner (cfg : ServerConfig) (i : Nat) (leaseId : String) (req : AcquireRequest) :
    Path (Option Response) :=
  match req.runner with
  | none => answer none
  | some _ =>
    if !cfg.runnerBroker then
      refuseBeforeProvision i leaseId "runner lease reached finalize with no registration broker"
    else
      ask (.cred i (.mintJit leaseId)) fun minted =>
      match minted with
      | .ok _ => answer none
      | .error e => refuseBeforeProvision i leaseId ("runner registration mint failed: " ++ e)

/-- The per-job credential, before the box is asked for; an answer is a refusal. -/
def mintCasPat (cfg : ServerConfig) (i : Nat) (tenant : TenantId) (leaseId : String)
    (req : AcquireRequest) : Path (Option Response) :=
  if !cfg.casPatMint then answer none
  else
    match req.repoFullName, req.installationId with
    | none, none => answer none
    | none, some _ =>
      refuseBeforeProvision i leaseId
        ("acquire declared installation_id without repo_full_name; repo_full_name is required for a "
          ++ "hydrating (moat) lease — fail closed")
    | some _, _ =>
      -- a credential kept from an earlier attempt would be overwritten
      act (.cred i (.revokePatFor leaseId)) <|
      act (.meter i (.count .mintAttempts leaseId)) <|
      ask (.cred i (.mintCasPat leaseId)) fun minted =>
      match minted with
      | .ok patId =>
        let stash := if cfg.credSigner then some tenant else none
        act (.cred i (.recordPat leaseId patId stash)) <| answer none
      | .error e =>
        act (.meter i (.count .mintFailures leaseId)) <|
        refuseBeforeProvision i leaseId ("CAS PAT mint failed: " ++ e)

def provisionLease (i : Nat) (leaseId : String) (spec : ContainerSpec) :
    Path (Except ProvisionError Unit) :=
  ask (.box i (.provision leaseId spec)) fun provisioned =>
  match provisioned with
  | .error e => answer (.error e)
  | .ok providerRef =>
    ask (.row (.bindProviderRef leaseId providerRef)) fun bound =>
    match bound with
    | .ok _ => answer (.ok ())
    | .error e => answer (.error (.failed e))

def provisionFailed (i : Nat) (leaseId : String) (e : ProvisionError) : Path FinalizeOutcome :=
  (rollbackPendingAdmission i leaseId .afterProvision).bind fun cleaned =>
  match e, cleaned with
  | .capacity, true => answer .capacityError
  | .capacity, false =>
    act (.cred i (.revokePatFor leaseId)) <|
    answer (.done (failClosed
      "provider capacity exhausted; pending cleanup must finish before retry"))
  | .failed _, _ =>
    act (.cred i (.revokePatFor leaseId)) <|
    answer (.done (failClosed "box provisioning failed"))

def publishLease (i : Nat) (tenant : TenantId) (pat : String) (minted : MintedLease)
    (req : AcquireRequest) : Path FinalizeOutcome :=
  let hook : Path FinalizeOutcome :=
    act (.hook i (.register minted.leaseId tenant pat)) <|
    answer (.done (.ok (.acquired minted.leaseId minted.expiry)))
  let agent : Path FinalizeOutcome :=
    if req.agent then act (.side i (.markAgentLease minted.leaseId)) hook else hook
  act (.side i (.recordImage minted.leaseId req.imageDigest)) <|
  if req.runner.isSome then act (.side i (.markRunnerLease minted.leaseId)) agent else agent

def recordHeld (i : Nat) (tenant : TenantId) (pat : String) (minted : MintedLease)
    (req : AcquireRequest) (nowMs : Nat) : Path FinalizeOutcome :=
  ask (.row (.transition minted.leaseId .held (some nowMs))) fun held =>
  match held with
  | .ok _ =>
    act (.meter i (.recordSlot minted.leaseId tenant .acquired none)) <|
    act (.meter i (.count .leasesAcquired minted.leaseId)) <|
    publishLease i tenant pat minted req
  | .error _ =>
    act (.meter i (.count .acquireRejectedLeaseInvalid minted.leaseId)) <|
    (rollbackPendingAdmission i minted.leaseId .afterProvision).bind fun _ =>
    act (.cred i (.revokePatFor minted.leaseId)) <|
    answer (.done (failClosed "lease ledger refused Pending->Held"))

def finalizeAdmittedLease (cfg : ServerConfig) (i : Nat) (tenant : TenantId) (pat : String)
    (minted : MintedLease) (req : AcquireRequest) : Path FinalizeOutcome :=
  ask (.outer (.nowMs (some minted.leaseId))) fun nowMs =>
  (mintRunner cfg i minted.leaseId req).bind fun refused =>
  match refused with
  | some response => answer (.done response)
  | none =>
    (mintCasPat cfg i tenant minted.leaseId req).bind fun refused =>
    match refused with
    | some response => answer (.done response)
    | none =>
      (provisionLease i minted.leaseId minted.spec).bind fun provisioned =>
      match provisioned with
      | .error e => provisionFailed i minted.leaseId e
      | .ok () => recordHeld i tenant pat minted req nowMs

/-! ## The client's paths -/

def cancelTerminal : Response :=
  errorResponse .invalid
    "lease is terminal (expired/crashed): contract §1 legal matrix forbids release"

def cancelTorn (i : Nat) (tenant : TenantId) (leaseId : String) : Path Response :=
  ask (.row (.transition leaseId .released none)) fun released =>
  match released with
  | .ok _ =>
    act (.meter i (.recordSlot leaseId tenant .released none)) <|
    act (.meter i (.count .leasesClosed leaseId)) <|
    act (.cred i (.revokePatFor leaseId)) <|
    act (.side i (.forgetLease leaseId)) <|
    answer (.ok (.released leaseId))
  | .error _ =>
    ask (.row (.get leaseId)) fun again =>
    match stateOf again with
    | some (.wire .released) => answer (.ok (.released leaseId))
    | _ => answer (failClosed "lease ledger refused Held->Released")

def cancel (i : Nat) (tenant : TenantId) (leaseId : String) : Path Response :=
  ask (.row (.get leaseId)) fun found =>
  match found with
  | .error _ => answer (failClosed "lease ledger unreadable")
  | .ok none => answer notFound
  | .ok (some record) =>
    if record.tenant ≠ tenant then answer notFound
    else
      match record.state with
      | .pending => answer notFound
      | .wire .released => answer (.ok (.released record.leaseId))
      | .wire .expired | .wire .crashed => answer cancelTerminal
      | .wire .held =>
        ask (.box i (.teardown leaseId)) fun torn =>
        match torn with
        | false => answer (failClosed "lease teardown unconfirmed; lease remains Held")
        | true => cancelTorn i tenant leaseId

/-- The close machinery of a lease: the metrics and whether the capture is incomplete, or a
refusal. -/
def driveClose (i : Nat) (tenant : TenantId) (leaseId : String) (status : JobStatus) :
    Path (Except Response (IntentMetrics × Bool)) :=
  ask (.hook i (.closeHandle leaseId tenant)) fun handle =>
  match handle with
  | none => answer (.ok (zeroMetrics, false))
  | some price =>
    ask (.hook i (.closeAckGate leaseId)) fun permit =>
    match permit with
    | false =>
      answer (.error (errorResponse .failClosed "close ack gate unavailable; failing closed"))
    | true =>
      ask (.hook i (.closeBegin leaseId status price)) fun begun =>
      match begun with
      | .error e =>
        answer (.error (errorResponse .failClosed
          ("close machinery refused on a held lease: " ++ e ++ "; failing closed")))
      | .ok metrics =>
        ask (.hook i (.closeEnd leaseId status metrics)) fun outcome =>
        match outcome with
        | some outcome => answer (.ok (outcome.metrics, outcome.captureIncomplete))
        | none =>
          answer (.error (errorResponse .failClosed "close machinery panicked; failing closed"))

def closeMetrics (req : CloseRequest) (metrics : IntentMetrics) : IntentMetrics :=
  match req.costUsdMicros with
  | some cost => { metrics with costUsdMicros := cost }
  | none => metrics

def releaseClosed (i : Nat) (tenant : TenantId) (leaseId : String) (metrics : IntentMetrics)
    (captureIncomplete : Bool) : Path Response :=
  ask (.row (.transition leaseId .released none)) fun released =>
  match released with
  | .error _ =>
    answer (errorResponse .failClosed
      ("lease ledger refused Held->Released after close (a concurrent cancel/reaper won the race); "
        ++ "not double-freeing the slot"))
  | .ok record =>
    act (.hook i (.unregister leaseId)) <|
    act (.meter i (.recordSlot leaseId tenant .released record.billingAcquiredAtMs)) <|
    act (.meter i (.count .leasesClosed leaseId)) <|
    act (.cred i (.revokePatFor leaseId)) <|
    act (.side i (.forgetLease leaseId)) <|
    answer (.ok (.closed metrics captureIncomplete))

def teardownFailed : Response :=
  errorResponse .failClosed
    ("teardown failed: the provider box could not be reclaimed; the lease remains held and a retry "
      ++ "(reaper sweep or re-close) will reclaim it")

def closeHeld (i : Nat) (tenant : TenantId) (leaseId : String) (status : JobStatus)
    (req : CloseRequest) : Path Response :=
  ask (.box i (.teardown leaseId)) fun torn =>
  match torn with
  | false => answer teardownFailed
  | true =>
    (driveClose i tenant leaseId status).bind fun driven =>
    match driven with
    | .error response => answer response
    | .ok (metrics, captureIncomplete) =>
      releaseClosed i tenant leaseId (closeMetrics req metrics) captureIncomplete

def claimedStatus (status : String) : Option JobStatus :=
  if status = "succeeded" then some .succeeded
  else if status = "failed" then some .failed
  else none

def close (i : Nat) (tenant : TenantId) (leaseId : String) (req : CloseRequest) : Path Response :=
  ask (.row (.get leaseId)) fun found =>
  match found with
  | .error _ => answer (errorResponse .failClosed "lease ledger unreadable")
  | .ok none => answer notFound
  | .ok (some record) =>
    if record.tenant ≠ tenant then answer notFound
    else
      match record.state with
      | .pending => answer notFound
      | .wire .released | .wire .expired | .wire .crashed =>
        answer (errorResponse .invalid
          "lease is not held (released/expired/crashed): nothing to close")
      | .wire .held =>
        match claimedStatus req.status with
        | none =>
          answer (errorResponse .invalid ("unknown close status \"" ++ req.status
            ++ "\": expected \"succeeded\" or \"failed\""))
        | some status =>
          if !req.memoKeyMatches then
            answer (errorResponse .invalid
              ("check_result.memo_key does not match its own input axes (tree_hash/def_digest/"
                ++ "toolchain_digest) under the frozen memo-key formula: refusing to attest a "
                ++ "result whose memo_key lies"))
          else closeHeld i tenant leaseId status req

def ingestAll (i : Nat) (leaseId : String) :
    List TranscriptEvent → Bool → Path (Except Response Bool)
  | [], wroteTurn => answer (.ok wroteTurn)
  | ev :: rest, wroteTurn =>
    ask (.hook i (.write leaseId ev)) fun written =>
    match written with
    | .error e =>
      answer (.error (errorResponse .failClosed ("capture hook refused the event: " ++ e)))
    | .ok () =>
      let isTurn := match ev with
        | .modelTurn .. => true
        | _ => false
      ingestAll i leaseId rest (wroteTurn || isTurn)

def checkpointTurn (cfg : ServerConfig) (i : Nat) (leaseId : String) (price : PriceCard) :
    Path Unit :=
  ask (.hook i (.snapshotMetrics leaseId price)) fun metrics =>
  match cfg.metricsToString metrics with
  | .error _ => answer ()
  | .ok json => ask (.row (.setEnvelopeCheckpoint leaseId json)) fun _ => answer ()

/-- Take in the events of a box, whose ingest token was verified. -/
def ingest (cfg : ServerConfig) (i : Nat) (leaseId : String) (events : List TranscriptEvent) :
    Path Response :=
  ask (.hook i (.closeHandleAny leaseId)) fun handle =>
  match handle with
  | none => answer (errorResponse .notFound "lease not found")
  | some price =>
    if events.isEmpty then answer (errorResponse .invalid "no events in ingest body")
    else
      (ingestAll i leaseId events false).bind fun ingested =>
      match ingested with
      | .error response => answer response
      | .ok false => answer (.ok .empty)
      | .ok true => (checkpointTurn cfg i leaseId price).bind fun _ => answer (.ok .empty)

/-! ## The sweeps -/

/-- Record what is known of a lease that ended abnormally: from its hook, from the durable
checkpoint, or that nothing was captured. -/
def flushPartialEnvelope (cfg : ServerConfig) (i : Nat) (leaseId : String) (kind : AbnormalKind) :
    Path Unit :=
  ask (.hook i (.closeHandleAny leaseId)) fun handle =>
  match handle with
  | some price =>
    ask (.hook i (.closeAbnormal leaseId kind price)) fun closed =>
    match closed with
    | .ok outcome =>
      act (.hook i (.emitForensic leaseId .localHook outcome.closeReason outcome.metrics)) <|
      answer ()
    -- a close consumed the hook before the sweep
    | .error _ => answer ()
  | none =>
    ask (.row (.getEnvelopeCheckpoint leaseId)) fun checkpoint =>
    match (checkpoint.toOption.bind id).bind cfg.metricsFromStr with
    | some metrics =>
      act (.hook i (.emitForensic leaseId .durableCheckpoint kind.reason metrics)) <| answer ()
    | none => act (.hook i (.emitForensic leaseId .noCapture kind.reason zeroMetrics)) <| answer ()

/-- What a sweep does about a lease it has moved to a terminal state. -/
def afterSweep (cfg : ServerConfig) (i : Nat) (record : LeaseRecord) (kind : AbnormalKind)
    (slot : SlotEventKind) (counter : Counter) : Path Unit :=
  act (.cred i (.revokePatFor record.leaseId)) <|
  (flushPartialEnvelope cfg i record.leaseId kind).bind fun _ =>
  act (.side i (.forgetLease record.leaseId)) <|
  act (.meter i (.recordSlot record.leaseId record.tenant slot record.billingAcquiredAtMs)) <|
  act (.meter i (.count counter record.leaseId)) <| answer ()

def overdue (nowMs : Nat) (record : LeaseRecord) : Bool :=
  record.deadlineMs.getD Word.maxU64 ≤ nowMs

def rowsOf (read : Result (List LeaseRecord)) : List LeaseRecord :=
  match read with
  | .ok rows => rows
  | .error _ => []

def reapAll (cfg : ServerConfig) (i nowMs : Nat) : List LeaseRecord → Nat → Path Nat
  | [], reaped => answer reaped
  | record :: rest, reaped =>
    ask (.box i (.teardown record.leaseId)) fun torn =>
    match torn with
    | false => reapAll cfg i nowMs rest reaped
    | true =>
      ask (.row (.transition record.leaseId .expired (some nowMs))) fun expired =>
      match expired with
      | .error _ => reapAll cfg i nowMs rest reaped
      | .ok _ =>
        (afterSweep cfg i record .expiry .expired .leasesExpired).bind fun _ =>
        reapAll cfg i nowMs rest (reaped + 1)

def reapOnce (cfg : ServerConfig) (i : Nat) : Path Nat :=
  ask (.outer (.nowMs none)) fun nowMs =>
  ask (.row .held) fun held => reapAll cfg i nowMs ((rowsOf held).filter (overdue nowMs)) 0

def surfaceAll (cfg : ServerConfig) (i nowMs : Nat) : List LeaseRecord → Nat → Path Nat
  | [], reaped => answer reaped
  | record :: rest, reaped =>
    ask (.box i (.probe record.leaseId)) fun status =>
    match status with
    | .ok .dead =>
      ask (.box i (.teardown record.leaseId)) fun torn =>
      match torn with
      | false => surfaceAll cfg i nowMs rest reaped
      | true =>
        ask (.row (.transition record.leaseId .crashed (some nowMs))) fun crashed =>
        match crashed with
        | .error _ => surfaceAll cfg i nowMs rest reaped
        | .ok _ =>
          (afterSweep cfg i record .crash .crashed .leasesCrashed).bind fun _ =>
          surfaceAll cfg i nowMs rest (reaped + 1)
    | .ok .alive | .ok .unbound | .error _ => surfaceAll cfg i nowMs rest reaped

def surfaceCrashes (cfg : ServerConfig) (i : Nat) : Path Nat :=
  ask (.outer (.nowMs none)) fun nowMs =>
  ask (.row .held) fun held => surfaceAll cfg i nowMs (rowsOf held) 0

def killAll (i : Nat) (tenant : TenantId) : List String → Nat → Path Nat
  | [], killed => answer killed
  | leaseId :: rest, killed =>
    ask (.box i (.teardown leaseId)) fun torn =>
    act (.cred i (.revokePatFor leaseId)) <|
    match torn with
    | false => killAll i tenant rest killed
    | true =>
      ask (.row (.transition leaseId .crashed none)) fun crashed =>
      match crashed with
      | .error _ => killAll i tenant rest killed
      | .ok _ =>
        act (.meter i (.recordSlot leaseId tenant .crashed none)) <|
        act (.side i (.forgetLease leaseId)) <|
        killAll i tenant rest (killed + 1)

def killTenantLeases (i : Nat) (tenant : TenantId) : Path Nat :=
  ask (.row (.byTenant tenant)) fun rows =>
  let held := (rowsOf rows).filter fun record => record.state.isHeld
  killAll i tenant (held.map LeaseRecord.leaseId) 0

def sweepAll (i : Nat) : List LeaseRecord → Nat → Path Nat
  | [], finished => answer finished
  | row :: rest, finished =>
    ask (.box i (.teardownPending row.leaseId)) fun torn =>
    match torn with
    | .retryable | .unconfirmed => sweepAll i rest finished
    | .confirmedDestroyed =>
      ask (.row (.finishPendingCleanup row.leaseId)) fun removed =>
      match removed with
      | .ok false | .error _ => sweepAll i rest finished
      | .ok true =>
        act (.box i (.forgetPendingCleanup row.leaseId)) <|
        act (.cred i (.revokePatFor row.leaseId)) <|
        act (.side i (.forgetLease row.leaseId)) <|
        sweepAll i rest (finished + 1)

def sweepStalePending (i : Nat) (maxAgeMs : Nat) : Path Nat :=
  ask (.outer (.nowMs none)) fun nowMs =>
  ask (.row (.claimStalePendingCleanup nowMs maxAgeMs)) fun claimed => sweepAll i (rowsOf claimed) 0

/-! ## Enforcement -/

def suspend (i : Nat) (tenant : TenantId) : Path Response :=
  ask (.gate i (.suspendTenantWithEvent tenant)) fun recorded =>
  match recorded with
  | .error _ => answer (errorResponse .failClosed "suspension persistence unavailable")
  | .ok newly =>
    let kill : Path Response :=
      (killTenantLeases i tenant).bind fun killed => answer (.ok (.suspended tenant killed))
    if newly then act (.meter i (.count .suspendActions "")) kill else kill

def unsuspend (i : Nat) (tenant : TenantId) : Path Response :=
  ask (.gate i (.unsuspendTenant tenant)) fun recorded =>
  match recorded with
  | .error _ => answer (errorResponse .failClosed "suspension persistence unavailable")
  | .ok _ => answer (.ok (.unsuspended tenant))

end CorelinkRunners.Server
