import CorelinkRunners.Server.Stages

/-!
# Every call follows the discipline

One lemma for each program, and with them the programs of all calls and what goes on of a dropped
handler (`rule_covers`). Most programs settle: from a stage with no slot event due, whatever they
are answered, they come to such a stage.
-/

namespace CorelinkRunners.Server

open Kit Envelope

variable {A : Type} {cfg : ServerConfig} {call : Call} {i : Nat} {g : Stage} {leaseId : String}
  {tenant : TenantId} {pat : String} {req : AcquireRequest} {minted : MintedLease} {nowMs : Nat}

/-! ## Rolling back -/

theorem finishRollback_settles : Settles call (finishRollback i leaseId) := by
  refine .ask rfl fun finished _ => ?_
  split
  · exact .act rfl .answer
  · exact .answer
  · exact .answer

theorem rollbackPendingAdmission_settles (phase : PendingRollbackPhase) :
    Settles call (rollbackPendingAdmission i leaseId phase) := by
  refine .ask rfl fun claimed _ => ?_
  split
  · exact .answer
  · exact .answer
  · cases phase with
    | beforeProvision => exact finishRollback_settles
    | afterProvision =>
      refine .ask rfl fun torn _ => ?_
      cases torn with
      | confirmedDestroyed => exact finishRollback_settles
      | retryable => exact .answer
      | unconfirmed => exact .answer

theorem crashUndispatched_follows (idle : g.due = none) (torn : leaseId ∈ g.torn) :
    Obeys rule call (fun _ g' => g'.due = none) (crashUndispatched i tenant leaseId) g := by
  refine Obeys.transition idle torn (fun row g' due _ => ?_) fun _ => idle
  exact Obeys.chore due rfl rfl (.inl rfl) fun _ _ _ due => Obeys.records due fun _ idle _ => idle

theorem rollbackUndispatchedLease_settles (phase : PendingRollbackPhase) :
    Settles call (rollbackUndispatchedLease i tenant leaseId phase) := by
  intro g idle
  refine Obeys.get idle (fun row named g' idle' known => ?_) idle fun _ => idle
  split
  next held =>
    refine Obeys.teardown idle' (known (Option.some.inj held)) (fun g1 idle1 torn _ => ?_) ?_
    · refine ⟨g1.allows_idle idle1 trivial, fun _ _ => ?_⟩
      exact crashUndispatched_follows idle1 torn
    · exact Settles.act rfl .answer g' idle'
  · exact Settles.bind (rollbackPendingAdmission_settles phase) (fun _ => .act rfl .answer) g' idle'
  all_goals exact idle'

/-! ## Finalizing -/

theorem refuseBeforeProvision_settles (what : String) :
    Settles call (refuseBeforeProvision i leaseId what) :=
  .bind (rollbackPendingAdmission_settles _) fun _ => .answer

theorem mintRunner_settles : Settles call (mintRunner cfg i leaseId req) := by
  unfold mintRunner
  split
  · exact .answer
  split
  · exact refuseBeforeProvision_settles _
  refine .ask rfl fun minted _ => ?_
  split
  · exact .answer
  · exact refuseBeforeProvision_settles _

theorem mintCasPat_settles : Settles call (mintCasPat cfg i tenant leaseId req) := by
  unfold mintCasPat
  split
  · exact .answer
  split
  · exact .answer
  · exact refuseBeforeProvision_settles _
  refine .act rfl (.act rfl (.ask rfl fun minted _ => ?_))
  split
  · exact .act rfl .answer
  · exact .act rfl (refuseBeforeProvision_settles _)

theorem provisionLease_follows (idle : g.due = none) (spec : ContainerSpec) :
    Obeys rule call (fun provisioned g' => g'.due = none ∧
      (provisioned = .ok () → leaseId ∈ g'.known))
      (provisionLease i leaseId spec) g := by
  refine ⟨g.allows_idle idle trivial, fun provisioned _ => ?_⟩
  match provisioned with
  | .error e => exact ⟨idle, nofun⟩
  | .ok providerRef =>
    refine ⟨Stage.allows_idle idle trivial, fun bound _ => ?_⟩
    cases bound with
    | error e => exact ⟨idle, nofun⟩
    | ok row => exact ⟨idle, fun _ => List.mem_cons_self⟩

theorem provisionFailed_settles (e : ProvisionError) :
    Settles call (provisionFailed i leaseId e) := by
  refine .bind (rollbackPendingAdmission_settles _) fun cleaned => ?_
  split
  · exact .answer
  · exact .act rfl .answer
  · exact .act rfl .answer

theorem publishLease_settles : Settles call (publishLease i tenant pat minted req) := by
  refine .act rfl ?_
  split
  · refine .act rfl ?_
    split
    · exact .act rfl (.act rfl .answer)
    · exact .act rfl .answer
  · split
    · exact .act rfl (.act rfl .answer)
    · exact .act rfl .answer

theorem recordHeld_follows (idle : g.due = none) (known : minted.leaseId ∈ g.known) :
    Obeys rule call (fun _ g' => g'.due = none) (recordHeld i tenant pat minted req nowMs) g := by
  refine Obeys.transition idle known (fun row g' due _ => ?_) fun _ => ?_
  · refine Obeys.records due fun g1 idle1 _ => ?_
    exact Settles.act rfl publishLease_settles g1 idle1
  · exact Settles.act rfl (.bind (rollbackPendingAdmission_settles _) fun _ => .act rfl .answer)
      g idle

/-- **The finalize** moves its lease to Held only after it spawned the box. -/
theorem finalizeAdmittedLease_settles :
    Settles call (finalizeAdmittedLease cfg i tenant pat minted req) := by
  refine .ask rfl fun nowMs _ => .bind mintRunner_settles fun refused => ?_
  split
  · exact .answer
  refine .bind mintCasPat_settles fun refused => ?_
  split
  · exact .answer
  intro g idle
  refine .bind (provisionLease_follows idle minted.spec) ?_
  rintro provisioned g' ⟨idle', known⟩
  cases provisioned with
  | error e => exact provisionFailed_settles e g' idle'
  | ok _ => exact recordHeld_follows idle' (known rfl)

/-! ## The client's paths -/

section Client

theorem cancelTorn_follows (idle : g.due = none) (torn : leaseId ∈ g.torn) :
    Obeys rule call (fun _ g' => g'.due = none) (cancelTorn i tenant leaseId) g := by
  refine Obeys.transition idle torn (fun row g' due _ => ?_) fun _ => ?_
  · refine Obeys.records due fun g1 idle1 _ => ?_
    exact Settles.act rfl (.act rfl (.act rfl .answer)) g1 idle1
  · refine Settles.ask rfl (fun again _ => ?_) g idle
    split
    · exact .answer
    · exact .answer

theorem cancel_settles : Settles call (cancel i tenant leaseId) := by
  intro g idle
  refine Obeys.get idle (fun row named g' idle' known => ?_) idle fun _ => idle
  dsimp only
  split
  · exact idle'
  split
  case h_5 held =>
    exact Obeys.teardown idle' (known held)
      (fun _ idle1 torn _ => cancelTorn_follows idle1 torn) idle'
  all_goals exact idle'

theorem driveClose_settles (status : JobStatus) :
    Settles call (driveClose i tenant leaseId status) := by
  refine .ask rfl fun handle _ => ?_
  split
  · exact .answer
  refine .ask rfl fun permit _ => ?_
  split
  · exact .answer
  refine .ask rfl fun begun _ => ?_
  split
  · exact .answer
  refine .ask rfl fun outcome _ => ?_
  split
  · exact .answer
  · exact .answer

theorem releaseClosed_follows (idle : g.due = none) (torn : leaseId ∈ g.torn)
    (metrics : IntentMetrics) (incomplete : Bool) : Obeys rule call (fun _ g' => g'.due = none)
      (releaseClosed i tenant leaseId metrics incomplete) g := by
  refine Obeys.transition idle torn (fun row g' due _ => ?_) fun _ => idle
  refine Obeys.chore due rfl rfl (.inl rfl) fun _ _ g1 due1 => Obeys.records due1 fun g2 idle2 _ =>
    ?_
  exact Settles.act rfl (.act rfl (.act rfl .answer)) g2 idle2

theorem closeHeld_follows (idle : g.due = none) (known : leaseId ∈ g.known) (status : JobStatus)
    (close : CloseRequest) :
    Obeys rule call (fun _ g' => g'.due = none) (closeHeld i tenant leaseId status close) g := by
  refine Obeys.teardown idle known (fun g' idle' torn _ => ?_) idle
  refine Obeys.bind (Obeys.grown (driveClose_settles status g' idle')) ?_
  rintro driven g1 ⟨idle1, grows⟩
  cases driven with
  | error response => exact idle1
  | ok found => exact releaseClosed_follows idle1 (grows.torn torn) _ _

theorem close_settles (close : CloseRequest) :
    Settles call (Server.close i tenant leaseId close) := by
  intro g idle
  refine Obeys.get idle (fun row named g' idle' known => ?_) idle fun _ => idle
  dsimp only
  split
  · exact idle'
  split
  case h_5 held =>
    split
    · exact idle'
    next status _ =>
      split
      · exact idle'
      · exact closeHeld_follows idle' (known held) status close
  all_goals exact idle'

theorem ingestAll_settles (events : List TranscriptEvent) (wroteTurn : Bool) :
    Settles call (ingestAll i leaseId events wroteTurn) := by
  induction events generalizing wroteTurn with
  | nil => exact .answer
  | cons ev rest ih =>
    refine .ask rfl fun written _ => ?_
    split
    · exact .answer
    · exact ih _

theorem ingest_settles (events : List TranscriptEvent) :
    Settles call (ingest cfg i leaseId events) := by
  refine .ask rfl fun handle _ => ?_
  split
  · exact .answer
  split
  · exact .answer
  refine .bind (ingestAll_settles events false) fun ingested => ?_
  split
  · exact .answer
  · exact .answer
  refine .bind (.ask rfl fun metrics _ => ?_) fun _ => .answer
  split
  · exact .answer
  · exact .act rfl .answer

end Client

/-! ## The sweeps -/

section Sweep

variable {kind : SlotEventKind}

theorem flushPartialEnvelope_follows (due : g.due = some (leaseId, kind))
    (background : call.isRequest = false) (abnormal : AbnormalKind) :
    Obeys rule call (fun _ g' => g'.due = some (leaseId, kind))
      (flushPartialEnvelope cfg i leaseId abnormal) g := by
  have emit {source : ForensicSource} {reason : CloseReason} {metrics : IntentMetrics} {g : Stage}
      (due : g.due = some (leaseId, kind)) : Obeys rule call
        (fun _ g' => g'.due = some (leaseId, kind))
        (Path.act (.hook i (.emitForensic leaseId source reason metrics)) (Path.answer ())) g :=
    Obeys.chore due rfl rfl (.inl rfl) fun _ _ _ due => due
  refine Obeys.chore due rfl rfl (.inr background) fun handle _ g1 due1 => ?_
  cases handle with
  | some price =>
    refine Obeys.chore due1 rfl rfl (.inr background) fun closed _ g2 due2 => ?_
    cases closed with
    | error e => exact due2
    | ok outcome => exact emit due2
  | none =>
    refine Obeys.chore due1 rfl rfl (.inr background) fun checkpoint _ g2 due2 => ?_
    split
    · exact emit due2
    · exact emit due2

theorem afterSweep_follows {record : LeaseRecord} (due : g.due = some (record.leaseId, kind))
    (background : call.isRequest = false) (abnormal : AbnormalKind) (counter : Counter) :
    Obeys rule call (fun _ g' => g'.due = none)
      (afterSweep cfg i record abnormal kind counter) g := by
  refine Obeys.chore due rfl rfl (.inr background) fun _ _ g1 due1 => ?_
  refine Obeys.bind (flushPartialEnvelope_follows due1 background abnormal) fun _ g2 due2 => ?_
  refine Obeys.chore due2 rfl rfl (.inl rfl) fun _ _ g3 due3 => Obeys.records due3 fun g4 idle _ =>
    ?_
  exact Settles.act rfl .answer g4 idle

variable (records : List LeaseRecord) (reaped : Nat)

theorem reapAll_follows (idle : g.due = none)
    (known : ∀ record ∈ records, record.leaseId ∈ g.known) :
    Obeys rule (.reapOnce i) (fun _ g' => g'.due = none)
      (reapAll cfg i nowMs records reaped) g := by
  induction records generalizing g reaped with
  | nil => exact idle
  | cons record rest ih =>
    have next {g' : Stage} (idle' : g'.due = none) (grows : g.Grows g') (reaped : Nat) :=
      ih reaped idle' fun other member => grows.known (known other (.tail _ member))
    refine Obeys.teardown idle (known record List.mem_cons_self) (fun g1 idle1 torn grows1 => ?_)
      (next idle (.refl g) _)
    refine Obeys.transition idle1 torn (fun row g2 due grows2 => ?_) fun _ => next idle1 grows1 _
    refine Obeys.bind (Obeys.grown (afterSweep_follows due rfl _ _)) fun _ g3 ended => ?_
    exact next ended.1 ((grows1.trans grows2).trans ended.2) _

theorem surfaceAll_follows (idle : g.due = none)
    (known : ∀ record ∈ records, record.leaseId ∈ g.known) :
    Obeys rule (.surfaceCrashes i) (fun _ g' => g'.due = none)
      (surfaceAll cfg i nowMs records reaped) g := by
  induction records generalizing g reaped with
  | nil => exact idle
  | cons record rest ih =>
    have next {g' : Stage} (idle' : g'.due = none) (grows : g.Grows g') (reaped : Nat) :=
      ih reaped idle' fun other member => grows.known (known other (.tail _ member))
    refine ⟨g.allows_idle idle trivial, fun status _ => ?_⟩
    match status with
    | .error _ => exact next idle (.refl g) _
    | .ok .alive => exact next idle (.refl g) _
    | .ok .unbound => exact next idle (.refl g) _
    | .ok .dead =>
      refine Obeys.teardown idle (known record List.mem_cons_self) (fun g1 idle1 torn grows1 => ?_)
        (next idle (.refl g) _)
      refine Obeys.transition idle1 torn (fun row g2 due grows2 => ?_) fun _ => next idle1 grows1 _
      refine Obeys.bind (Obeys.grown (afterSweep_follows due rfl _ _)) fun _ g3 ended => ?_
      exact next ended.1 ((grows1.trans grows2).trans ended.2) _

theorem reapOnce_settles : Settles (.reapOnce i) (reapOnce cfg i) := by
  refine .ask rfl fun nowMs _ g idle => ⟨g.allows_idle idle trivial, fun held _ => ?_⟩
  cases held with
  | error e => exact reapAll_follows [] 0 idle nofun
  | ok rows =>
    refine reapAll_follows _ 0 idle fun record overdue => List.mem_append_left _ ?_
    exact List.mem_map_of_mem (List.mem_of_mem_filter overdue)

theorem surfaceCrashes_settles : Settles (.surfaceCrashes i) (surfaceCrashes cfg i) := by
  refine .ask rfl fun nowMs _ g idle => ⟨g.allows_idle idle trivial, fun held _ => ?_⟩
  cases held with
  | error e => exact surfaceAll_follows [] 0 idle nofun
  | ok rows =>
    refine surfaceAll_follows _ 0 idle fun record known => List.mem_append_left _ ?_
    exact List.mem_map_of_mem known

theorem sweepAll_settles (rows : List LeaseRecord) (finished : Nat) :
    Settles call (sweepAll i rows finished) := by
  induction rows generalizing finished with
  | nil => exact .answer
  | cons row rest ih =>
    refine .ask rfl fun torn _ => ?_
    split
    · exact ih finished
    · exact ih finished
    refine .ask rfl fun removed _ => ?_
    split
    · exact ih finished
    · exact ih finished
    · exact .act rfl (.act rfl (.act rfl (ih _)))

end Sweep

/-! ## Enforcement -/

theorem killAll_follows (ids : List String) (killed : Nat) (idle : g.due = none)
    (known : ∀ id ∈ ids, id ∈ g.known) :
    Obeys rule call (fun _ g' => g'.due = none) (killAll i tenant ids killed) g := by
  induction ids generalizing g killed with
  | nil => exact idle
  | cons id rest ih =>
    have next {g' : Stage} (idle' : g'.due = none) (grows : g.Grows g') (killed : Nat) :=
      ih killed idle' fun other member => grows.known (known other (.tail _ member))
    refine Obeys.teardown idle (known id List.mem_cons_self) (fun g1 idle1 torn grows1 => ?_)
      ⟨g.allows_idle idle trivial, fun _ _ => next idle (.refl g) _⟩
    refine ⟨g1.allows_idle idle1 trivial, fun _ _ => ?_⟩
    refine Obeys.transition idle1 torn (fun row g2 due grows2 => ?_) fun _ => next idle1 grows1 _
    refine Obeys.records due fun g3 idle3 grows3 => ⟨g3.allows_idle idle3 trivial, fun _ _ => ?_⟩
    exact next idle3 ((grows1.trans grows2).trans grows3) _

theorem killTenantLeases_settles : Settles call (killTenantLeases i tenant) := by
  refine fun g idle => ⟨g.allows_idle idle trivial, fun rows _ => ?_⟩
  cases rows with
  | error e => exact killAll_follows [] 0 idle nofun
  | ok rows => exact killAll_follows _ 0 idle fun id member => List.mem_append_left _ member

theorem suspend_settles : Settles call (suspend i tenant) := by
  refine .ask rfl fun recorded _ => ?_
  split
  · exact .answer
  have kill : Settles call ((killTenantLeases i tenant).bind fun killed =>
      Path.answer (.ok (.suspended tenant killed)) : Path Response) :=
    .bind killTenantLeases_settles fun _ => .answer
  split
  · exact .act rfl kill
  · exact kill

theorem unsuspend_settles : Settles call (unsuspend i tenant) := by
  refine .ask rfl fun recorded _ => ?_
  split
  · exact .answer
  · exact .answer

/-! ## Acquiring -/

section Acquire

theorem evictWaiter_settles {k : Path A} (rest : Settles call k) :
    Settles call (evictWaiter cfg i leaseId k) := by
  refine .act rfl ?_
  split
  · exact .act rfl rest
  · exact rest

theorem shed_settles (counter : Counter) (message : String) :
    Settles call (shed i counter leaseId tenant message) := .act rfl (.act rfl .answer)

theorem awaitDispatch_settles : Settles call (awaitDispatch cfg i leaseId tenant) := by
  refine .ask rfl fun found _ => ?_
  split
  · exact .act rfl .answer
  · exact shed_settles _ _
  · exact .act rfl (.act rfl (evictWaiter_settles (shed_settles _ _)))

theorem enqueueDurably_settles : Settles call (enqueueDurably cfg i leaseId tenant nowMs) := by
  unfold enqueueDurably
  split
  · refine .ask rfl fun queued _ => ?_
    split
    · exact awaitDispatch_settles
    · exact .act rfl (evictWaiter_settles (shed_settles _ _))
  · exact awaitDispatch_settles

theorem insertWaiter_settles {queued : QueuedAcquire} {k : Path A}
    (pending : queued.pending.state = .pending) (rest : Settles call k) :
    Settles call (Path.act (.queue i (.insertWaiter leaseId queued)) k) :=
  fun g idle => ⟨g.allows_idle idle pending, fun _ _ => rest g idle⟩

theorem acquireQueued_settles : Settles call (acquireQueued cfg i tenant pat req minted nowMs) := by
  unfold acquireQueued
  split
  · exact .act rfl .answer
  refine .ask rfl fun permit _ => ?_
  split
  · exact .act rfl .answer
  refine .act rfl (insertWaiter_settles rfl (.ask rfl fun queued _ => ?_))
  split
  · exact .act rfl (shed_settles _ _)
  · exact enqueueDurably_settles

theorem acquireAdmitted_settles : Settles call (acquireAdmitted cfg i tenant pat minted req) := by
  refine .bind finalizeAdmittedLease_settles fun outcome => ?_
  split
  · exact .answer
  · exact .act rfl (.act rfl .answer)

theorem reserve_settles (plan : Plan) :
    Settles call (reserve cfg i tenant pat plan minted req nowMs) := by
  refine .ask rfl fun ceiling _ => ?_
  split
  · exact .answer
  intro g idle
  refine ⟨g.allows_idle idle rfl, fun outcome _ => ?_⟩
  match outcome with
  | .ok .admitted => exact acquireAdmitted_settles g idle
  | .ok .overConcurrency =>
    split
    · exact acquireQueued_settles g idle
    · exact Settles.act rfl .answer g idle
  | .ok .overCompute => exact Settles.act rfl .answer g idle
  | .error _ => exact Settles.act rfl .answer g idle

theorem mintAndReserve_settles (plan : Plan) :
    Settles call (mintAndReserve cfg i leaseId tenant pat plan req nowMs) := by
  unfold mintAndReserve
  split
  · exact .act rfl .answer
  split
  · exact .act rfl (reserve_settles plan)
  · exact reserve_settles plan

theorem acquirePlanned_settles :
    Settles call (acquirePlanned cfg i leaseId tenant pat req nowMs) := by
  refine .ask rfl fun resolved _ => ?_
  split
  · exact .act rfl .answer
  · exact .answer
  · exact .answer
  · exact .answer
  split
  · exact .act rfl .answer
  refine .ask rfl fun limited _ => ?_
  split
  · exact .act rfl .answer
  · exact mintAndReserve_settles _

theorem acquirePermitted_settles :
    Settles call (acquirePermitted cfg i leaseId tenant pat req nowMs) := by
  unfold acquirePermitted
  dsimp only
  split
  · exact .act rfl .answer
  refine .ask rfl fun found _ => ?_
  split
  · exact .answer
  · exact .answer
  · exact acquirePlanned_settles

theorem acquire_settles : Settles call (acquire cfg i leaseId tenant pat req) := by
  refine .ask rfl fun ready _ => ?_
  split
  · exact .answer
  refine .ask rfl fun nowMs _ => ?_
  split
  · exact .answer
  refine .ask rfl fun suspended _ => ?_
  split
  · exact .act rfl .answer
  · exact acquirePermitted_settles

end Acquire

/-! ## The admission loop -/

section Tick

theorem claimFair_follows (idle : g.due = none) (localIds : List String) (n : Nat)
    (byId : OrdMap String Candidate) (fair : List Candidate)
    (known : ∀ (id : String) (c : Candidate), byId[id]? = some c → c.Fits)
    (chosen : ∀ c ∈ fair, c.Fits) :
    Obeys rule call (fun (fair' : List Candidate) g' => g'.due = none ∧ ∀ c ∈ fair', c.Fits)
      (claimFair i localIds n byId fair) g := by
  induction n generalizing byId fair g with
  | zero => exact ⟨idle, chosen⟩
  | succ n ih =>
    refine Obeys.inert idle rfl fun claimed _ g' idle' => ?_
    match claimed with
    | .error _ => exact ⟨idle', chosen⟩
    | .ok none => exact ⟨idle', chosen⟩
    | .ok (some id) =>
      dsimp only
      split
      next candidate at_id =>
        refine ih idle' _ _ (fun other c at_other => ?_) fun c member => ?_
        · rw [OrdMap.get_erase] at at_other
          split at at_other
          · nomatch at_other
          · exact known other c at_other
        · rcases List.mem_append.mp member with before | last
          · exact chosen c before
          · rw [List.mem_singleton.mp last]
            exact known id candidate at_id
      · exact ih idle' _ _ known chosen

variable (candidates : List Candidate)

theorem byId_fits (fits : ∀ c ∈ candidates, c.Fits) (byId : OrdMap String Candidate)
    (known : ∀ (id : String) (c : Candidate), byId[id]? = some c → c.Fits) (id : String)
    (c : Candidate)
    (at_id : (candidates.foldl (fun m c => m.insert c.item.id c) byId)[id]? = some c) : c.Fits := by
  induction candidates generalizing byId with
  | nil => exact known id c at_id
  | cons first rest ih =>
    refine ih (fun c h => fits c (.tail _ h)) _ (fun other c' at_other => ?_) at_id
    rw [OrdMap.get_insert] at at_other
    split at at_other
    · exact Option.some.inj at_other ▸ fits first List.mem_cons_self
    · exact known other c' at_other

theorem fairOrderOf_follows (idle : g.due = none) (candidates : List Candidate)
    (fits : ∀ c ∈ candidates, c.Fits) :
    Obeys rule call (fun (fair : List Candidate) g' => g'.due = none ∧ ∀ c ∈ fair, c.Fits)
      (fairOrderOf cfg i candidates) g := by
  unfold fairOrderOf
  split
  · refine claimFair_follows idle _ _ _ [] (byId_fits candidates fits ∅ ?_) nofun
    intro id c at_id
    rw [Std.ExtTreeMap.getElem?_empty] at at_id
    nomatch at_id
  · exact ⟨idle, fits⟩

variable (item : WorkItem)

theorem requeue_settles {k : Path A} (rest : Settles call k) :
    Settles call (requeue cfg i item k) := by
  unfold requeue
  split
  · exact .act rfl (.act rfl rest)
  · exact .act rfl rest

theorem reserveOutcome_settles {k : Reserved → Path Reserved} (outcome : Result AdmitOutcome)
    (reserved : Reserved) (rest : ∀ reserved', Settles call (k reserved')) :
    Settles call (reserveOutcome cfg i item outcome reserved k) := by
  unfold reserveOutcome
  split
  · dsimp only
    split
    · exact .act rfl (rest _)
    · exact rest _
  · exact rest _
  · exact rest _
  · exact requeue_settles item (rest reserved)

theorem reserveAll_settles (fits : ∀ c ∈ candidates, c.Fits) (reserved : Reserved) :
    Settles call (reserveAll cfg i nowMs candidates reserved) := by
  induction candidates generalizing reserved with
  | nil => exact .answer
  | cons candidate rest ih =>
    have later := ih fun c h => fits c (.tail _ h)
    unfold reserveAll
    split
    · exact later reserved
    next pending ttlMs waiting =>
      refine .ask rfl fun cap _ => .ask rfl fun ceiling _ => ?_
      split
      · exact later _
      refine fun g idle => ⟨g.allows_idle idle ?_, fun outcome _ => ?_⟩
      · exact fits candidate List.mem_cons_self (pending, ttlMs) waiting
      · exact reserveOutcome_settles candidate.item outcome reserved later g idle

theorem rejectAll_settles (rejections : List Rejection) :
    Settles call (rejectAll cfg i rejections) := by
  induction rejections with
  | nil => exact .answer
  | cons rejection rest ih =>
    refine .ask rfl fun waiter _ => evictWaiter_settles ?_
    split
    · exact ih
    refine .ask rfl fun sent _ => ?_
    split
    · exact .act rfl ih
    · exact ih

theorem requeueWaiter_settles {k : Path A} {queued : QueuedAcquire}
    (pending : queued.pending.state = .pending) (rest : Settles call k) :
    Settles call (requeueWaiter i leaseId queued k) := by
  refine insertWaiter_settles pending (.ask rfl fun again _ => ?_)
  split
  · exact rest
  refine .ask rfl fun waiter _ => ?_
  split
  · exact rest
  refine .act rfl (.ask rfl fun sent _ => ?_)
  split
  · exact .act rfl rest
  · exact rest

theorem rollbackOrphan_settles : Settles call (rollbackOrphan i leaseId) := by
  refine .ask rfl fun found _ => ?_
  split
  · exact rollbackUndispatchedLease_settles _
  · exact .answer
  · exact .answer

theorem finalizeAll_settles (ids : List String) (dispatched : Nat) :
    Settles call (finalizeAll cfg i ids dispatched) := by
  induction ids generalizing dispatched with
  | nil => exact .answer
  | cons leaseId rest ih =>
    refine .ask rfl fun waiter possible => ?_
    match waiter, possible with
    | none, _ => exact .bind rollbackOrphan_settles fun _ => ih dispatched
    | some queued, pending =>
      refine .bind finalizeAdmittedLease_settles fun outcome => ?_
      split
      · exact requeueWaiter_settles pending (ih dispatched)
      refine .ask rfl fun sent _ => ?_
      split
      · exact ih _
      · exact .bind (rollbackUndispatchedLease_settles _) fun _ => ih dispatched

theorem runAdmissionTick_settles : Settles call (runAdmissionTick cfg i) := by
  refine .ask rfl fun nowMs _ => ?_
  split
  · exact .answer
  refine .ask rfl fun ready _ => ?_
  split
  · exact .answer
  refine .ask rfl fun candidates fits g idle => ?_
  refine .bind (fairOrderOf_follows idle candidates fits) ?_
  rintro fair g' ⟨idle', fits'⟩
  exact Settles.bind (reserveAll_settles fair fits' {})
    (fun _ => .bind (rejectAll_settles _) fun _ => finalizeAll_settles _ 0) g' idle'

end Tick

/-! ## All calls -/

theorem Stage.after_awaited {op : Op} (g : Stage) (awaits : op.awaits = true) (x : op.Ans) :
    (g.after op x).due = g.due := by
  by_cases inert : op.inert = true
  · exact g.after_inert inert x
  · unfold Op.inert at inert
    split at inert
    case h_3 => cases x <;> rfl
    case h_6 => exact absurd rfl inert
    all_goals nomatch awaits

theorem remnant_follows {op : Op} (allows : g.Allows call op) (idle : g.due = none)
    (awaits : op.awaits = true) : Obeys rule call (rule.ends call) (remnant op) g := by
  unfold remnant
  split
  · exact ((provisionLease_follows idle _).mono fun _ _ ended => ended.1).map
  · refine Settles.ask rfl (fun begun _ => ?_) g idle
    split
    · exact .answer
    · exact .act rfl .answer
  · exact Settles.act rfl (.act rfl .answer) g idle
  · exact ⟨allows, fun x _ => (g.after_awaited awaits x).trans idle⟩

theorem Settles.ends {p : Path A} {f : A → Reply} (h : Settles call p) :
    Obeys rule call (rule.ends call) (p.map f) {} :=
  ((h {} rfl).mono fun _ _ idle => idle).map

theorem prog_follows (cfg : ServerConfig) (call : Call) :
    Obeys rule call (rule.ends call) (call.prog cfg) {} := by
  cases call with
  | acquire => exact acquire_settles.ends
  | admissionTick => exact runAdmissionTick_settles.ends
  | close => exact (close_settles _).ends
  | cancel => exact cancel_settles.ends
  | reapOnce => exact reapOnce_settles.ends
  | surfaceCrashes => exact surfaceCrashes_settles.ends
  | sweepStalePending =>
    exact Settles.ends (.ask rfl fun _ _ => .ask rfl fun _ _ => sweepAll_settles _ 0)
  | suspend => exact suspend_settles.ends
  | unsuspend => exact unsuspend_settles.ends
  | ingest => exact (ingest_settles _).ends

/-- **Every program of the server follows the discipline**, within any terms. -/
theorem rule_covers [SerdeJson] {B : Type} (cfg : ServerConfig) (prov : BoxProvisioner B)
    (terms : Terms Op Op.Ans Outside Call Reply (World B)) :
    rule.Covers (server cfg prov) terms where
  prog call _ := prog_follows cfg call
  remnant _ _ _ _ request allows awaits :=
    remnant_follows allows (allows.awaits awaits request) awaits

end CorelinkRunners.Server
