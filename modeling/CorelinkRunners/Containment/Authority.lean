import CorelinkRunners.Containment.Records

/-!
# The containment authority

The storage of `ContainmentDO` as far as the queue of contained events and the redrive reservations
go, and the transactions on it. A transaction answers and leaves a new storage, or it throws; the
storage is rolled back then.

`crypto.randomUUID()` and the readings of `Date.now()` inside a transaction are arguments. The
records of the owner ledger and of earlier versions that `bootstrapContainedEventIndex` looks at are
written elsewhere; the storage only says whether they are there.
-/

namespace CorelinkRunners.Containment

open Kit

structure Store where
  meta_ : Option ContainmentMeta := none
  /-- The record that says that job indexes are in use. -/
  indexMeta : Bool := false
  events : Table String ContainmentEvent := ∅
  pauses : Table Nat ContainmentPause := ∅
  index : Table JobKey ContainmentJobIndex := ∅
  markers : Table JobKey ContainmentJobIndexMarker := ∅
  reservations : Table JobKey RedriveReservation := ∅
  /-- Is there an owner pointer for the redrive effect of the job? -/
  pointers : JobKey → Bool := fun _ => false
  legacyJobs : String → Bool := fun _ => false
  legacyIndexes : JobKey → Bool := fun _ => false

/-- A transaction: the answer and the storage it leaves, or what it throws. -/
abbrev Tx (A : Type) : Type := Except String (A × Store)

namespace Store

def head (s : Store) : ContainmentMeta := s.meta_.getD emptyContainmentMeta

theorem head_of_meta {s : Store} {head : ContainmentMeta} (headed : s.meta_ = some head) :
    s.head = head := by
  rw [Store.head, headed, Option.getD_some]

variable (s : Store)

/-! ## Job indexes -/

/-- The index of the job, if it and its marker are in order. -/
def ensureJobIndex (job : JobKey) : Except String ContainmentJobIndex :=
  if !s.indexMeta then .error "containment job index missing"
  else match s.index.get job with
    | none => .error "containment job index missing"
    | some existing =>
      if !isValidJobIndex existing job then .error "containment job index divergent"
      else match s.markers.get job with
        | none => .error "containment job index marker divergent"
        | some marker =>
          if isValidJobIndexMarker marker job then .ok existing
          else .error "containment job index marker divergent"

inductive BootstrapStatus
  | bootstrapped
  | alreadyPresent
  | blocked
  | invalid
  deriving DecidableEq

/-- Something else owns the job, or an earlier version left a record of it. -/
def isOwned (job : JobKey) : Bool :=
  (s.reservations.get job).isSome || s.pointers job || s.legacyJobs job.jobId || s.legacyIndexes job

/-- Set up the index and the marker of a job that nothing else owns. -/
def bootstrapContainedEventIndex (repo jobId : String) (now : Int) : BootstrapStatus × Store :=
  match normalizeRedriveIdentity repo jobId with
  | none => (.invalid, s)
  | some job =>
    match s.index.get job, s.markers.get job with
    | some existing, some marker =>
      if isValidJobIndex existing job && isValidJobIndexMarker marker job then (.alreadyPresent, s)
      else (.blocked, s)
    | some _, none => (.blocked, s)
    | none, some _ => (.blocked, s)
    | none, none =>
      if s.isOwned job then (.blocked, s)
      else (.bootstrapped, { s with
        indexMeta := true
        index := s.index.put job ⟨job, [], 0, now⟩
        markers := s.markers.put job ⟨job, now⟩ })

def listedError (job : JobKey) (eventId : String) : Option String :=
  match s.events.get eventId with
  | none => some "containment job index references missing event"
  | some event =>
    if normalizeRedriveIdentity event.job.repo event.job.jobId = some job then none
    else some "containment job index identity divergent"

/-- Does an event of the job wait? -/
def containedEventExists (job : JobKey) : Except String Bool :=
  match s.ensureJobIndex job with
  | .error e => .error e
  | .ok index =>
    match index.activeEventIds.findSome? (s.listedError job) with
    | some e => .error e
    | none => .ok (decide (0 < index.activeCount))

/-! ## Appending -/

inductive AppendResult
  | appended (event : ContainmentEvent)
  | duplicate (event : ContainmentEvent)
  | conflict

/-- The event as it is stored: no caller can seed a claim, a permit or a state. -/
def newEvent (event : IncomingEvent) (job : JobKey) (pauseSeq : Nat) : ContainmentEvent where
  eventId := event.eventId
  pauseSeq
  receivedAtMs := event.receivedAtMs
  bodySha256 := event.bodySha256
  rawPayload := event.rawPayload
  action := event.action
  job
  installationId := event.installationId
  labels := event.labels
  effectId := event.effectId
  state := .queued
  claim := none
  effectPermit := none

/-- The event takes the next place of the queue and of the index of its job. -/
def enqueue (event : IncomingEvent) (index : ContainmentJobIndex) (job : JobKey) (stampMs : Int) :
    Store :=
  let head := s.head
  { s with
    events := s.events.put event.eventId (newEvent event job head.nextPauseSeq)
    pauses := s.pauses.put head.nextPauseSeq ⟨event.eventId, head.nextPauseSeq⟩
    index := s.index.put job { index with
      activeEventIds := index.activeEventIds ++ [event.eventId]
      activeCount := index.activeCount + 1
      updatedAtMs := stampMs }
    meta_ := some { head with
      nextPauseSeq := head.nextPauseSeq + 1
      backlogCount := head.backlogCount + 1 } }

/-- Append an event that is not there yet. -/
def appendInTransaction (event : IncomingEvent) (job : JobKey) (stampMs : Int) : Tx AppendResult :=
  -- the authority of the pair comes first: a duplicate does not bypass a missing marker
  match s.ensureJobIndex job with
  | .error e => .error e
  | .ok index =>
    match s.events.get event.eventId with
    | some prior =>
      if prior.bodySha256 = event.bodySha256 then .ok (.duplicate prior, s) else .ok (.conflict, s)
    | none =>
      if maxActiveIndexEvents ≤ index.activeCount then .error "containment job index bound exceeded"
      else .ok (.appended (newEvent event job s.head.nextPauseSeq),
        s.enqueue event index job stampMs)

def append (event : IncomingEvent) (stampMs : Int) : Tx AppendResult :=
  match normalizeRedriveIdentity event.repo event.jobId with
  | none => .error "invalid containment repo/job identity"
  | some job => s.appendInTransaction event job stampMs

inductive IntakeState
  | normal
  | paused
  | invalid
  deriving DecidableEq

inductive AdmitResult
  | continued
  | appended (event : ContainmentEvent)
  | duplicate (event : ContainmentEvent)
  | conflict
  | authorityBusy
  | redriveOwned

def AppendResult.admitted : AppendResult → AdmitResult
  | .appended event => .appended event
  | .duplicate event => .duplicate event
  | .conflict => .conflict

def appendAdmitted (event : IncomingEvent) (job : JobKey) (stampMs : Int) : Tx AdmitResult :=
  match s.appendInTransaction event job stampMs with
  | .error e => .error e
  | .ok (result, s') => .ok (result.admitted, s')

/-- Append what cannot go on at once, unless a redrive owns the job. -/
def admitQueued (event : IncomingEvent) (intake : IntakeState) (now stampMs : Int) :
    Tx AdmitResult :=
  match normalizeRedriveIdentity event.repo event.jobId with
  | none => .ok (.authorityBusy, s)
  | some job =>
    if intake = .normal ∧ s.head.backlogCount = 0 then .ok (.continued, s)
    else match s.events.get event.eventId with
      | some prior =>
        if prior.bodySha256 = event.bodySha256 then .ok (.duplicate prior, s)
        else .ok (.conflict, s)
      | none =>
        match s.reservations.get job with
        | none => s.appendAdmitted event job stampMs
        | some reservation =>
          if reservation.job ≠ job ∨ reservation.effectId ≠ redriveEffectId job then
            .ok (.authorityBusy, s)
          else match reservation.state with
            | .held =>
              -- an expired hold is taken over: it is deleted in the transaction that appends
              if now < reservation.expiresMs then .ok (.authorityBusy, s)
              else { s with reservations := s.reservations.delete job }.appendAdmitted event job
                stampMs
            | .effectEligible | .completed => .ok (.redriveOwned, s)

/-! ## Draining -/

/-- Ask for a drain if anything waits. -/
def requestDrain : ContainmentMeta × Store :=
  let next := { s.head with drainRequested := decide (0 < s.head.backlogCount) }
  (next, { s with indexMeta := true, meta_ := some next })

/-- Leases: the lease that is still good, or a new one of the next epoch. -/
def acquireLease (owner : String) (now : Int) : Option DrainLease × Store :=
  let fresh : DrainLease := ⟨owner, s.head.leaseEpoch + 1, now + drainLeaseTtlMs⟩
  let granted : Option DrainLease × Store :=
    (some fresh, { s with
      meta_ := some { s.head with leaseEpoch := fresh.epoch, lease := some fresh } })
  match s.head.lease with
  | none => granted
  | some old =>
    if now < old.expiresMs then
      if old.owner ≠ owner then (none, s)
      else if drainRenewThresholdMs < old.expiresMs - now then (some old, s)
      else
        let renewed := { old with expiresMs := now + drainLeaseTtlMs }
        (some renewed, { s with meta_ := some { s.head with lease := some renewed } })
    else granted

/-- Put off the end of a lease that has not expired. -/
def renewLease (owner : String) (epoch : Nat) (now : Int) : Bool × Store :=
  match s.meta_ with
  | none => (false, s)
  | some head =>
    match head.lease with
    | none => (false, s)
    | some lease =>
      if !leaseMatches head owner epoch now then (false, s)
      else if drainRenewThresholdMs < lease.expiresMs - now then (true, s)
      else (true, { s with
        meta_ := some
          { head with lease := some { lease with expiresMs := now + drainLeaseTtlMs } } })

/-- Claim the head of the queue; the answer is the event and whether its effect is committed. -/
def claimNext (owner : String) (epoch : Nat) (now : Int) :
    Option (ContainmentEvent × Bool) × Store :=
  match s.meta_ with
  | none => (none, s)
  | some head =>
    if !leaseMatches head owner epoch now || head.backlogCount == 0 then (none, s)
    else match s.pauses.get (head.drainCursor + 1) with
      | none => (none, s)
      | some pause =>
        match s.events.get pause.eventId with
        | none => (none, s)
        | some event =>
          if !isCurrentHead head event || event.pauseSeq != pause.pauseSeq ||
              pause.eventId != event.eventId then (none, s)
          -- an event that already has this claim is written back as it is
          else if event.state = .effectCommitted then
            -- the claim moves to the reclaimer, the permit stays
            let committed := { event with claim := some ⟨owner, epoch⟩ }
            (some (committed, true), { s with events := s.events.put pause.eventId committed })
          else
            let claimed := { event with state := .claimed, claim := some ⟨owner, epoch⟩ }
            (some (claimed, false), { s with events := s.events.put pause.eventId claimed })

/-- The permit of a claimed head: a new one, or the one that its holder has. -/
def beginContainmentEventEffect (eventId owner : String) (epoch : Nat) (now : Int)
    (permitId : String) : Option EventPermit × Store :=
  match s.meta_, s.events.get eventId with
  | some head, some event =>
    if !isCurrentHead head event || !leaseMatches head owner epoch now || event.state != .claimed ||
        !claimedBy event owner epoch then (none, s)
    else match event.effectPermit with
      | some permit =>
        if permit.issuedToOwner = owner ∧ permit.issuedToEpoch = epoch then (some permit, s)
        else (none, s)
      | none =>
        let permit : EventPermit := ⟨permitId, owner, epoch⟩
        (some permit,
          { s with events := s.events.put eventId { event with effectPermit := some permit } })
  | _, _ => (none, s)

def removeHead (eventId : String) (head : ContainmentMeta) (event : ContainmentEvent)
    (index : ContainmentJobIndex) (stampMs : Int) : Store :=
  let backlog := head.backlogCount - 1
  let remaining := index.activeEventIds.filter fun id => id != event.eventId
  { s with
    events := s.events.delete eventId
    pauses := s.pauses.delete event.pauseSeq
    index :=
      if remaining.isEmpty then s.index.delete event.job
      else s.index.put event.job { index with
        activeEventIds := remaining
        activeCount := remaining.length
        updatedAtMs := stampMs }
    meta_ := some { head with
      drainCursor := event.pauseSeq
      backlogCount := backlog
      drainRequested := decide (0 < backlog) } }

/-- What both acknowledgements check about the place and the index before they remove the head. -/
def removable (head : ContainmentMeta) (event : ContainmentEvent) : Option ContainmentJobIndex :=
  if head.backlogCount < 1 || maxSafeInteger < head.backlogCount then none
  else match s.pauses.get event.pauseSeq with
    | none => none
    | some pause =>
      if pause.eventId != event.eventId || pause.pauseSeq != event.pauseSeq then none
      else match s.index.get event.job, s.markers.get event.job with
        | some index, some marker =>
          if isValidJobIndex index event.job && isValidJobIndexMarker marker event.job &&
              decide (event.eventId ∈ index.activeEventIds) then some index
          else none
        | _, _ => none

/-- Remove the head after its effect. -/
def acknowledge (eventId owner : String) (epoch : Nat) (now stampMs : Int) : Bool × Store :=
  match s.meta_, s.events.get eventId with
  | some head, some event =>
    if !isCurrentHead head event || !leaseMatches head owner epoch now ||
        event.state != .effectCommitted || !claimedBy event owner epoch then (false, s)
    else match s.removable head event with
      | none => (false, s)
      | some index => (true, s.removeHead eventId head event index stampMs)
  | _, _ => (false, s)

/-- Drop the head without an effect; one that was issued a permit cannot be dropped. -/
def acknowledgeTerminal (eventId owner : String) (epoch : Nat) (now : Int) : Bool × Store :=
  match s.meta_, s.events.get eventId with
  | some head, some event =>
    if !isCurrentHead head event || !leaseMatches head owner epoch now || event.state != .claimed ||
        !claimedBy event owner epoch || event.effectPermit.isSome then (false, s)
    else match s.removable head event with
      | none => (false, s)
      | some index => (true, s.removeHead eventId head event index now)
  | _, _ => (false, s)

def releaseLease (owner : String) (epoch : Nat) : Store :=
  match s.meta_ with
  | none => s
  | some head =>
    match head.lease with
    | none => s
    | some lease =>
      if lease.owner = owner ∧ lease.epoch = epoch then
        { s with meta_ := some { head with lease := none } }
      else s

/-! ## Committing an effect -/

/-- May the drainer commit the effect of the event? The holder of the permit commits it; a later
claimant can only recover it. -/
def canCommitEffect (head : ContainmentMeta) (event : ContainmentEvent) (owner : String)
    (epoch : Nat) (now : Int) (recovery : Bool) : Bool :=
  isCurrentHead head event && leaseMatches head owner epoch now && event.state == .claimed &&
    claimedBy event owner epoch &&
    match event.effectPermit with
    | none => false
    | some permit =>
      if recovery then decide (permit.issuedToOwner ≠ owner ∨ permit.issuedToEpoch ≠ epoch)
      else decide (permit.issuedToOwner = owner ∧ permit.issuedToEpoch = epoch)

def matchesEffectCommitSnapshot (head : ContainmentMeta) (event : ContainmentEvent)
    (snapshotHead : ContainmentMeta) (snapshotEvent : ContainmentEvent) : Bool :=
  head.drainCursor == snapshotHead.drainCursor && decide (head.lease = snapshotHead.lease) &&
    decide (event = snapshotEvent)

/-! ## Redrives -/

inductive ReserveResult
  | reserved (reservation : RedriveReservation)
  | resumable (reservation : RedriveReservation)
  | contained
  | busy (reservation : Option RedriveReservation)
  | completed (reservation : RedriveReservation)
  | invalid

def newReservation (job : JobKey) (owner token : String) (now : Int) : RedriveReservation where
  job
  owner
  token
  epoch := 1
  state := .held
  expiresMs := now + redriveReservationTtlMs
  eventId := none
  effectId := redriveEffectId job
  completionObserved := false

/-- Reserve a job without events, or take an expired hold over. -/
def reserveRedriveCandidate (repo jobId : String) (now : Int) (owner token : String) :
    Tx ReserveResult :=
  match normalizeRedriveIdentity repo jobId with
  | none => .ok (.invalid, s)
  | some job =>
    match s.containedEventExists job with
    | .error e => .error e
    | .ok true => .ok (.contained, s)
    | .ok false =>
      match s.reservations.get job with
      | none =>
        let reservation := newReservation job owner token now
        .ok (.reserved reservation, { s with reservations := s.reservations.put job reservation })
      | some prior =>
        if prior.job ≠ job ∨ prior.effectId ≠ redriveEffectId job ∨ prior.epoch < 1 ∨
            maxSafeInteger < prior.epoch then .ok (.busy none, s)
        else match prior.state with
          | .effectEligible =>
            -- a completion that was seen may have reached the provider: its owner settles it
            if prior.completionObserved then .ok (.busy (some prior), s)
            else .ok (.resumable prior, s)
          | .completed => .ok (.completed prior, s)
          | .held =>
            if now < prior.expiresMs then .ok (.busy (some prior), s)
            else
              let reclaimed : RedriveReservation := { prior with
                owner
                token
                epoch := prior.epoch + 1
                state := .held
                expiresMs := now + redriveReservationTtlMs
                eventId := none
                completionObserved := false }
              .ok (.reserved reclaimed, { s with reservations := s.reservations.put job reclaimed })

inductive BeginReservedResult
  | eligible (permit : RedrivePermit)
  | stale
  | ineligible
  | invalid

/-- From here on the effect of the reservation may happen. -/
def beginReservedEffect (repo jobId owner token : String) (epoch : Nat) (effectId : Option String)
    (now : Int) : BeginReservedResult × Store :=
  match normalizeRedriveIdentity repo jobId with
  | none => (.invalid, s)
  | some job =>
    if epoch < 1 ∨ maxSafeInteger < epoch ∨
      effectId.getD (redriveEffectId job) ≠ redriveEffectId job
    then (.invalid, s)
    else match s.reservations.get job with
      | none => (.stale, s)
      | some reservation =>
        if !reservationTupleMatches reservation job owner token epoch (redriveEffectId job) then
          (.stale, s)
        else match reservation.state with
          | .effectEligible =>
            if reservation.completionObserved then (.ineligible, s)
            else (.eligible (reservationPermit reservation), s)
          | .completed => (.ineligible, s)
          | .held =>
            if reservation.expiresMs ≤ now then (.ineligible, s)
            else
              let eligible := { reservation with state := .effectEligible }
              (.eligible (reservationPermit eligible),
                { s with reservations := s.reservations.put job eligible })

inductive CompleteResult
  | completed
  | clearedAfterCompletion
  | stale
  | incomplete
  | invalid

/-- The effect happened. -/
def completeRedrive (repo jobId owner token : String) (epoch : Nat) (effectId : String) :
    CompleteResult × Store :=
  match normalizeRedriveIdentity repo jobId with
  | none => (.invalid, s)
  | some job =>
    if epoch < 1 ∨ maxSafeInteger < epoch ∨ effectId ≠ redriveEffectId job then (.invalid, s)
    else match s.reservations.get job with
      | none => (.stale, s)
      | some reservation =>
        if !reservationTupleMatches reservation job owner token epoch effectId then (.stale, s)
        else match reservation.state with
          | .held => (.incomplete, s)
          | .completed => (.completed, s)
          | .effectEligible =>
            if reservation.completionObserved then
              (.clearedAfterCompletion, { s with reservations := s.reservations.delete job })
            else
              (.completed, { s with
                reservations := s.reservations.put job { reservation with state := .completed } })

inductive ClearResult
  | cleared
  | latched
  | terminal
  | notCompleted
  | invalid

/-- Clear the reservation, or note that a completion was seen. -/
def clearCompletedRedrive (repo jobId effectId : String) : ClearResult × Store :=
  match normalizeRedriveIdentity repo jobId with
  | none => (.invalid, s)
  | some job =>
    if effectId ≠ redriveEffectId job then (.invalid, s)
    else match s.reservations.get job with
      | none => (.notCompleted, s)
      | some reservation =>
        if reservation.job ≠ job ∨ reservation.effectId ≠ effectId then (.notCompleted, s)
        else match reservation.state with
          | .completed => (.cleared, { s with reservations := s.reservations.delete job })
          | .held => (.terminal, { s with reservations := s.reservations.delete job })
          | .effectEligible =>
            if reservation.completionObserved then (.latched, s)
            else (.latched, { s with
              reservations :=
                s.reservations.put job { reservation with completionObserved := true } })

end Store

end CorelinkRunners.Containment
