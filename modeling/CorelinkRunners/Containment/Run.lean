import CorelinkRunners.Containment.Authority
import CorelinkRunners.Kit.Run

/-!
# Runs of the containment authority

Every operation is one transaction, except the two that commit an effect: they take a snapshot, read
the evidence outside the storage, and commit in a transaction that compares with the snapshot. Such
a call is in flight meanwhile, and anything may happen in between.

A run also keeps the history of the queue: the events that were appended and those that were
removed, in order.

`Change` says what a step can do to the storage; what holds of whole runs is proved from its cases.
-/

namespace CorelinkRunners.Containment

open Kit

/-- A call of `markEffectCommitted` or `recoverEffectCommitted` in flight. -/
structure CommitCall where
  eventId : String
  owner : String
  epoch : Nat
  /-- The digest the caller of a recovery has observed. -/
  recovery : Option String
  head : ContainmentMeta
  event : ContainmentEvent
  /-- The evidence that was read, once it has proved the effect. -/
  proved : Option (WitnessKind → Option String) := none

/-- The authority with its calls in flight and the history of its queue. -/
structure System where
  store : Store := {}
  calls : Table Nat CommitCall := ∅
  appended : List String := []
  removed : List String := []

inductive Op
  | bootstrapContainedEventIndex (repo jobId : String) (now : Int)
  | append (event : IncomingEvent) (stampMs : Int)
  | admitQueued (event : IncomingEvent) (intake : Store.IntakeState) (now stampMs : Int)
  | requestDrain
  | acquireLease (owner : String) (now : Int)
  | renewLease (owner : String) (epoch : Nat) (now : Int)
  | claimNext (owner : String) (epoch : Nat) (now : Int)
  | beginEffect (eventId owner : String) (epoch : Nat) (now : Int) (permitId : String)
  | acknowledge (eventId owner : String) (epoch : Nat) (now stampMs : Int)
  | acknowledgeTerminal (eventId owner : String) (epoch : Nat) (now : Int)
  | releaseLease (owner : String) (epoch : Nat)
  | reserveRedriveCandidate (repo jobId : String) (now : Int) (owner token : String)
  | beginReservedEffect (repo jobId owner token : String) (epoch : Nat) (effectId : Option String)
      (now : Int)
  | completeRedrive (repo jobId owner token : String) (epoch : Nat) (effectId : String)
  | clearCompletedRedrive (repo jobId effectId : String)

/-- The storage after a transaction: one that throws is rolled back. -/
def Tx.settle {A : Type} (s : Store) : Tx A → Store
  | .ok (_, s') => s'
  | .error _ => s

def Store.after (s : Store) : Op → Store
  | .bootstrapContainedEventIndex repo jobId now =>
    (s.bootstrapContainedEventIndex repo jobId now).2
  | .append event stampMs => (s.append event stampMs).settle s
  | .admitQueued event intake now stampMs => (s.admitQueued event intake now stampMs).settle s
  | .requestDrain => s.requestDrain.2
  | .acquireLease owner now => (s.acquireLease owner now).2
  | .renewLease owner epoch now => (s.renewLease owner epoch now).2
  | .claimNext owner epoch now => (s.claimNext owner epoch now).2
  | .beginEffect eventId owner epoch now permitId =>
    (s.beginContainmentEventEffect eventId owner epoch now permitId).2
  | .acknowledge eventId owner epoch now stampMs =>
    (s.acknowledge eventId owner epoch now stampMs).2
  | .acknowledgeTerminal eventId owner epoch now =>
    (s.acknowledgeTerminal eventId owner epoch now).2
  | .releaseLease owner epoch => s.releaseLease owner epoch
  | .reserveRedriveCandidate repo jobId now owner token =>
    (s.reserveRedriveCandidate repo jobId now owner token).settle s
  | .beginReservedEffect repo jobId owner token epoch effectId now =>
    (s.beginReservedEffect repo jobId owner token epoch effectId now).2
  | .completeRedrive repo jobId owner token epoch effectId =>
    (s.completeRedrive repo jobId owner token epoch effectId).2
  | .clearCompletedRedrive repo jobId effectId => (s.clearCompletedRedrive repo jobId effectId).2

def Tx.placed? : Tx Store.AppendResult → Option String
  | .ok (.appended event, _) => some event.eventId
  | _ => none

def Tx.appended? : Tx Store.AdmitResult → Option String
  | .ok (.appended event, _) => some event.eventId
  | _ => none

def Store.appends? (s : Store) : Op → Option String
  | .append event stampMs => (s.append event stampMs).placed?
  | .admitQueued event intake now stampMs => (s.admitQueued event intake now stampMs).appended?
  | _ => none

def Store.removes? (s : Store) : Op → Option String
  | .acknowledge eventId owner epoch now stampMs =>
    if (s.acknowledge eventId owner epoch now stampMs).1 then some eventId else none
  | .acknowledgeTerminal eventId owner epoch now =>
    if (s.acknowledgeTerminal eventId owner epoch now).1 then some eventId else none
  | _ => none

inductive Event
  | op (op : Op)
  | mark (call : Nat) (eventId owner : String) (epoch : Nat) (now : Int)
  | recover (call : Nat) (effectId owner : String) (epoch : Nat) (proofDigest : String) (now : Int)
  | read (call : Nat) (kv : WitnessKind → Option String)
  | commit (call : Nat) (now : Int)
  /-- The other records of the storage change. -/
  | foreign (pointers legacyIndexes : JobKey → Bool) (legacyJobs : String → Bool)

namespace System

variable (rt : Runtime) (s : System)

/-- The first phase: the head and the event, where the caller may commit. -/
def snapshot (call : Nat) (eventId owner : String) (epoch : Nat) (now : Int)
    (recovery : Option String) : System :=
  match s.store.meta_, s.store.events.get eventId with
  | some head, some event =>
    if Store.canCommitEffect head event owner epoch now recovery.isSome then
      { s with calls := s.calls.put call ⟨eventId, owner, epoch, recovery, head, event, none⟩ }
    else s
  | _, _ => s

/-- The prefix of an effect id; the rest of it is the id of the event. -/
def effectPrefix : String := "containment:v1:"

def eventOfEffect (effectId : String) : Option String :=
  if effectPrefix.toList.isPrefixOf effectId.toList then
    some (.ofList (effectId.toList.drop effectPrefix.length))
  else none

def recover (call : Nat) (effectId owner : String) (epoch : Nat) (proofDigest : String)
    (now : Int) : System :=
  match eventOfEffect effectId with
  | none => s
  | some eventId =>
    match s.store.events.get eventId with
    | none => s
    | some event =>
      if event.effectId ≠ effectId then s
      else s.snapshot call eventId owner epoch now (some proofDigest)

/-- The second phase: the evidence of the snapshot's event. A recovery has to name its digest. -/
def read (call : Nat) (kv : WitnessKind → Option String) : System :=
  match s.calls.get call with
  | none => s
  | some c =>
    match validatedEffectProof rt c.event kv with
    | none => { s with calls := s.calls.delete call }
    | some digest =>
      if c.recovery.getD digest = digest then
        { s with calls := s.calls.put call { c with proved := some kv } }
      else { s with calls := s.calls.delete call }

/-- The third phase: nothing has changed since the snapshot, so the effect is committed. -/
def commit (call : Nat) (now : Int) : System :=
  match s.calls.get call with
  | none => s
  | some c =>
    match c.proved, s.store.meta_, s.store.events.get c.eventId with
    | none, _, _ => s
    | some _, some head, some event =>
      let rest := { s with calls := s.calls.delete call }
      if Store.matchesEffectCommitSnapshot head event c.head c.event &&
          Store.canCommitEffect head event c.owner c.epoch now c.recovery.isSome then
        { rest with store := { s.store with
          events := s.store.events.put c.eventId { event with state := .effectCommitted } } }
      else rest
    | _, _, _ => { s with calls := s.calls.delete call }

def step (s : System) : Event → System
  | .op op =>
    { s with
      store := s.store.after op
      appended := s.appended ++ (s.store.appends? op).toList
      removed := s.removed ++ (s.store.removes? op).toList }
  | .mark call eventId owner epoch now => s.snapshot call eventId owner epoch now none
  | .recover call effectId owner epoch proofDigest now =>
    s.recover call effectId owner epoch proofDigest now
  | .read call kv => s.read rt call kv
  | .commit call now => s.commit call now
  | .foreign pointers legacyIndexes legacyJobs =>
    { s with store := { s.store with pointers, legacyIndexes, legacyJobs } }

def run (s : System) (events : List Event) : System := events.foldl (step rt) s

end System

/-! ## What a step can do -/

/-- What only some events may do: append without a look at the reservation, commit an effect, and
hand out a token. -/
structure Licence where
  plain : Prop
  commits : Prop
  token : String → Prop

inductive ReservationMove (s : Store) (may : Licence) (job : JobKey) :
    Option RedriveReservation → Option RedriveReservation → Prop
  | same (r : Option RedriveReservation) : ReservationMove s may job r r
  | first (owner token : String) (now : Int) (given : may.token token)
      (free : s.containedEventExists job = .ok false) :
      ReservationMove s may job none (some (Store.newReservation job owner token now))
  | reclaimed (r : RedriveReservation) (owner token : String) (now : Int) (given : may.token token)
      (held : r.state = .held) (free : s.containedEventExists job = .ok false) :
      ReservationMove s may job (some r) (some { r with
        owner
        token
        epoch := r.epoch + 1
        state := .held
        expiresMs := now + redriveReservationTtlMs
        eventId := none
        completionObserved := false })
  | eligible (r : RedriveReservation) (held : r.state = .held) :
      ReservationMove s may job (some r) (some { r with state := .effectEligible })
  | completed (r : RedriveReservation) (was : r.state = .effectEligible) :
      ReservationMove s may job (some r) (some { r with state := .completed })
  | latched (r : RedriveReservation) (was : r.state = .effectEligible) :
      ReservationMove s may job (some r) (some { r with completionObserved := true })
  | gone (r : RedriveReservation) : ReservationMove s may job (some r) none

/-- What a step can do to the storage, with the event it appends and the one it removes. -/
inductive Change (s : Store) (may : Licence) : Option String → Option String → Store → Prop
  | same : Change s may none none s
  | foreign (pointers legacyIndexes : JobKey → Bool) (legacyJobs : String → Bool) :
      Change s may none none { s with pointers, legacyIndexes, legacyJobs }
  | bootstrapped (job : JobKey) (now : Int) (unindexed : s.index.get job = none)
      (unmarked : s.markers.get job = none) (unowned : s.isOwned job = false) :
      Change s may none none { s with
        indexMeta := true
        index := s.index.put job ⟨job, [], 0, now⟩
        markers := s.markers.put job ⟨job, now⟩ }
  | appended (event : IncomingEvent) (job : JobKey) (index : ContainmentJobIndex) (stampMs : Int)
      (reservations : Table JobKey RedriveReservation) (found : s.ensureJobIndex job = .ok index)
      (fresh : s.events.get event.eventId = none) (room : index.activeCount < maxActiveIndexEvents)
      (free : may.plain ∧ reservations = s.reservations ∨ reservations.get job = none ∧
        ∀ other, ReservationMove s may other (s.reservations.get other) (reservations.get other)) :
      Change s may (some event.eventId) none
        ({ s with reservations }.enqueue event index job stampMs)
  /-- The lease or the request to drain; the queue stays as it is. -/
  | headed (head : ContainmentMeta) (indexMeta : Bool) (initialized : s.indexMeta = true →
      indexMeta = true)
      (next : head.nextPauseSeq = s.head.nextPauseSeq)
      (cursor : head.drainCursor = s.head.drainCursor)
      (backlog : head.backlogCount = s.head.backlogCount)
      (epoch : s.head.leaseEpoch ≤ head.leaseEpoch)
      (lease : ∀ lease ∈ head.lease, lease.epoch = head.leaseEpoch ∨
        head.leaseEpoch = s.head.leaseEpoch ∧ ∃ old ∈ s.head.lease, lease.epoch = old.epoch) :
      Change s may none none { s with meta_ := some head, indexMeta }
  | touched (id : String) (event : ContainmentEvent) (state : ContainmentState)
      (claim : Option EventClaim) (permit : Option EventPermit)
      (found : s.events.get id = some event)
      (kept : ∀ issued ∈ event.effectPermit, permit = some issued)
      (uncommitted : state = .effectCommitted → event.state = .effectCommitted) :
      Change s may none none { s with events := s.events.put id { event with
        state
        claim
        effectPermit := permit } }
  | committed (id : String) (event : ContainmentEvent) (allowed : may.commits)
      (found : s.events.get id = some event) :
      Change s may none none
        { s with events := s.events.put id { event with state := .effectCommitted } }
  | removed (id : String) (head : ContainmentMeta) (event : ContainmentEvent)
      (index : ContainmentJobIndex) (stampMs : Int) (headed : s.meta_ = some head)
      (found : s.events.get id = some event) (current : isCurrentHead head event = true)
      (removable : s.removable head event = some index) :
      Change s may none (some id) (s.removeHead id head event index stampMs)
  | redriven (reservations : Table JobKey RedriveReservation)
      (moves : ∀ job, ReservationMove s may job (s.reservations.get job) (reservations.get job)) :
      Change s may none none { s with reservations }

namespace Store

variable (s : Store) {may : Licence} {job : JobKey}

theorem ReservationMove.of_put {r : RedriveReservation}
    (move : ReservationMove s may job (s.reservations.get job) (some r)) (other : JobKey) :
    ReservationMove s may other (s.reservations.get other)
      ((s.reservations.put job r).get other) := by
  rw [Table.get_put]
  split
  next same => exact same ▸ move
  · exact .same _

theorem ReservationMove.of_delete (other : JobKey) :
    ReservationMove s may other (s.reservations.get other)
    ((s.reservations.delete job).get other) := by
  rw [Table.get_delete]
  split
  next same =>
    subst same
    cases s.reservations.get other with
    | none => exact .same _
    | some r => exact .gone r
  · exact .same _

variable (repo jobId : String) (now : Int)

theorem bootstrapContainedEventIndex_change :
    Change s may none none (s.bootstrapContainedEventIndex repo jobId now).2 := by
  unfold bootstrapContainedEventIndex
  split
  · exact .same
  next job _ =>
    split
    · split
      · exact .same
      · exact .same
    · exact .same
    · exact .same
    next unindexed unmarked =>
      split
      · exact .same
      next unowned => exact .bootstrapped job now unindexed unmarked (Bool.not_eq_true _ ▸ unowned)

variable {event : IncomingEvent} {stampMs : Int}

variable {s} in
theorem appendInTransaction_cases {result : AppendResult} {s' : Store}
    (h : s.appendInTransaction event job stampMs = .ok (result, s')) :
    s' = s ∧ (∀ stored, result ≠ .appended stored) ∨
    ∃ index, s.ensureJobIndex job = .ok index ∧ s.events.get event.eventId = none ∧
      index.activeCount < maxActiveIndexEvents ∧
      result = .appended (newEvent event job s.head.nextPauseSeq) ∧
      s' = s.enqueue event index job stampMs := by
  unfold appendInTransaction at h
  cases found : s.ensureJobIndex job with
  | error e =>
    rw [found] at h
    nomatch h
  | ok index =>
    rw [found] at h
    cases stored : s.events.get event.eventId with
    | some prior =>
      rw [stored] at h
      dsimp only at h
      split at h
      · cases h
        exact .inl ⟨rfl, nofun⟩
      · cases h
        exact .inl ⟨rfl, nofun⟩
    | none =>
      rw [stored] at h
      dsimp only at h
      split at h
      · nomatch h
      next room =>
        cases h
        exact .inr ⟨index, rfl, rfl, Nat.lt_of_not_le room, rfl, rfl⟩

theorem append_change (event : IncomingEvent) (stampMs : Int) (allowed : may.plain) :
    Change s may (s.append event stampMs).placed? none ((s.append event stampMs).settle s) := by
  unfold append
  split
  · exact .same
  next job _ =>
    cases h : s.appendInTransaction event job stampMs with
    | error e => exact .same
    | ok answer =>
      obtain ⟨result, s'⟩ := answer
      rcases appendInTransaction_cases h with ⟨rfl, old⟩ | ⟨index, found, fresh, room, rfl, rfl⟩
      · cases result with
        | appended stored => exact absurd rfl (old stored)
        | duplicate => exact .same
        | conflict => exact .same
      · exact .appended event job index stampMs s.reservations found fresh room
          (.inl ⟨allowed, rfl⟩)

theorem appendAdmitted_change (reservations : Table JobKey RedriveReservation)
    (free : reservations.get job = none)
    (moves : ∀ other, ReservationMove s may other (s.reservations.get other)
      (reservations.get other)) :
    Change s may ({ s with reservations }.appendAdmitted event job stampMs).appended? none
      (({ s with reservations }.appendAdmitted event job stampMs).settle s) := by
  unfold appendAdmitted
  cases h : appendInTransaction { s with reservations } event job stampMs with
  | error e => exact .same
  | ok answer =>
    obtain ⟨result, s'⟩ := answer
    rcases appendInTransaction_cases h with ⟨rfl, old⟩ | ⟨index, found, fresh, room, rfl, rfl⟩
    · cases result with
      | appended stored => exact absurd rfl (old stored)
      | duplicate => exact .redriven reservations moves
      | conflict => exact .redriven reservations moves
    · exact .appended event job index stampMs reservations found fresh room (.inr ⟨free, moves⟩)

theorem admitQueued_change (event : IncomingEvent) (intake : IntakeState) (now stampMs : Int) :
    Change s may (s.admitQueued event intake now stampMs).appended? none
      ((s.admitQueued event intake now stampMs).settle s) := by
  unfold admitQueued
  split
  · exact .same
  next job _ =>
    split
    · exact .same
    split
    · split
      · exact .same
      · exact .same
    · split
      next free => exact s.appendAdmitted_change s.reservations free fun _ => .same _
      next reservation _ =>
        split
        · exact .same
        split
        · split
          · exact .same
          exact s.appendAdmitted_change _ (Table.get_delete_self _ _)
            (ReservationMove.of_delete s)
        · exact .same
        · exact .same

variable (owner : String)

theorem acquireLease_change (now : Int) : Change s may none none (s.acquireLease owner now).2 := by
  have granted : Change s may none none { s with meta_ := some { s.head with
      leaseEpoch := s.head.leaseEpoch + 1
      lease := some ⟨owner, s.head.leaseEpoch + 1, now + drainLeaseTtlMs⟩ } } := by
    refine .headed _ s.indexMeta id rfl rfl rfl (Nat.le_succ _) ?_
    rintro lease ⟨⟩
    exact .inl rfl
  unfold acquireLease
  split
  · exact granted
  next old held =>
    split
    · split
      · exact .same
      split
      · exact .same
      refine .headed _ s.indexMeta id rfl rfl rfl (Nat.le_refl _) ?_
      rintro lease ⟨⟩
      exact .inr ⟨rfl, old, held, rfl⟩
    · exact granted

variable (epoch : Nat)

theorem renewLease_change (now : Int) :
    Change s may none none (s.renewLease owner epoch now).2 := by
  unfold renewLease
  split
  · exact .same
  next head headed =>
    obtain rfl := Store.head_of_meta headed
    split
    · exact .same
    next lease held =>
      split
      · exact .same
      split
      · exact .same
      refine .headed _ s.indexMeta id rfl rfl rfl (Nat.le_refl _) ?_
      rintro renewed ⟨⟩
      exact .inr ⟨rfl, lease, held, rfl⟩

theorem releaseLease_change : Change s may none none (s.releaseLease owner epoch) := by
  unfold releaseLease
  split
  · exact .same
  next head headed =>
    obtain rfl := Store.head_of_meta headed
    split
    · exact .same
    split
    · exact .headed _ s.indexMeta id rfl rfl rfl (Nat.le_refl _) nofun
    · exact .same

theorem requestDrain_change : Change s may none none s.requestDrain.2 :=
  .headed _ true (fun _ => rfl) rfl rfl rfl (Nat.le_refl _) fun lease held =>
    .inr ⟨rfl, lease, held, rfl⟩

theorem claimNext_change (now : Int) : Change s may none none (s.claimNext owner epoch now).2 := by
  unfold claimNext
  split
  · exact .same
  next head _ =>
    split
    · exact .same
    split
    · exact .same
    next pause _ =>
      split
      · exact .same
      next event found =>
        split
        · exact .same
        split
        next done =>
          exact .touched pause.eventId event event.state _ event.effectPermit found
            (fun _ issued => issued) fun _ => done
        · exact .touched pause.eventId event .claimed _ event.effectPermit found
            (fun _ issued => issued) nofun

variable (eventId : String)

theorem beginContainmentEventEffect_change (owner : String) (epoch : Nat) (now : Int)
    (permitId : String) :
    Change s may none none (s.beginContainmentEventEffect eventId owner epoch now permitId).2 := by
  unfold beginContainmentEventEffect
  split
  next head event _ found =>
    split
    · exact .same
    split
    · split
      · exact .same
      · exact .same
    next unissued =>
      refine .touched eventId event event.state event.claim _ found (fun issued there => ?_) id
      rw [unissued] at there
      nomatch there
  · exact .same

theorem acknowledge_change (owner : String) (epoch : Nat) (now stampMs : Int) :
    Change s may none (s.removes? (.acknowledge eventId owner epoch now stampMs))
      (s.acknowledge eventId owner epoch now stampMs).2 := by
  unfold removes? acknowledge
  dsimp only
  split
  next head event headed found =>
    split
    · exact .same
    next checked =>
      simp only [Bool.or_eq_true, Bool.not_eq_true', not_or, Bool.not_eq_false] at checked
      split
      · exact .same
      next index removable =>
        exact .removed eventId head event index stampMs headed found checked.1.1.1 removable
  · exact .same

theorem acknowledgeTerminal_change (owner : String) (epoch : Nat) (now : Int) :
    Change s may none (s.removes? (.acknowledgeTerminal eventId owner epoch now))
      (s.acknowledgeTerminal eventId owner epoch now).2 := by
  unfold removes? acknowledgeTerminal
  dsimp only
  split
  next head event headed found =>
    split
    · exact .same
    next checked =>
      simp only [Bool.or_eq_true, Bool.not_eq_true', not_or, Bool.not_eq_false] at checked
      split
      · exact .same
      next index removable =>
        exact .removed eventId head event index now headed found checked.1.1.1.1 removable
  · exact .same

variable (token : String)

theorem reserveRedriveCandidate_change (given : may.token token) :
    Change s may none none ((s.reserveRedriveCandidate repo jobId now owner token).settle s) := by
  unfold reserveRedriveCandidate
  split
  · exact .same
  next job _ =>
    split
    · exact .same
    · exact .same
    next free =>
      split
      next unreserved =>
        refine .redriven _ (ReservationMove.of_put s ?_)
        rw [unreserved]
        exact .first owner token now given free
      next prior reserved =>
        split
        · exact .same
        split
        · split
          · exact .same
          · exact .same
        · exact .same
        next held =>
          split
          · exact .same
          refine .redriven _ (ReservationMove.of_put s ?_)
          rw [reserved]
          exact .reclaimed prior owner token now given held free

theorem beginReservedEffect_change (epoch : Nat) (effectId : Option String) (now : Int) :
    Change s may none none (s.beginReservedEffect repo jobId owner token epoch effectId now).2 := by
  unfold beginReservedEffect
  split
  · exact .same
  next job _ =>
    split
    · exact .same
    split
    · exact .same
    next reservation reserved =>
      split
      · exact .same
      split
      · split
        · exact .same
        · exact .same
      · exact .same
      next held =>
        split
        · exact .same
        refine .redriven _ (ReservationMove.of_put s ?_)
        rw [reserved]
        exact .eligible reservation held

theorem completeRedrive_change (epoch : Nat) (effectId : String) :
    Change s may none none (s.completeRedrive repo jobId owner token epoch effectId).2 := by
  unfold completeRedrive
  split
  · exact .same
  next job _ =>
    split
    · exact .same
    split
    · exact .same
    next reservation reserved =>
      split
      · exact .same
      split
      · exact .same
      · exact .same
      next was =>
        split
        · exact .redriven _ (ReservationMove.of_delete s)
        refine .redriven _ (ReservationMove.of_put s ?_)
        rw [reserved]
        exact .completed reservation was

theorem clearCompletedRedrive_change (effectId : String) :
    Change s may none none (s.clearCompletedRedrive repo jobId effectId).2 := by
  unfold clearCompletedRedrive
  split
  · exact .same
  next job _ =>
    split
    · exact .same
    split
    · exact .same
    next reservation reserved =>
      split
      · exact .same
      split
      · exact .redriven _ (ReservationMove.of_delete s)
      · exact .redriven _ (ReservationMove.of_delete s)
      next was =>
        split
        · exact .same
        refine .redriven _ (ReservationMove.of_put s ?_)
        rw [reserved]
        exact .latched reservation was

end Store

def Op.isPlain : Op → Bool
  | append .. => true
  | _ => false

def Op.token? : Op → Option String
  | reserveRedriveCandidate _ _ _ _ token => some token
  | _ => none

def Op.licence (op : Op) : Licence where
  plain := op.isPlain = true
  commits := False
  token t := op.token? = some t

/-- **Every operation is one of the cases.** -/
theorem Store.after_change (s : Store) (op : Op) :
    Change s op.licence (s.appends? op) (s.removes? op) (s.after op) := by
  cases op with
  | bootstrapContainedEventIndex repo jobId now =>
    exact s.bootstrapContainedEventIndex_change repo jobId now
  | append event stampMs => exact s.append_change event stampMs rfl
  | admitQueued event intake now stampMs => exact s.admitQueued_change event intake now stampMs
  | requestDrain => exact s.requestDrain_change
  | acquireLease owner now => exact s.acquireLease_change owner now
  | renewLease owner epoch now => exact s.renewLease_change owner epoch now
  | claimNext owner epoch now => exact s.claimNext_change owner epoch now
  | beginEffect eventId owner epoch now permitId =>
    exact s.beginContainmentEventEffect_change eventId owner epoch now permitId
  | acknowledge eventId owner epoch now stampMs =>
    exact s.acknowledge_change eventId owner epoch now stampMs
  | acknowledgeTerminal eventId owner epoch now =>
    exact s.acknowledgeTerminal_change eventId owner epoch now
  | releaseLease owner epoch => exact s.releaseLease_change owner epoch
  | reserveRedriveCandidate repo jobId now owner token =>
    exact s.reserveRedriveCandidate_change repo jobId now owner token rfl
  | beginReservedEffect repo jobId owner token epoch effectId now =>
    exact s.beginReservedEffect_change repo jobId owner token epoch effectId now
  | completeRedrive repo jobId owner token epoch effectId =>
    exact s.completeRedrive_change repo jobId owner token epoch effectId
  | clearCompletedRedrive repo jobId effectId =>
    exact s.clearCompletedRedrive_change repo jobId effectId

def Event.isPlain : Event → Bool
  | .op what => what.isPlain
  | _ => false

def Event.token? : Event → Option String
  | .op what => what.token?
  | _ => none

def Event.licence : Event → Licence
  | .op what => what.licence
  | .commit .. => ⟨False, True, fun _ => False⟩
  | _ => ⟨False, False, fun _ => False⟩

namespace System

variable (rt : Runtime) (s : System) (call : Nat) (eventId owner : String) (epoch : Nat) (now : Int)
  (recovery : Option String)

theorem snapshot_store : (s.snapshot call eventId owner epoch now recovery).store = s.store := by
  unfold snapshot
  split
  · split <;> rfl
  · rfl

theorem recover_store (effectId owner : String) (epoch : Nat) (proofDigest : String) (now : Int) :
    (s.recover call effectId owner epoch proofDigest now).store = s.store := by
  unfold recover
  split
  · rfl
  split
  · rfl
  split
  · rfl
  · exact s.snapshot_store ..

theorem read_store (kv : WitnessKind → Option String) : (s.read rt call kv).store = s.store := by
  unfold read
  split
  · rfl
  split
  · rfl
  · split <;> rfl

theorem commit_change {may : Licence} (allowed : may.commits) (call : Nat) (now : Int) :
    Change s.store may none none (s.commit call now).store := by
  unfold commit
  split
  · exact .same
  next c _ =>
    split
    · exact .same
    next head event _ _ found =>
      split
      · exact .committed c.eventId event allowed found
      · exact .same
    · exact .same

theorem snapshot_history :
    (s.snapshot call eventId owner epoch now recovery).appended = s.appended ∧
      (s.snapshot call eventId owner epoch now recovery).removed = s.removed := by
  unfold snapshot
  split
  · split <;> exact ⟨rfl, rfl⟩
  · exact ⟨rfl, rfl⟩

structure Steps (may : Licence) (added dropped : Option String) (s' : System) : Prop where
  change : Change s.store may added dropped s'.store
  appended : s'.appended = s.appended ++ added.toList
  removed : s'.removed = s.removed ++ dropped.toList

theorem Steps.quiet {may : Licence} {s s' : System}
    (change : Change s.store may none none s'.store)
    (appended : s'.appended = s.appended) (removed : s'.removed = s.removed) :
    s.Steps may none none s' :=
  ⟨change, by rw [appended, Option.toList_none, List.append_nil],
    by rw [removed, Option.toList_none, List.append_nil]⟩

/-- **Every step is one of the cases.** -/
theorem step_steps (event : Event) :
    ∃ added dropped, s.Steps event.licence added dropped (s.step rt event) := by
  cases event with
  | op op => exact ⟨_, _, s.store.after_change op, rfl, rfl⟩
  | mark call eventId owner epoch now =>
    obtain ⟨appended, removed⟩ := s.snapshot_history call eventId owner epoch now none
    exact ⟨none, none, .quiet ((s.snapshot_store ..).symm ▸ .same) appended removed⟩
  | recover call effectId owner epoch proofDigest now =>
    refine ⟨none, none, .quiet ((s.recover_store ..).symm ▸ .same) ?_ ?_⟩
    all_goals
      dsimp only [step, recover]
      split
      · rfl
      split
      · rfl
      split
      · rfl
      · simp only [snapshot_history]
  | read call kv =>
    refine ⟨none, none, .quiet ((s.read_store rt call kv).symm ▸ .same) ?_ ?_⟩
    all_goals
      dsimp only [step, read]
      split
      · rfl
      split
      · rfl
      · split <;> rfl
  | commit call now =>
    refine ⟨none, none, .quiet (s.commit_change trivial call now) ?_ ?_⟩
    all_goals
      dsimp only [step, commit]
      split
      · rfl
      split
      · rfl
      · split <;> rfl
      · rfl
  | foreign pointers legacyIndexes legacyJobs =>
    exact ⟨none, none, .quiet (.foreign pointers legacyIndexes legacyJobs) rfl rfl⟩

end System

end CorelinkRunners.Containment
