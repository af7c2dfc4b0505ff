import CorelinkRunners.Containment.Fencing

/-!
# Containment and redrive

A job is owned by its contained events or by a redrive reservation, never by both. Admission looks
at the reservation before it appends and takes an expired hold over; a reservation looks at the
index before it is made. Only the plain append does not look.

A reservation moves forward. Its holder changes while it is held and stays from then on, and with
fresh tokens a holder that lost its hold never gets an effect.
-/

namespace CorelinkRunners.Containment

open Kit

def RedriveReservation.holder (r : RedriveReservation) : String × String × Nat :=
  (r.owner, r.token, r.epoch)

structure RedriveReservation.Advances (r r' : RedriveReservation) : Prop where
  state : r'.state = r.state ∨ r.state = .held ∧ r'.state = .effectEligible ∨
    r.state = .effectEligible ∧ r'.state = .completed
  epoch : r'.epoch = r.epoch ∨ r.epoch < r'.epoch ∧ r.state = .held ∧ r'.state = .held
  holder : r.state ≠ .held → r'.holder = r.holder

def Exclusive (s : Store) : Prop :=
  ∀ id event, s.events.get id = some event → s.reservations.get event.job = none

section Steps

variable {s s' : Store} {may : Licence} {added dropped : Option String} {job : JobKey}

theorem ReservationMove.advances {r r' : RedriveReservation}
    (move : ReservationMove s may job (some r) (some r')) : r.Advances r' := by
  cases move with
  | same => exact ⟨.inl rfl, .inl rfl, fun _ => rfl⟩
  | reclaimed _ owner token now _ held =>
    exact ⟨.inl held.symm, .inr ⟨Nat.lt_succ_self _, held, rfl⟩, fun not => absurd held not⟩
  | eligible _ held => exact ⟨.inr (.inl ⟨held, rfl⟩), .inl rfl, fun _ => rfl⟩
  | completed _ was => exact ⟨.inr (.inr ⟨was, rfl⟩), .inl rfl, fun _ => rfl⟩
  | latched _ was => exact ⟨.inl rfl, .inl rfl, fun _ => rfl⟩

theorem ReservationMove.token {before : Option RedriveReservation} {r' : RedriveReservation}
    (move : ReservationMove s may job before (some r')) :
    may.token r'.token ∨ ∃ r, before = some r ∧ r'.holder = r.holder := by
  cases move with
  | same => exact .inr ⟨r', rfl, rfl⟩
  | first owner token now given => exact .inl given
  | reclaimed r owner token now given => exact .inl given
  | eligible r => exact .inr ⟨r, rfl, rfl⟩
  | completed r => exact .inr ⟨r, rfl, rfl⟩
  | latched r => exact .inr ⟨r, rfl, rfl⟩

theorem Change.reservations (change : Change s may added dropped s') (job : JobKey) :
    ReservationMove s may job (s.reservations.get job) (s'.reservations.get job) := by
  cases change with
  | redriven reservations moves => exact moves job
  | appended event about index stampMs reservations _ _ _ free =>
    rcases free with ⟨-, rfl⟩ | ⟨-, moves⟩
    · exact .same _
    · exact moves job
  | _ => exact .same _

theorem Change.stored (change : Change s may added dropped s') {id : String}
    {event : ContainmentEvent} (stored : s'.events.get id = some event) :
    (∃ old, s.events.get id = some old ∧ old.job = event.job) ∨ may.plain ∨
      s'.reservations.get event.job = none := by
  cases change with
  | same => exact .inl ⟨event, stored, rfl⟩
  | foreign => exact .inl ⟨event, stored, rfl⟩
  | bootstrapped => exact .inl ⟨event, stored, rfl⟩
  | redriven => exact .inl ⟨event, stored, rfl⟩
  | headed => exact .inl ⟨event, stored, rfl⟩
  | removed => exact .inl ⟨event, (Table.get_delete_some stored).2, rfl⟩
  | touched a old state claim permit found =>
    rcases Table.get_put_cases stored with ⟨rfl, rfl⟩ | ⟨-, there⟩
    · exact .inl ⟨old, found, rfl⟩
    · exact .inl ⟨event, there, rfl⟩
  | committed a old _ found =>
    rcases Table.get_put_cases stored with ⟨rfl, rfl⟩ | ⟨-, there⟩
    · exact .inl ⟨old, found, rfl⟩
    · exact .inl ⟨event, there, rfl⟩
  | appended incoming about index stampMs reservations _ _ _ free =>
    rcases Table.get_put_cases stored with ⟨rfl, rfl⟩ | ⟨-, there⟩
    · exact .inr (free.imp And.left And.left)
    · exact .inl ⟨event, there, rfl⟩

theorem Queued.uncontained (inv : Queued s) (free : s.containedEventExists job = .ok false)
    {id : String} {event : ContainmentEvent} (stored : s.events.get id = some event) :
    event.job ≠ job := by
  rintro rfl
  unfold Store.containedEventExists at free
  split at free
  · nomatch free
  next index found =>
    split at free
    · nomatch free
    obtain ⟨there, -⟩ := Store.ensureJobIndex_ok found
    obtain ⟨index', there', member⟩ := inv.indexed id event stored
    cases there.symm.trans there'
    have some_active := List.length_pos_of_mem member
    rw [← (inv.listed _ _ there).count] at some_active
    simp only [Except.ok.injEq, decide_eq_false_iff_not] at free
    exact free some_active

/-- **A step that is no plain append keeps the owners of a job apart.** -/
theorem Exclusive.change (inv : Exclusive s) (queued : Queued s)
    (change : Change s may added dropped s') (careful : ¬may.plain) : Exclusive s' := by
  intro id event stored
  rcases change.stored stored with ⟨old, was, same⟩ | plain | free
  · have move := change.reservations event.job
    rw [← same, inv id old was] at move
    rw [← same]
    cases after : s'.reservations.get old.job with
    | none => rfl
    | some r' =>
      rw [after] at move
      cases move with
      | first owner token now _ free => exact absurd rfl (queued.uncontained free was)
  · exact absurd plain careful
  · exact free

end Steps

/-! ## Runs -/

namespace System

variable {rt : Runtime} {s : System} {event : Event}

theorem licence_plain (careful : event.isPlain = false) : ¬event.licence.plain := by
  cases event with
  | op what =>
    intro plain
    exact Bool.false_ne_true (careful.symm.trans plain)
  | _ => exact not_false

theorem licence_token {token : String} (given : event.licence.token token) :
    event.token? = some token := by
  cases event with
  | op what => exact given
  | _ => exact given.elim

variable {events : List Event}

theorem run_exclusive (careful : ∀ event ∈ events, event.isPlain = false) (queued : Queued s.store)
    (inv : Exclusive s.store) : Exclusive (s.run rt events).store := by
  induction events generalizing s with
  | nil => exact inv
  | cons event rest ih =>
    obtain ⟨added, dropped, steps⟩ := s.step_steps rt event
    exact ih (fun e member => careful e (List.mem_cons_of_mem _ member))
      (queued.change steps.change)
      (inv.change queued steps.change (licence_plain (careful event List.mem_cons_self)))

def tokens (events : List Event) : List String := events.filterMap Event.token?

variable {job : JobKey} {r : RedriveReservation}

theorem run_tokens {used : List String} (events : List Event)
    (inv : ∀ job r, s.store.reservations.get job = some r → r.token ∈ used)
    (there : (s.run rt events).store.reservations.get job = some r) :
    r.token ∈ used ++ tokens events := by
  induction events generalizing s used with
  | nil => exact List.mem_append_left _ (inv job r there)
  | cons event rest ih =>
    have next : r.token ∈ (used ++ tokens [event]) ++ tokens rest := by
      refine ih (fun job' r' there' => ?_) there
      obtain ⟨added, dropped, steps⟩ := s.step_steps rt event
      have move := steps.change.reservations job'
      rw [there'] at move
      rcases move.token with given | ⟨old, was, same⟩
      · exact List.mem_append_right _ (List.mem_filterMap.mpr
          ⟨event, List.mem_singleton_self _, licence_token given⟩)
      · rw [show r'.token = old.token from congrArg (·.2.1) same]
        exact List.mem_append_left _ (inv job' old was)
    rwa [List.append_assoc, tokens, tokens, ← List.filterMap_append] at next

theorem run_retired {token : String} (fresh : token ∉ tokens events)
    (gone : ∀ r, s.store.reservations.get job = some r → r.token ≠ token) :
    ∀ r, (s.run rt events).store.reservations.get job = some r → r.token ≠ token := by
  induction events generalizing s with
  | nil => exact gone
  | cons event rest ih =>
    have split : tokens (event :: rest) = tokens [event] ++ tokens rest :=
      List.filterMap_append (l := [event])
    rw [split, List.mem_append, not_or] at fresh
    refine ih fresh.2 fun r there => ?_
    obtain ⟨added, dropped, steps⟩ := s.step_steps rt event
    have move := steps.change.reservations job
    rw [there] at move
    rcases move.token with given | ⟨old, was, same⟩
    · rintro rfl
      exact fresh.1 (List.mem_filterMap.mpr ⟨event, List.mem_singleton_self _, licence_token given⟩)
    · rw [show r.token = old.token from congrArg (·.2.1) same]
      exact gone old was

/-- The job has a reservation after every step of the run. -/
def Lives (rt : Runtime) (job : JobKey) (s : System) (events : List Event) : Prop :=
  Along (step rt) (fun s event => (s.step rt event).store.reservations.get job ≠ none) s events

/-- **The holder of a reservation stays once it is not held any more.** -/
theorem Lives.holder (lives : Lives rt job s events) {r' : RedriveReservation}
    (there : s.store.reservations.get job = some r) (taken : r.state ≠ .held)
    (there' : (s.run rt events).store.reservations.get job = some r') : r'.holder = r.holder := by
  have kept := lives.invariant
    (fun s => ∃ r1, s.store.reservations.get job = some r1 ∧ r1.state ≠ .held ∧
      r1.holder = r.holder)
    (fun {s event} ⟨r1, there1, taken1, same⟩ stays => by
      obtain ⟨r2, there2⟩ := Option.ne_none_iff_exists'.mp stays
      obtain ⟨added, dropped, steps⟩ := s.step_steps rt event
      have move := steps.change.reservations job
      rw [there1, there2] at move
      have on := move.advances
      refine ⟨r2, there2, fun held => ?_, (on.holder taken1).trans same⟩
      rcases on.state with keep | ⟨was, -⟩ | ⟨-, done⟩
      · exact taken1 (keep.symm.trans held)
      · exact taken1 was
      · nomatch done.symm.trans held)
    ⟨r, there, taken, rfl⟩
  obtain ⟨r1, there1, -, same⟩ := kept
  cases there1.symm.trans there'
  exact same

end System

theorem Store.beginReservedEffect_eligible {s : Store} {repo jobId owner token : String}
    {epoch : Nat} {effectId : Option String} {now : Int} {permit : RedrivePermit}
    (eligible : (s.beginReservedEffect repo jobId owner token epoch effectId now).1 =
      .eligible permit) :
    ∃ job r, normalizeRedriveIdentity repo jobId = some job ∧ s.reservations.get job = some r ∧
      r.holder = (owner, token, epoch) := by
  unfold Store.beginReservedEffect at eligible
  split at eligible
  · cases eligible
  next job named =>
    split at eligible
    · cases eligible
    split at eligible
    · cases eligible
    next r there =>
      split at eligible
      · cases eligible
      next matched =>
        simp only [reservationTupleMatches, Bool.not_eq_true', Bool.not_eq_false, Bool.and_eq_true,
          beq_iff_eq, decide_eq_true_eq] at matched
        obtain ⟨⟨⟨⟨-, rfl⟩, rfl⟩, rfl⟩, -⟩ := matched
        exact ⟨job, r, named, there, rfl⟩

/-- **Containment and redrive never own a job at the same time.** In every state that events other
than plain appends reach:

* no job has both a contained event and a reservation;
* a step leaves a reservation as it is, moves it forward, or takes it away, and its epoch grows only
  while it is held;
* as long as a reservation lives, its holder does not change once it is eligible;
* a holder that lost its hold is never answered that it is eligible, if no two calls are given the
  same token. -/
theorem redrive_exclusive (rt : Runtime) (before : List Event)
    (careful : ∀ event ∈ before, event.isPlain = false) (s : System)
    (reached : s = ({} : System).run rt before) (job : JobKey) :
    (∀ id event, s.store.events.get id = some event → event.job = job →
      s.store.reservations.get job = none) ∧ (∀ what r r', s.store.reservations.get job = some r →
      (s.step rt what).store.reservations.get job = some r' → r.Advances r') ∧
    (∀ later r r', System.Lives rt job s later → s.store.reservations.get job = some r →
      r.state = .effectEligible → (s.run rt later).store.reservations.get job = some r' →
      r'.holder = r.holder) ∧
    ∀ what later r, s.store.reservations.get job = some r → r.state = .held →
      (∀ r', (s.step rt what).store.reservations.get job = some r' → r'.holder ≠ r.holder) →
      (System.tokens (before ++ what :: later)).Nodup →
      ∀ repo jobId effectId now permit, normalizeRedriveIdentity repo jobId = some job →
        (((s.step rt what).run rt later).store.beginReservedEffect repo jobId r.owner r.token
          r.epoch effectId now).1 ≠ .eligible permit := by
  subst reached
  obtain ⟨-, queued, -⟩ := System.run_fenced rt before
  have none_reserved : ∀ job r, ({} : System).store.reservations.get job = some r →
    r.token ∈ [] := nofun
  have none_stored : Exclusive ({} : System).store := nofun
  refine ⟨?_, ?_, ?_, ?_⟩
  · rintro id event stored rfl
    exact System.run_exclusive careful .empty none_stored id event stored
  · intro what r r' there there'
    obtain ⟨added, dropped, steps⟩ := (({} : System).run rt before).step_steps rt what
    have move := steps.change.reservations job
    rw [there, there'] at move
    exact move.advances
  · intro later r r' lives there eligible there'
    exact lives.holder there (fun held => nomatch held.symm.trans eligible) there'
  · intro what later r there held lost fresh repo jobId effectId now permit named eligible
    have used : r.token ∈ System.tokens before := System.run_tokens before none_reserved there
    rw [System.tokens, List.filterMap_append, List.nodup_append] at fresh
    have unused : r.token ∉ System.tokens (what :: later) := fun again =>
      fresh.2.2 r.token used r.token again rfl
    -- what has the place of the lost hold has a token of its own
    have gone : ∀ r', ((({} : System).run rt before).step rt what).store.reservations.get
        job = some r' → r'.token ≠ r.token := by
      intro r' there'
      obtain ⟨added, dropped, steps⟩ := (({} : System).run rt before).step_steps rt what
      have move := steps.change.reservations job
      rw [there, there'] at move
      rcases move.token with given | ⟨old, was, same⟩
      · intro same
        exact unused (List.mem_filterMap.mpr
          ⟨what, List.mem_cons_self, same ▸ System.licence_token given⟩)
      · cases was
        exact absurd same (lost r' there')
    obtain ⟨job', r', named', there', holder⟩ := Store.beginReservedEffect_eligible eligible
    cases named.symm.trans named'
    have later_unused : r.token ∉ System.tokens later := fun again =>
      unused (List.mem_filterMap.mpr (by
        obtain ⟨event, member, given⟩ := List.mem_filterMap.mp again
        exact ⟨event, List.mem_cons_of_mem _ member, given⟩))
    exact System.run_retired later_unused gone r' there' (congrArg (·.2.1) holder)

/-- A worker holds a job, and an admission takes its expired hold over. -/
def takenOver : List Event :=
  [.op (.bootstrapContainedEventIndex "acme/repo" "1" 0),
    .op (.reserveRedriveCandidate "acme/repo" "1" 0 "worker" "token-1")]

theorem redrive_exclusive_taken :
    ((({} : System).run blankRuntime takenOver).store.reservations.get acmeJob).isSome = true ∧
    ∀ permit, (((({} : System).run blankRuntime takenOver).step blankRuntime
      (.op (.admitQueued (acmeEvent "evt-1") .paused 600000 600000))).store.beginReservedEffect
        "acme/repo" "1" "worker" "token-1" 1 none 1).1 ≠ .eligible permit := by
  refine ⟨by decide +kernel, fun permit => ?_⟩
  have there : (({} : System).run blankRuntime takenOver).store.reservations.get acmeJob =
      some (Store.newReservation acmeJob "worker" "token-1" 0) := by decide +kernel
  have taken : ((({} : System).run blankRuntime takenOver).step blankRuntime
      (.op (.admitQueued (acmeEvent "evt-1") .paused 600000 600000))).store.reservations.get
        acmeJob = none := by decide +kernel
  exact (redrive_exclusive blankRuntime takenOver (by decide) _ rfl acmeJob).2.2.2 _ [] _ there rfl
    (fun r' there' => nomatch taken.symm.trans there') (by decide) "acme/repo" "1" none 1 permit
    (by decide +kernel)

end CorelinkRunners.Containment
