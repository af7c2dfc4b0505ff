import CorelinkRunners.Containment.Run

/-!
# The queue of contained events

The six families of records of the queue agree with each other in every state that the operations
reach (`Queued`), and the history of a run is the queue's own order: what was removed is the
beginning of what was appended (`Recorded`). The integrity of the queue is read off these two.
-/

namespace CorelinkRunners.Containment

open Kit Table

/-- The index of a job lists the stored events of the job, each once. -/
structure Listed (s : Store) (job : JobKey) (index : ContainmentJobIndex) : Prop where
  about : index.job = job
  count : index.activeCount = index.activeEventIds.length
  bound : index.activeEventIds.length ≤ maxActiveIndexEvents
  distinct : index.activeEventIds.Nodup
  stored : ∀ id ∈ index.activeEventIds, ∃ event, s.events.get id = some event ∧ event.job = job
  initialized : s.indexMeta = true
  marked : ∃ marker, s.markers.get job = some marker ∧ marker.job = job

/-- **The records of the queue agree.** -/
structure Queued (s : Store) : Prop where
  counts : s.head.backlogCount + s.head.drainCursor + 1 = s.head.nextPauseSeq
  /-- A place of the queue is between the cursor and the end, and its event is stored. -/
  pause : ∀ seq pause, s.pauses.get seq = some pause → s.head.drainCursor < seq ∧
    seq < s.head.nextPauseSeq ∧ pause.pauseSeq = seq ∧
    ∃ event, s.events.get pause.eventId = some event ∧ event.pauseSeq = seq
  /-- Every place between the cursor and the end is taken. -/
  full : ∀ seq, s.head.drainCursor < seq → seq < s.head.nextPauseSeq →
    ∃ pause, s.pauses.get seq = some pause
  event : ∀ id event, s.events.get id = some event → event.eventId = id ∧
    ∃ pause, s.pauses.get event.pauseSeq = some pause ∧ pause.eventId = id
  indexed : ∀ id event, s.events.get id = some event →
    ∃ index, s.index.get event.job = some index ∧ id ∈ index.activeEventIds
  listed : ∀ job index, s.index.get job = some index → Listed s job index

/-! ## Reading the guards -/

variable {s : Store} {job : JobKey} {index : ContainmentJobIndex}

theorem Store.ensureJobIndex_ok (h : s.ensureJobIndex job = .ok index) :
    s.index.get job = some index ∧ isValidJobIndex index job = true := by
  unfold Store.ensureJobIndex at h
  split at h
  · nomatch h
  split at h
  · nomatch h
  next existing found =>
    split at h
    · nomatch h
    next valid =>
      split at h
      · nomatch h
      split at h
      · cases h
        exact ⟨found, by simpa using valid⟩
      · nomatch h

theorem Store.removable_some {head : ContainmentMeta} {event : ContainmentEvent}
    (h : s.removable head event = some index) :
    1 ≤ head.backlogCount ∧ s.index.get event.job = some index := by
  unfold Store.removable at h
  split at h
  · nomatch h
  next bounds =>
    simp only [Bool.or_eq_true, decide_eq_true_eq, not_or, not_lt] at bounds
    split at h
    · nomatch h
    split at h
    · nomatch h
    split at h
    next found _ =>
      split at h
      · cases h
        exact ⟨bounds.1, found⟩
      · nomatch h
    · nomatch h

/-! ## The steps -/

namespace Queued

variable {s : Store}

theorem empty : Queued {} where
  counts := rfl
  pause := by rintro _ _ ⟨⟩
  full seq low high := by
    have high : seq < 1 := high
    omega
  event := by rintro _ _ ⟨⟩
  indexed := by rintro _ _ ⟨⟩
  listed := by rintro _ _ ⟨⟩

variable {head : ContainmentMeta}

theorem headed (inv : Queued s) {indexMeta : Bool}
    (initialized : s.indexMeta = true → indexMeta = true)
    (next : head.nextPauseSeq = s.head.nextPauseSeq)
    (cursor : head.drainCursor = s.head.drainCursor)
    (backlog : head.backlogCount = s.head.backlogCount) :
    Queued { s with meta_ := some head, indexMeta } where
  counts := by
    change head.backlogCount + head.drainCursor + 1 = head.nextPauseSeq
    rw [next, cursor, backlog]
    exact inv.counts
  pause seq pause there := by
    change head.drainCursor < seq ∧ seq < head.nextPauseSeq ∧ _
    rw [next, cursor]
    exact inv.pause seq pause there
  full seq low high := by
    change head.drainCursor < seq at low
    change seq < head.nextPauseSeq at high
    exact inv.full seq (cursor ▸ low) (next ▸ high)
  event := inv.event
  indexed := inv.indexed
  listed job index found :=
    let old := inv.listed job index found
    { old with initialized := initialized old.initialized }

variable {id : String} {event : ContainmentEvent}

theorem touched (inv : Queued s) {event' : ContainmentEvent} (found : s.events.get id = some event)
    (sameId : event'.eventId = event.eventId) (sameSeq : event'.pauseSeq = event.pauseSeq)
    (sameJob : event'.job = event.job) : Queued { s with events := s.events.put id event' } := by
  -- what is stored before and after differs in nothing that the queue reads
  have back (a : String) (e : ContainmentEvent) (h : (s.events.put id event').get a = some e) :
      ∃ old, s.events.get a = some old ∧ e.eventId = old.eventId ∧ e.pauseSeq = old.pauseSeq ∧
        e.job = old.job := by
    rcases get_put_cases h with ⟨rfl, rfl⟩ | ⟨-, old⟩
    · exact ⟨event, found, sameId, sameSeq, sameJob⟩
    · exact ⟨e, old, rfl, rfl, rfl⟩
  have forth (a : String) (old : ContainmentEvent) (h : s.events.get a = some old) :
      ∃ e, (s.events.put id event').get a = some e ∧ e.pauseSeq = old.pauseSeq ∧
        e.job = old.job := by
    by_cases same : a = id
    · subst same
      cases found.symm.trans h
      exact ⟨event', get_put_self _ _ _, sameSeq, sameJob⟩
    · exact ⟨old, (get_put_of_ne same).trans h, rfl, rfl⟩
  refine ⟨inv.counts, fun seq pause there => ?_, inv.full, fun a e h => ?_, fun a e h => ?_,
    fun job index there => ?_⟩
  · obtain ⟨low, high, here, old, stored, place⟩ := inv.pause seq pause there
    obtain ⟨e, now, seqs, -⟩ := forth _ _ stored
    exact ⟨low, high, here, e, now, seqs.trans place⟩
  · obtain ⟨old, stored, ids, seqs, -⟩ := back a e h
    rw [ids, seqs]
    exact inv.event a old stored
  · obtain ⟨old, stored, -, -, jobs⟩ := back a e h
    rw [jobs]
    exact inv.indexed a old stored
  · have old := inv.listed job index there
    refine { old with stored := fun a member => ?_ }
    obtain ⟨e, stored, jobs⟩ := old.stored a member
    obtain ⟨e', now, -, jobs'⟩ := forth _ _ stored
    exact ⟨e', now, jobs'.trans jobs⟩

variable {job : JobKey}

theorem bootstrapped (inv : Queued s) (now : Int) (unindexed : s.index.get job = none) :
    Queued { s with
      indexMeta := true
      index := s.index.put job ⟨job, [], 0, now⟩
      markers := s.markers.put job ⟨job, now⟩ } := by
  refine ⟨inv.counts, inv.pause, inv.full, inv.event, fun id event found => ?_,
    fun job' index found => ?_⟩
  · obtain ⟨index, there, member⟩ := inv.indexed id event found
    have other : event.job ≠ job := by
      rintro rfl
      nomatch unindexed.symm.trans there
    exact ⟨index, (get_put_of_ne other).trans there, member⟩
  · rcases get_put_cases found with ⟨rfl, rfl⟩ | ⟨other, there⟩
    · exact ⟨rfl, rfl, Nat.zero_le _, List.nodup_nil, nofun, rfl, _, get_put_self _ _ _, rfl⟩
    · have old := inv.listed job' index there
      obtain ⟨marker, marked, same⟩ := old.marked
      exact { old with
        initialized := rfl
        marked := ⟨marker, (get_put_of_ne other).trans marked, same⟩ }

variable {index : ContainmentJobIndex}

theorem appended (inv : Queued s) {event : IncomingEvent} {stampMs : Int}
    (reservations : Table JobKey RedriveReservation) (found : s.index.get job = some index)
    (fresh : s.events.get event.eventId = none) (room : index.activeCount < maxActiveIndexEvents) :
    Queued ({ s with reservations }.enqueue event index job stampMs) := by
  have kept {id : String} {e : ContainmentEvent} (stored : s.events.get id = some e) :
      id ≠ event.eventId := by
    rintro rfl
    nomatch fresh.symm.trans stored
  have counts := inv.counts
  have list := inv.listed job index found
  refine ⟨?_, fun seq pause there => ?_, fun seq low high => ?_, fun id e stored => ?_,
    fun id e stored => ?_, fun job' index' there => ?_⟩
  · change s.head.backlogCount + 1 + s.head.drainCursor + 1 = s.head.nextPauseSeq + 1
    omega
  · change s.head.drainCursor < seq ∧ seq < s.head.nextPauseSeq + 1 ∧ _
    rcases get_put_cases there with ⟨rfl, rfl⟩ | ⟨other, old⟩
    · exact ⟨by change _ < s.head.nextPauseSeq; omega, Nat.lt_succ_self _, rfl, _,
        get_put_self _ _ _, rfl⟩
    · obtain ⟨low, high, here, e, stored, place⟩ := inv.pause seq pause old
      exact ⟨low, by omega, here, e, (get_put_of_ne (kept stored)).trans stored, place⟩
  · change seq < s.head.nextPauseSeq + 1 at high
    by_cases last : seq = s.head.nextPauseSeq
    · subst last
      exact ⟨_, get_put_self _ _ _⟩
    · obtain ⟨pause, there⟩ := inv.full seq low (by omega)
      exact ⟨pause, (get_put_of_ne last).trans there⟩
  · rcases get_put_cases stored with ⟨rfl, rfl⟩ | ⟨-, old⟩
    · exact ⟨rfl, _, get_put_self _ _ _, rfl⟩
    · obtain ⟨same, pause, there, names⟩ := inv.event id e old
      obtain ⟨-, high, -⟩ := inv.pause _ _ there
      exact ⟨same, pause, (get_put_of_ne (Nat.ne_of_lt high)).trans there, names⟩
  · rcases get_put_cases stored with ⟨rfl, rfl⟩ | ⟨-, old⟩
    · exact ⟨_, get_put_self _ _ _, List.mem_append_right _ List.mem_cons_self⟩
    · obtain ⟨index', there, member⟩ := inv.indexed id e old
      by_cases same : e.job = job
      · rw [same] at there ⊢
        cases found.symm.trans there
        exact ⟨_, get_put_self _ _ _, List.mem_append_left _ member⟩
      · exact ⟨index', (get_put_of_ne same).trans there, member⟩
  · rcases get_put_cases there with ⟨rfl, rfl⟩ | ⟨-, old⟩
    · refine ⟨list.about, ?_, ?_, ?_, fun id member => ?_, list.initialized, list.marked⟩
      · simp only [List.length_append, List.length_singleton, list.count]
      · rw [List.length_append, List.length_singleton, ← list.count]
        exact room
      · refine List.nodup_append.mpr ⟨list.distinct, List.nodup_singleton _, ?_⟩
        rintro id member _ last rfl
        obtain ⟨e, stored, -⟩ := list.stored id member
        exact kept stored (List.mem_singleton.mp last)
      · rcases List.mem_append.mp member with before | last
        · obtain ⟨e, stored, same⟩ := list.stored id before
          exact ⟨e, (get_put_of_ne (kept stored)).trans stored, same⟩
        · rw [List.mem_singleton.mp last]
          exact ⟨_, get_put_self _ _ _, rfl⟩
    · have before := inv.listed job' index' old
      refine { before with stored := fun id member => ?_ }
      obtain ⟨e, stored, same⟩ := before.stored id member
      exact ⟨e, (get_put_of_ne (kept stored)).trans stored, same⟩

theorem removed (inv : Queued s) (stampMs : Int) (headed : s.meta_ = some head)
    (found : s.events.get id = some event) (current : isCurrentHead head event = true)
    (removable : s.removable head event = some index) :
    Queued (s.removeHead id head event index stampMs) := by
  obtain ⟨backlog, indexFound⟩ := Store.removable_some removable
  obtain rfl := Store.head_of_meta headed
  have place : event.pauseSeq = s.head.drainCursor + 1 := by simpa [isCurrentHead] using current
  have counts := inv.counts
  obtain ⟨rfl, pause, paused, names⟩ := inv.event id event found
  have list := inv.listed event.job index indexFound
  -- no other event is at the place of the head
  have elsewhere {a : String} {e : ContainmentEvent} (stored : s.events.get a = some e)
      (other : a ≠ event.eventId) : e.pauseSeq ≠ event.pauseSeq := by
    intro seqs
    obtain ⟨-, p, there, named⟩ := inv.event a e stored
    rw [seqs] at there
    cases paused.symm.trans there
    exact other (named.symm.trans names)
  refine ⟨?_, fun seq p there => ?_, fun seq low high => ?_, fun a e stored => ?_,
    fun a e stored => ?_, fun job index' there => ?_⟩
  · change s.head.backlogCount - 1 + event.pauseSeq + 1 = s.head.nextPauseSeq
    omega
  · change event.pauseSeq < seq ∧ seq < s.head.nextPauseSeq ∧ _
    obtain ⟨otherSeq, old⟩ := get_delete_some there
    obtain ⟨low, high, here, e, stored, seqs⟩ := inv.pause seq p old
    have other : p.eventId ≠ event.eventId := by
      intro names'
      rw [names'] at stored
      cases found.symm.trans stored
      exact otherSeq seqs.symm
    exact ⟨by omega, high, here, e, (get_delete_of_ne other).trans stored, seqs⟩
  · change event.pauseSeq < seq at low
    change seq < s.head.nextPauseSeq at high
    obtain ⟨p, there⟩ := inv.full seq (by omega) high
    exact ⟨p, (get_delete_of_ne (Nat.ne_of_gt low)).trans there⟩
  · obtain ⟨other, old⟩ := get_delete_some stored
    obtain ⟨ids, p, there, named⟩ := inv.event a e old
    exact ⟨ids, p, (get_delete_of_ne (elsewhere old other)).trans there, named⟩
  · obtain ⟨other, old⟩ := get_delete_some stored
    obtain ⟨index', there, member⟩ := inv.indexed a e old
    dsimp only [Store.removeHead]
    by_cases sameJob : e.job = event.job
    · rw [sameJob] at there ⊢
      cases indexFound.symm.trans there
      have stays : a ∈ index.activeEventIds.filter fun id => id != event.eventId := by
        simp [member, other]
      have some_left : (index.activeEventIds.filter fun id => id != event.eventId).isEmpty ≠ true :=
        fun none_left => by simp [List.isEmpty_iff.mp none_left] at stays
      rw [if_neg some_left]
      exact ⟨_, get_put_self _ _ _, stays⟩
    · split
      · exact ⟨index', (get_delete_of_ne sameJob).trans there, member⟩
      · exact ⟨index', (get_put_of_ne sameJob).trans there, member⟩
  · dsimp only [Store.removeHead] at there
    have others (h : s.index.get job = some index') (other : job ≠ event.job) :
        Listed (s.removeHead event.eventId s.head event index stampMs) job index' := by
      have before := inv.listed job index' h
      refine { before with stored := fun a member => ?_ }
      obtain ⟨e, stored, about⟩ := before.stored a member
      have another : a ≠ event.eventId := by
        rintro rfl
        cases found.symm.trans stored
        exact other about.symm
      exact ⟨e, (get_delete_of_ne another).trans stored, about⟩
    split at there
    · obtain ⟨other, old⟩ := get_delete_some there
      exact others old other
    · rcases get_put_cases there with ⟨rfl, rfl⟩ | ⟨other, old⟩
      · refine ⟨list.about, rfl, ?_, list.distinct.filter _, fun a member => ?_, list.initialized,
          list.marked⟩
        · exact (List.length_filter_le _ _).trans list.bound
        · obtain ⟨member, other⟩ := List.mem_filter.mp member
          obtain ⟨e, stored, about⟩ := list.stored a member
          exact ⟨e, (get_delete_of_ne (by simpa using other)).trans stored, about⟩
      · exact others old other

/-- **Every step keeps the records of the queue in agreement.** -/
theorem change (inv : Queued s) {may : Licence} {added dropped : Option String}
    {s' : Store} (change : Change s may added dropped s') : Queued s' := by
  cases change with
  | same => exact inv
  | foreign =>
    exact ⟨inv.counts, inv.pause, inv.full, inv.event, inv.indexed, fun job index found =>
      { inv.listed job index found with }⟩
  | bootstrapped job now unindexed _ _ => exact inv.bootstrapped now unindexed
  | appended event job index stampMs reservations found fresh room _ =>
    exact inv.appended reservations (Store.ensureJobIndex_ok found).1 fresh room
  | headed head indexMeta initialized next cursor backlog _ _ =>
    exact inv.headed initialized next cursor backlog
  | touched id event state claim permit found _ _ => exact inv.touched found rfl rfl rfl
  | committed id event _ found => exact inv.touched found rfl rfl rfl
  | removed id head event index stampMs headed found current removable =>
    exact inv.removed stampMs headed found current removable
  | redriven =>
    exact ⟨inv.counts, inv.pause, inv.full, inv.event, inv.indexed, fun job index found =>
      { inv.listed job index found with }⟩

end Queued

/-! ## The history -/

/-- The queue and its history: the event at a place is the one that was appended there, and the
events before the cursor are the ones that were removed. -/
structure Recorded (s : Store) (appended removed : List String) : Prop where
  queued : Queued s
  ends : appended.length + 1 = s.head.nextPauseSeq
  removed : removed = appended.take s.head.drainCursor
  placed : ∀ seq pause, s.pauses.get seq = some pause → appended[seq - 1]? = some pause.eventId

namespace Recorded

variable {s : Store} {appended removed : List String}

theorem empty : Recorded {} [] [] := ⟨.empty, rfl, rfl, by rintro _ _ ⟨⟩⟩

/-- **Every step extends the history as the queue does.** -/
theorem change (inv : Recorded s appended removed) {may : Licence}
    {added dropped : Option String} {s' : Store} (change : Change s may added dropped s') :
    Recorded s' (appended ++ added.toList) (removed ++ dropped.toList) := by
  have queued := inv.queued.change change
  have still (ends : appended.length + 1 = s'.head.nextPauseSeq)
      (cursor : s'.head.drainCursor = s.head.drainCursor) (pauses : s'.pauses = s.pauses) :
      Recorded s' (appended ++ (none : Option String).toList)
        (removed ++ (none : Option String).toList) := by
    rw [Option.toList_none, List.append_nil, List.append_nil]
    exact ⟨queued, ends, cursor ▸ inv.removed, pauses ▸ inv.placed⟩
  have counts := inv.queued.counts
  have ends := inv.ends
  cases change with
  | same => exact still inv.ends rfl rfl
  | foreign => exact still inv.ends rfl rfl
  | bootstrapped => exact still inv.ends rfl rfl
  | touched => exact still inv.ends rfl rfl
  | committed => exact still inv.ends rfl rfl
  | redriven => exact still inv.ends rfl rfl
  | headed head indexMeta _ next cursor _ _ _ => exact still (inv.ends.trans next.symm) cursor rfl
  | appended event job index stampMs reservations found fresh room _ =>
    refine ⟨queued, ?_, ?_, fun seq pause there => ?_⟩
    · change (appended ++ [event.eventId]).length + 1 = s.head.nextPauseSeq + 1
      rw [List.length_append, List.length_singleton, ends]
    · change removed ++ [] = (appended ++ [event.eventId]).take s.head.drainCursor
      rw [List.append_nil, List.take_append_of_le_length (by omega)]
      exact inv.removed
    · change (appended ++ [event.eventId])[seq - 1]? = _
      rcases get_put_cases there with ⟨rfl, rfl⟩ | ⟨-, old⟩
      · have last : s.head.nextPauseSeq - 1 = appended.length := by omega
        change (appended ++ [event.eventId])[s.head.nextPauseSeq - 1]? = some event.eventId
        rw [last, List.getElem?_concat_length]
      · obtain ⟨low, high, -⟩ := inv.queued.pause seq pause old
        rw [List.getElem?_append_left (by omega)]
        exact inv.placed seq pause old
  | removed id head event index stampMs headed found current removable =>
    obtain rfl := Store.head_of_meta headed
    have place : event.pauseSeq = s.head.drainCursor + 1 := by simpa [isCurrentHead] using current
    obtain ⟨-, pause, paused, names⟩ := inv.queued.event id event found
    have at_head : appended[s.head.drainCursor]? = some id := by
      have placed := inv.placed _ _ paused
      rwa [place, Nat.add_sub_cancel, names] at placed
    refine ⟨queued, ?_, ?_, fun seq pause there => ?_⟩
    · change (appended ++ []).length + 1 = s.head.nextPauseSeq
      rw [List.append_nil, ends]
    · change removed ++ [id] = (appended ++ []).take event.pauseSeq
      rw [List.append_nil, place, List.take_add_one, at_head, inv.removed, Option.toList_some]
    · change (appended ++ [])[seq - 1]? = _
      rw [List.append_nil]
      exact inv.placed seq pause (get_delete_some there).2

end Recorded

theorem System.run_recorded (rt : Runtime) (events : List Event) {s : System}
    (inv : Recorded s.store s.appended s.removed) :
    Recorded (s.run rt events).store (s.run rt events).appended (s.run rt events).removed := by
  induction events generalizing s with
  | nil => exact inv
  | cons event rest ih =>
    obtain ⟨added, dropped, change, appended, removed⟩ := s.step_steps rt event
    refine ih ?_
    rw [appended, removed]
    exact inv.change change

/-! ## Integrity -/

structure Integrity (s : System) : Prop where
  /-- The backlog is what lies between the cursor and the end. -/
  backlog : s.store.head.backlogCount + s.store.head.drainCursor + 1 = s.store.head.nextPauseSeq
  /-- There is a place for every sequence number in between, and for no other. -/
  places : ∀ seq, (∃ pause, s.store.pauses.get seq = some pause) ↔
    s.store.head.drainCursor < seq ∧ seq < s.store.head.nextPauseSeq
  /-- A place names a stored event with the same sequence number. -/
  names : ∀ seq pause, s.store.pauses.get seq = some pause → pause.pauseSeq = seq ∧
    ∃ event, s.store.events.get pause.eventId = some event ∧ event.pauseSeq = seq
  /-- Two places name different events. -/
  distinct : ∀ seq seq' pause pause', s.store.pauses.get seq = some pause →
    s.store.pauses.get seq' = some pause' → pause.eventId = pause'.eventId → seq = seq'
  /-- Every stored event has a place. -/
  queued : ∀ id event, s.store.events.get id = some event → event.eventId = id ∧
    ∃ pause, s.store.pauses.get event.pauseSeq = some pause ∧ pause.eventId = id
  /-- The index of a job lists its stored events, each once. -/
  indexed : ∀ job index, s.store.index.get job = some index → index.activeEventIds.Nodup ∧
    index.activeCount = index.activeEventIds.length ∧ ∀ id, id ∈ index.activeEventIds ↔
      ∃ event, s.store.events.get id = some event ∧ event.job = job
  /-- A job without an index has no stored event. -/
  unindexed : ∀ job, s.store.index.get job = none → ∀ id event,
    s.store.events.get id = some event → event.job ≠ job
  /-- Events leave in the order they were appended, each once. -/
  order : s.removed = s.appended.take s.store.head.drainCursor ∧
    s.appended.length + 1 = s.store.head.nextPauseSeq
  /-- Under a valid lease there is a next event as long as there is a backlog. -/
  claims : ∀ owner epoch now, leaseMatches s.store.head owner epoch now = true →
    (s.store.claimNext owner epoch now).1 = none → s.store.head.backlogCount = 0

theorem Queued.claimNext_none (inv : Queued s) {owner : String} {epoch : Nat} {now : Int}
    (lease : leaseMatches s.head owner epoch now = true)
    (h : (s.claimNext owner epoch now).1 = none) : s.head.backlogCount = 0 := by
  by_contra backlog
  have counts := inv.counts
  obtain ⟨pause, paused⟩ := inv.full (s.head.drainCursor + 1) (by omega) (by omega)
  obtain ⟨-, -, place, event, stored, seqs⟩ := inv.pause _ _ paused
  obtain ⟨ids, -⟩ := inv.event _ _ stored
  cases headed : s.meta_ with
  | none =>
    rw [Store.head, headed] at lease
    cases lease
  | some head =>
    obtain rfl := Store.head_of_meta headed
    unfold Store.claimNext at h
    rw [headed] at h
    simp only [lease, Bool.not_true, Bool.false_or, beq_iff_eq, backlog, if_false, paused, stored,
      isCurrentHead, seqs, place, ids, bne_self_eq_false, Bool.or_self, beq_self_eq_true,
      Bool.false_eq_true] at h
    split at h
    · cases h
    · cases h

/-- **Containment queue integrity.** -/
theorem queue_integrity (rt : Runtime) (events : List Event) :
    Integrity (System.run rt {} events) := by
  have recorded := System.run_recorded rt events (s := {}) .empty
  have inv := recorded.queued
  have counts := inv.counts
  have ends := recorded.ends
  refine ⟨counts, fun seq => ⟨?_, ?_⟩, fun seq pause there => ?_, ?_, inv.event,
    fun job index found => ?_, ?_, ⟨recorded.removed, by omega⟩, fun owner epoch now lease h => ?_⟩
  · rintro ⟨pause, there⟩
    obtain ⟨low, high, -⟩ := inv.pause seq pause there
    omega
  · rintro ⟨low, high⟩
    exact inv.full seq (by omega) (by omega)
  · obtain ⟨-, -, place, event, stored, seqs⟩ := inv.pause seq pause there
    exact ⟨place, event, stored, seqs⟩
  · intro seq seq' pause pause' there there' same
    obtain ⟨-, -, -, event, stored, seqs⟩ := inv.pause seq pause there
    obtain ⟨-, -, -, event', stored', seqs'⟩ := inv.pause seq' pause' there'
    rw [same] at stored
    cases stored.symm.trans stored'
    exact seqs.symm.trans seqs'
  · have list := inv.listed job index found
    refine ⟨list.distinct, list.count, fun id => ⟨list.stored id, ?_⟩⟩
    rintro ⟨event, stored, rfl⟩
    obtain ⟨index', there, member⟩ := inv.indexed id event stored
    cases found.symm.trans there
    exact member
  · rintro job absent id event stored rfl
    obtain ⟨index, there, -⟩ := inv.indexed id event stored
    nomatch absent.symm.trans there
  · exact inv.claimNext_none lease h

/-! ## Jobs that come back -/

/-- Nothing stands in the way of the job: nobody else owns it, its index was not deleted, and no
active event has the empty id. -/
structure Open (s : Store) (job : JobKey) : Prop where
  unowned : s.isOwned job = false
  /-- An index that is not there has never been there. -/
  paired : s.index.get job = none → s.markers.get job = none
  named : ∀ index, s.index.get job = some index → "" ∉ index.activeEventIds

theorem Listed.valid (list : Listed s job index) (named : "" ∉ index.activeEventIds) :
    isValidJobIndex index job = true := by
  have nonempty : ∀ id ∈ index.activeEventIds, id ≠ "" := by
    rintro id member rfl
    exact named member
  simpa [isValidJobIndex, list.about, list.count, list.bound, list.distinct] using nonempty

theorem Listed.ensured (list : Listed s job index) (found : s.index.get job = some index)
    (named : "" ∉ index.activeEventIds) : s.ensureJobIndex job = .ok index := by
  obtain ⟨marker, marked, about⟩ := list.marked
  simp [Store.ensureJobIndex, list.initialized, found, list.valid named, marked,
    isValidJobIndexMarker, about]

theorem Listed.contained (list : Listed s job index) (found : s.index.get job = some index)
    (named : "" ∉ index.activeEventIds) :
    s.containedEventExists job = .ok (decide (0 < index.activeCount)) := by
  unfold Store.containedEventExists
  rw [list.ensured found named]
  dsimp only
  have passes : index.activeEventIds.findSome? (s.listedError job) = none := by
    refine List.findSome?_eq_none_iff.mpr fun id member => ?_
    obtain ⟨event, stored, rfl⟩ := list.stored id member
    rw [Store.listedError, stored]
    exact if_pos event.job.normalize
  rw [passes]

variable {repo jobId : String}

theorem Open.bootstrap (open_ : Open s job) (inv : Queued s)
    (named : normalizeRedriveIdentity repo jobId = some job) (now : Int) :
    (∃ index, s.index.get job = some index ∧
      s.bootstrapContainedEventIndex repo jobId now = (.alreadyPresent, s)) ∨
    s.index.get job = none ∧ s.bootstrapContainedEventIndex repo jobId now =
      (.bootstrapped, { s with
      indexMeta := true
      index := s.index.put job ⟨job, [], 0, now⟩
      markers := s.markers.put job ⟨job, now⟩ }) := by
  cases found : s.index.get job with
  | some index =>
    have list := inv.listed job index found
    obtain ⟨marker, marked, about⟩ := list.marked
    refine .inl ⟨index, rfl, ?_⟩
    unfold Store.bootstrapContainedEventIndex
    simp [named, found, marked, list.valid (open_.named index found), isValidJobIndexMarker, about]
  | none =>
    refine .inr ⟨rfl, ?_⟩
    unfold Store.bootstrapContainedEventIndex
    simp [named, found, open_.paired found, open_.unowned]

theorem Listed.appends (list : Listed s job index) (found : s.index.get job = some index)
    (named : "" ∉ index.activeEventIds) (room : index.activeCount < maxActiveIndexEvents)
    {event : IncomingEvent} (about : normalizeRedriveIdentity event.repo event.jobId = some job)
    (fresh : s.events.get event.eventId = none) (stampMs : Int) :
    ∃ stored s', s.append event stampMs = .ok (.appended stored, s') := by
  refine ⟨Store.newEvent event job s.head.nextPauseSeq, s.enqueue event index job stampMs, ?_⟩
  unfold Store.append Store.appendInTransaction
  simp only [about, list.ensured found named, fresh, if_neg (Nat.not_le_of_lt room)]

theorem Listed.reserves (list : Listed s job index) (found : s.index.get job = some index)
    (named : "" ∉ index.activeEventIds) (about : normalizeRedriveIdentity repo jobId = some job)
    (now : Int) (owner token : String) :
    ∃ answer, s.reserveRedriveCandidate repo jobId now owner token = .ok answer := by
  unfold Store.reserveRedriveCandidate
  simp only [about, list.contained found named]
  split
  next failed => cases failed
  · exact ⟨_, rfl⟩
  split
  · exact ⟨_, rfl⟩
  split
  · exact ⟨_, rfl⟩
  split
  · split <;> exact ⟨_, rfl⟩
  · exact ⟨_, rfl⟩
  · split <;> exact ⟨_, rfl⟩

/-- **An open job can be contained and re-driven**: its bootstrap is not blocked, and after it a
fresh event is appended as long as the index has room, and a redrive is answered. -/
theorem open_job_admits (rt : Runtime) (events : List Event) (job : JobKey)
    (open_ : Open (System.run rt {} events).store job) (repo jobId : String)
    (named : normalizeRedriveIdentity repo jobId = some job) (now : Int) :
    let s := (System.run rt {} events).store
    let boot := s.bootstrapContainedEventIndex repo jobId now
    boot.1 ≠ .blocked ∧ boot.1 ≠ .invalid ∧
    (∀ event stampMs, normalizeRedriveIdentity event.repo event.jobId = some job →
      s.events.get event.eventId = none →
      (∀ index, s.index.get job = some index → index.activeCount < maxActiveIndexEvents) →
      ∃ stored s', boot.2.append event stampMs = .ok (.appended stored, s')) ∧
    ∀ now' owner token, ∃ answer,
      boot.2.reserveRedriveCandidate repo jobId now' owner token = .ok answer := by
  have inv := (System.run_recorded rt events (s := {}) .empty).queued
  intro s boot
  rcases open_.bootstrap inv named now with ⟨index, found, present⟩ | ⟨found, made⟩
  · have list := inv.listed job index found
    have ids := open_.named index found
    rw [show boot = (.alreadyPresent, s) from present]
    refine ⟨nofun, nofun, fun event stampMs about fresh room => ?_, fun now' owner token => ?_⟩
    · exact list.appends found ids (room index found) about fresh stampMs
    · exact list.reserves found ids named now' owner token
  · have again := inv.bootstrapped now found
    have there := get_put_self s.index job ⟨job, [], 0, now⟩
    have list := again.listed job _ there
    rw [show boot = _ from made]
    refine ⟨nofun, nofun, fun event stampMs about fresh _ => ?_, fun now' owner token => ?_⟩
    · exact list.appends there List.not_mem_nil (Nat.zero_lt_succ 255) about fresh stampMs
    · exact list.reserves there List.not_mem_nil named now' owner token

def acmeJob : JobKey :=
  ⟨"acme/repo", "1", by decide +kernel, by decide +kernel, by decide +kernel⟩

def acmeEvent (eventId : String) : IncomingEvent where
  eventId
  receivedAtMs := 0
  bodySha256 := "digest"
  rawPayload := "payload"
  action := "queued"
  jobId := "1"
  repo := "acme/repo"
  installationId := "42"
  labels := ["corelink"]
  effectId := "containment:v1:" ++ eventId

def blankRuntime : Runtime where
  sha256Hex := id
  parseEvidence _ := none
  canonicalEvidence _ := ""
  parseAttempt _ := none
  attemptText _ _ _ := ""
  placementEffect _ := none
  resultText _ _ _ _ _ := ""
  digestText _ := ""

/-- A job whose only event was contained, claimed and dropped. -/
def drainedRun : List Event :=
  [.op (.bootstrapContainedEventIndex "acme/repo" "1" 0), .op (.append (acmeEvent "evt-1") 0),
    .op (.acquireLease "drainer" 0), .op (.claimNext "drainer" 1 1),
    .op (.acknowledgeTerminal "evt-1" "drainer" 1 2)]

/-- The acknowledgement of the last event deletes the index and keeps the marker, and a deleted
index is never made again: the drained job is locked out. -/
theorem drained_job_blocked : ¬∀ (rt : Runtime) (events : List Event) (job : JobKey) (now : Int),
    (System.run rt {} events).store.isOwned job = false →
    ((System.run rt {} events).store.bootstrapContainedEventIndex job.repo job.jobId now).1 ≠
      .blocked := by
  intro claim
  exact claim blankRuntime drainedRun acmeJob 3 (by decide +kernel) (by decide +kernel)

/-- A job with one event still in the queue is open. -/
theorem open_job_admits_queued :
    (System.run blankRuntime {} (drainedRun.take 3)).store.index.get acmeJob ≠ none ∧
    ∃ stored s', ((System.run blankRuntime {}
      (drainedRun.take 3)).store.bootstrapContainedEventIndex
      "acme/repo" "1" 3).2.append (acmeEvent "evt-2") 4 = .ok (.appended stored, s') := by
  refine ⟨by decide +kernel, ?_⟩
  refine (open_job_admits blankRuntime (drainedRun.take 3) acmeJob ⟨by decide +kernel, ?_, ?_⟩
    "acme/repo" "1" (by decide +kernel) 3).2.2.1 (acmeEvent "evt-2") 4 (by decide +kernel)
    (by decide +kernel) ?_
  · intro absent
    exact absurd absent (by decide +kernel)
  · intro index found
    have only : index.activeEventIds = ["evt-1"] := by
      have known : ((System.run blankRuntime {} (drainedRun.take 3)).store.index.get acmeJob).map
          ContainmentJobIndex.activeEventIds = some ["evt-1"] := by decide +kernel
      rw [found] at known
      exact Option.some.inj known
    rw [only]
    decide
  · intro index found
    have known : ((System.run blankRuntime {} (drainedRun.take 3)).store.index.get acmeJob).map
        ContainmentJobIndex.activeCount = some 1 := by decide +kernel
    rw [found] at known
    rw [Option.some.inj known]
    decide

end CorelinkRunners.Containment
