import CorelinkRunners.Intake.Inbox
import CorelinkRunners.Kit.Run

/-!
# The counter and the indexes of the inbox are exact

In every run from empty storage the two indexes have a key for each pending and for each uncertain
event and no other, and the counter is the number of those keys. Whatever an operation checks of
what it reads therefore passes, and what it reads from the indexes is what a look at all the records
would have found.
-/

namespace CorelinkRunners.Intake

open Kit Store

/-! ## Keys -/

theorem eventKey_inj {a b : String} (h : eventKey a = eventKey b) : a = b := Uri.family_inj h

theorem colon_notMem_padded (time : Int) : ':' ∉ (padded time).toList := by
  intro mem
  simp only [padded, String.toList_ofList, List.leftpad, List.mem_append, List.mem_replicate] at mem
  rcases mem with ⟨-, zero⟩ | sign | digit
  · exact absurd zero (by decide)
  · split at sign
    · exact absurd sign (by decide)
    · nomatch sign
  · exact absurd (Nat.isDigit_of_mem_toDigits (by decide) (by decide) digit) (by decide)

variable {family : String}

theorem indexKey_inj {a b : Record} (h : indexKey family a = indexKey family b) :
    a.eventId = b.eventId := by
  have parts := congrArg String.toList h
  simp only [indexKey, String.toList_append, List.append_assoc] at parts
  have parts' := Uri.append_colon_inj (colon_notMem_padded _) (colon_notMem_padded _)
    (List.append_cancel_left parts)
  exact Uri.encodeComponent_inj (String.toList_inj.mp parts'.2)

theorem startsWith_indexKey (family : String) (r : Record) :
    startsWith (indexKey family r) family = true := by
  rw [startsWith, List.isPrefixOf_iff_prefix, indexKey, String.toList_append, String.toList_append,
    String.toList_append, List.append_assoc, List.append_assoc]
  exact List.prefix_append _ _

/-! ## The invariant -/

/-- The index has a key for each record in the state, which names its event, and no other. -/
def Indexes (events : OrdMap String Record) (state : State) (family : String)
    (index : OrdMap String String) : Prop :=
  ∀ key id, index[key]? = some id ↔
    ∃ r, events[eventKey id]? = some r ∧ r.eventId = id ∧ r.state = state ∧ key = indexKey family r

def Keyed (events : OrdMap String Record) : Prop :=
  ∀ key r, events[key]? = some r → key = eventKey r.eventId ∧ validRecord r r.eventId = true

structure Sound (s : Store) : Prop where
  keyed : Keyed s.events
  pendings : Indexes s.events .pending pendingPrefix s.pendingIndex
  uncertains : Indexes s.events .uncertain uncertainPrefix s.uncertainIndex
  count : s.count.getD 0 = s.pendingIndex.size + s.uncertainIndex.size
  bound : s.count.getD 0 ≤ maxActive
  started : s.count = none → s.events = ∅

namespace Indexes

variable {events : OrdMap String Record} {state : State} {family : String}
  {index : OrdMap String String} {r old : Record}

theorem get_none (h : Indexes events state family index)
    (other : ∀ old, events[eventKey r.eventId]? = some old → old.state ≠ state) :
    index[indexKey family r]? = none := by
  cases there : index[indexKey family r]? with
  | none => rfl
  | some id =>
    obtain ⟨old, found, rfl, is, same⟩ := (h _ _).mp there
    exact absurd is (other old (indexKey_inj same ▸ found))

theorem insert (h : Indexes events state family index) (is : r.state = state)
    (same : ∀ old, events[eventKey r.eventId]? = some old →
      indexKey family old = indexKey family r) :
    Indexes (events.insert (eventKey r.eventId) r) state family
      (index.insert (indexKey family r) r.eventId) := by
  intro key id
  rw [OrdMap.get_insert, OrdMap.get_insert]
  by_cases here : indexKey family r = key
  · subst here
    rw [if_pos rfl, Option.some.injEq]
    constructor
    · rintro rfl
      exact ⟨r, if_pos rfl, rfl, is, rfl⟩
    · rintro ⟨r', -, rfl, -, keys⟩
      exact indexKey_inj keys
  · rw [if_neg here, h key id]
    constructor
    · rintro ⟨r', found, rfl, is', rfl⟩
      refine ⟨r', ?_, rfl, is', rfl⟩
      rw [if_neg, found]
      intro keys
      rw [← eventKey_inj keys] at found
      exact here (same r' found).symm
    · rintro ⟨r', found, named, is', rfl⟩
      split at found
      next keys =>
        cases found
        exact absurd rfl here
      · exact ⟨r', found, named, is', rfl⟩

theorem erase (h : Indexes events state family index) (isNot : r.state ≠ state)
    (same : ∀ old, events[eventKey r.eventId]? = some old →
      indexKey family old = indexKey family r) :
    Indexes (events.insert (eventKey r.eventId) r) state family
      (index.erase (indexKey family r)) := by
  intro key id
  rw [OrdMap.get_erase, OrdMap.get_insert]
  constructor
  · intro there
    split at there
    · nomatch there
    next other =>
      obtain ⟨r', found, rfl, is, rfl⟩ := (h key id).mp there
      refine ⟨r', ?_, rfl, is, rfl⟩
      rw [if_neg, found]
      intro keys
      rw [← eventKey_inj keys] at found
      exact other (same r' found).symm
  · rintro ⟨r', found, rfl, is, rfl⟩
    split at found
    · cases found
      exact absurd is isNot
    next other =>
      rw [if_neg, (h _ _).mpr ⟨r', found, rfl, is, rfl⟩]
      intro keys
      exact other (congrArg eventKey (indexKey_inj keys))

end Indexes

def reindexed (state : State) (family : String) (index : OrdMap String String) (r : Record) :
    OrdMap String String :=
  if r.state = state then index.insert (indexKey family r) r.eventId
  else index.erase (indexKey family r)

def weigh (state : State) (r : Option Record) : Nat := if r.any (·.state == state) then 1 else 0

namespace Indexes

variable {events : OrdMap String Record} {state : State} {family : String}
  {index : OrdMap String String} {r : Record}

theorem reindexed (h : Indexes events state family index)
    (same : ∀ old, events[eventKey r.eventId]? = some old →
      indexKey family old = indexKey family r) :
    Indexes (events.insert (eventKey r.eventId) r) state family
      (reindexed state family index r) := by
  unfold Intake.reindexed
  split
  next is => exact h.insert is same
  next isNot => exact h.erase isNot same

theorem reindexed_of_ne (h : Indexes events state family index) (isNot : r.state ≠ state)
    (wasNot : ∀ old, events[eventKey r.eventId]? = some old → old.state ≠ state) :
    Intake.reindexed state family index r = index := by
  rw [Intake.reindexed, if_neg isNot, OrdMap.erase_of_get_none (h.get_none wasNot)]

theorem size (h : Indexes events state family index)
    (same : ∀ old, events[eventKey r.eventId]? = some old →
      old.eventId = r.eventId ∧ indexKey family old = indexKey family r) :
    (Intake.reindexed state family index r).size + weigh state events[eventKey r.eventId]? =
      index.size + weigh state (some r) := by
  unfold Intake.reindexed
  by_cases was : ∃ old, events[eventKey r.eventId]? = some old ∧ old.state = state
  · obtain ⟨old, found, was⟩ := was
    obtain ⟨named, keys⟩ := same old found
    have there : index[indexKey family r]? = some r.eventId :=
      (h _ _).mpr ⟨old, found, named, was, keys.symm⟩
    have before : weigh state events[eventKey r.eventId]? = 1 := by simp [weigh, found, was]
    rw [before]
    split
    next is => rw [OrdMap.insert_of_get there, weigh, if_pos (by simp [is])]
    next isNot => rw [OrdMap.size_erase_of_get there, weigh, if_neg (by simp [isNot])]
  · have wasNot (old : Record) (found : events[eventKey r.eventId]? = some old) :
        old.state ≠ state :=
      fun is => was ⟨old, found, is⟩
    have absent : index[indexKey family r]? = none := h.get_none wasNot
    have before : weigh state events[eventKey r.eventId]? = 0 := by
      cases found : events[eventKey r.eventId]? with
      | none => rfl
      | some old => simp [weigh, wasNot old found]
    rw [before]
    split
    next is => rw [OrdMap.size_insert_of_none absent, weigh, if_pos (by simp [is])]
    next isNot => rw [OrdMap.erase_of_get_none absent, weigh, if_neg (by simp [isNot])]

end Indexes

/-! ## Taking an event in -/

theorem validateInput_cases (input : Input) :
    (∃ message, validateInput input = .error (.error message)) ∨
    ∃ normalized, validateInput input = .ok normalized ∧ normalized.eventId = input.eventId ∧
      ∀ next, safeTime next = true →
        validRecord (Store.newRecord normalized next) normalized.eventId = true := by
  rw [validateInput, require_bind]
  split
  next valid =>
    cases identity : Containment.normalizeRedriveIdentity input.repo input.jobId with
    | none => exact .inl ⟨_, rfl⟩
    | some job =>
      refine .inr ⟨_, rfl, rfl, fun next safe => ?_⟩
      simp only [Bool.and_eq_true] at valid
      obtain ⟨⟨⟨⟨named, sha⟩, installation⟩, received⟩, labels⟩ := valid
      have text : isText maxText false input.eventId = true := named
      simp [validRecord, newRecord, job.normalize, sha, installation, received, labels, safe, text]
  · exact .inl ⟨_, rfl⟩

namespace Sound

variable {s : Store} {r : Record}

theorem known (h : Sound s) {id : String} (found : s.events[eventKey id]? = some r) :
    r.eventId = id ∧ validRecord r id = true := by
  obtain ⟨keys, valid⟩ := h.keyed _ _ found
  rw [eventKey_inj keys]
  exact ⟨rfl, valid⟩

theorem take_cases (h : Sound s) (input : Input) (next : Int) :
    (∃ old, s.events[eventKey input.eventId]? = some old ∧ s.take input next =
      .ok (if Store.sameEvidence old input then ⟨.duplicate, some old⟩ else ⟨.conflict, none⟩, s)) ∨
    (s.events[eventKey input.eventId]? = none ∧ s.count.getD 0 = maxActive ∧
      s.take input next = .ok (⟨.full, none⟩, s)) ∨
    (s.events[eventKey input.eventId]? = none ∧ s.count.getD 0 < maxActive ∧ s.take input next =
      .ok (⟨.accepted, some (Store.newRecord input next)⟩, { s with
          events := s.events.insert (eventKey input.eventId) (Store.newRecord input next)
          pendingIndex :=
            s.pendingIndex.insert (pendingKey (Store.newRecord input next)) input.eventId
          count := some (s.count.getD 0 + 1) })) := by
  unfold take
  cases found : s.events[eventKey input.eventId]? with
  | some old =>
    refine .inl ⟨old, rfl, ?_⟩
    simp only [require_bind, (h.known found).2, if_true]
    rfl
  | none =>
    have counted : (s.count.isSome || (s.events.page none 1).isEmpty) = true := by
      cases count : s.count with
      | some n => rfl
      | none => simp [h.started count, OrdMap.page, OrdMap.after]
    simp only [require_bind, counted, if_true, h.bound, decide_true]
    by_cases full : maxActive ≤ s.count.getD 0
    · exact .inr (.inl ⟨trivial, Nat.le_antisymm h.bound full, by rw [if_pos full]; rfl⟩)
    · exact .inr (.inr ⟨trivial, Nat.lt_of_not_le full, by rw [if_neg full]; rfl⟩)

theorem keyed_insert (h : Keyed s.events) (valid : validRecord r r.eventId = true) :
    Keyed (s.events.insert (eventKey r.eventId) r) := by
  intro key r' found
  rw [OrdMap.get_insert] at found
  split at found
  next keys =>
    cases found
    exact ⟨keys.symm, valid⟩
  · exact h key r' found

/-- **The record of one event is replaced** by one with the same keys. -/
theorem put (h : Sound s) {t : Store} {count : Nat} (valid : validRecord r r.eventId = true)
    (same : ∀ old, s.events[eventKey r.eventId]? = some old → old.receivedAtMs = r.receivedAtMs)
    (events : t.events = s.events.insert (eventKey r.eventId) r)
    (pendings : t.pendingIndex = reindexed .pending pendingPrefix s.pendingIndex r)
    (uncertains : t.uncertainIndex = reindexed .uncertain uncertainPrefix s.uncertainIndex r)
    (counted : t.count = some count) (bound : count ≤ maxActive)
    (counts : count + (weigh .pending s.events[eventKey r.eventId]? +
        weigh .uncertain s.events[eventKey r.eventId]?) =
      s.count.getD 0 + (weigh .pending (some r) + weigh .uncertain (some r))) : Sound t := by
  have keys (family : String) (old : Record) (found : s.events[eventKey r.eventId]? = some old) :
      old.eventId = r.eventId ∧ indexKey family old = indexKey family r := by
    have named := (h.known found).1
    exact ⟨named, by rw [indexKey, indexKey, named, same old found]⟩
  refine ⟨?_, ?_, ?_, ?_, ?_, ?_⟩
  · rw [events]
    exact keyed_insert h.keyed valid
  · rw [events, pendings]
    exact h.pendings.reindexed fun old found => (keys _ old found).2
  · rw [events, uncertains]
    exact h.uncertains.reindexed fun old found => (keys _ old found).2
  · have pendingSize := h.pendings.size (keys _)
    have uncertainSize := h.uncertains.size (keys _)
    have before := h.count
    rw [counted, Option.getD_some, pendings, uncertains]
    omega
  · rw [counted]
    exact bound
  · rw [counted]
    exact nofun

theorem accept (h : Sound s) (fresh : s.events[eventKey r.eventId]? = none)
    (pending : r.state = .pending) (valid : validRecord r r.eventId = true)
    (room : s.count.getD 0 < maxActive) : Sound { s with
      events := s.events.insert (eventKey r.eventId) r
      pendingIndex := s.pendingIndex.insert (pendingKey r) r.eventId
      count := some (s.count.getD 0 + 1) } := by
  have unknown (old : Record) (found : s.events[eventKey r.eventId]? = some old) : False :=
    nomatch fresh.symm.trans found
  refine h.put valid (fun old found => (unknown old found).elim) rfl ?_ ?_ rfl room ?_
  · rw [reindexed, if_pos pending]
    rfl
  · exact (h.uncertains.reindexed_of_ne (by simp [pending]) fun old found =>
      (unknown old found).elim).symm
  · simp [fresh, weigh, pending]

end Sound

/-! ## Settling -/

/-- The ways of `settle`: it is refused, the event is unknown, there is nothing to do, or the record
gets its outcome. -/
inductive Settled (s : Store) (id : String) (outcome : Outcome) (now : Int) :
    Except Failure Store → Prop
  | refused (message : String) : Settled s id outcome now (.error (.error message))
  | conflict : Settled s id outcome now (.error .conflict)
  | unknown (absent : s.events[eventKey id]? = none) (message : String) :
      Settled s id outcome now (.error (.corruption message))
  | idle : Settled s id outcome now (.ok s)
  | moved {value : Record} {count : Nat} {t : Store} (found : s.events[eventKey id]? = some value)
      (incomplete : value.state ≠ .complete)
      (certain : value.state = .uncertain → outcome = .complete)
      (counted : s.count = some count) (safe : safeTime now = true)
      (early : outcome = .retry → now ≤ Containment.maxSafeInteger - Store.retryDelay)
      (done : s.reindex value (Store.settled value outcome now) outcome count = .ok t) :
      Settled s id outcome now
        (.ok { t with events := t.events.insert (eventKey id) (Store.settled value outcome now) })

namespace Sound

variable {s : Store} {id : String} {value : Record}

theorem counts (h : Sound s) (found : s.events[eventKey id]? = some value)
    (incomplete : value.state ≠ .complete) : 1 ≤ s.count.getD 0 := by
  have counted := h.count
  obtain ⟨rfl, -⟩ := h.known found
  cases state : value.state with
  | pending =>
    have size := OrdMap.size_erase_of_get ((h.pendings _ _).mpr ⟨value, found, rfl, state, rfl⟩)
    omega
  | uncertain =>
    have size := OrdMap.size_erase_of_get ((h.uncertains _ _).mpr ⟨value, found, rfl, state, rfl⟩)
    omega
  | complete => exact absurd state incomplete

variable {count : Nat}

theorem reindex_ok (h : Sound s) (next : Record) (outcome : Outcome)
    (found : s.events[eventKey id]? = some value) (incomplete : value.state ≠ .complete)
    (counted : s.count = some count) : ∃ t, s.reindex value next outcome count = .ok t := by
  have some_ := h.counts found incomplete
  rw [counted, Option.getD_some] at some_
  cases outcome with
  | complete =>
    rw [reindex, require_bind, if_pos (decide_eq_true some_)]
    exact ⟨_, rfl⟩
  | uncertain => exact ⟨_, rfl⟩
  | retry => exact ⟨_, rfl⟩

theorem settle_cases (h : Sound s) (id sha : String) (outcome : Outcome) (now : Int) :
    Settled s id outcome now (s.settle id sha outcome now) := by
  refine require_elim (fun _ => .refused _) fun _ => require_elim (fun _ => .refused _) fun _ =>
    require_elim (fun _ => .refused _) fun safe => ?_
  cases found : s.events[eventKey id]? with
  | none => exact .unknown found _
  | some value =>
    refine require_elim (fun malformed => nomatch (h.known found).2.symm.trans malformed) fun _ =>
      require_elim (fun _ => .conflict) fun _ => ?_
    split
    · exact .idle
    next active =>
      obtain ⟨incomplete, certain⟩ := not_or.mp active
      refine require_elim (fun _ => .refused _) fun early => ?_
      cases counted : s.count with
      | none =>
        rw [h.started counted] at found
        exact absurd found (by simp)
      | some count =>
        have bound : count ≤ maxActive := by
          have le := h.bound
          rwa [counted] at le
        refine require_elim (fun malformed => absurd bound (of_decide_eq_false malformed)) fun _ =>
          ?_
        obtain ⟨t, done⟩ :=
          h.reindex_ok (settled value outcome now) outcome found incomplete counted
        simp only [done]
        exact .moved found incomplete (by tauto) counted safe
          (by simpa [imp_iff_not_or] using early) done

variable {outcome : Outcome} {now : Int}

theorem settled_valid (valid : validRecord value value.eventId = true) (safe : safeTime now = true)
    (early : outcome = .retry → now ≤ Containment.maxSafeInteger - Store.retryDelay) :
    validRecord (Store.settled value outcome now) value.eventId = true := by
  simp only [validRecord, Bool.and_eq_true] at valid
  obtain ⟨rest, next⟩ := valid
  simp only [validRecord, settled, Bool.and_eq_true]
  refine ⟨rest, ?_⟩
  split
  next again =>
    have late := early again
    simp only [safeTime, Bool.and_eq_true, decide_eq_true_eq] at safe ⊢
    unfold retryDelay at late ⊢
    omega
  · exact next

theorem pending_of_certain (incomplete : value.state ≠ .complete)
    (certain : value.state = .uncertain → outcome = .complete) (open_ : outcome ≠ .complete) :
    value.state = .pending := by
  cases state : value.state with
  | pending => rfl
  | uncertain => exact absurd (certain state) open_
  | complete => exact absurd state incomplete

theorem moved (h : Sound s) {t : Store} (found : s.events[eventKey value.eventId]? = some value)
    (incomplete : value.state ≠ .complete)
    (certain : value.state = .uncertain → outcome = .complete) (counted : s.count = some count)
    (safe : safeTime now = true)
    (early : outcome = .retry → now ≤ Containment.maxSafeInteger - Store.retryDelay)
    (done : s.reindex value (Store.settled value outcome now) outcome count = .ok t) :
    Sound { t with
      events := t.events.insert (eventKey value.eventId) (Store.settled value outcome now) } := by
  have valid := settled_valid (h.known found).2 safe early
  have only (old : Record) (there : s.events[eventKey value.eventId]? = some old) : old = value :=
    Option.some.inj (there.symm.trans found)
  have same (old : Record) (there : s.events[eventKey value.eventId]? = some old) :
      old.receivedAtMs = value.receivedAtMs := by rw [only old there]
  have bound := h.bound
  rw [counted, Option.getD_some] at bound
  cases outcome with
  | complete =>
    have some_ := h.counts found incomplete
    rw [counted, Option.getD_some] at some_
    rw [reindex, require_bind, if_pos (decide_eq_true some_)] at done
    cases done
    refine h.put (r := settled value .complete now) valid same rfl rfl ?_ rfl (by omega) ?_
    · change (if _ then _ else _) = _
      split
      · rfl
      next certain =>
        refine (h.uncertains.reindexed_of_ne (r := settled value .complete now)
          (by simp [settled, Outcome.state]) fun old there => ?_).symm
        rwa [only old there]
    · change _ + (weigh _ s.events[eventKey value.eventId]? + weigh _
        s.events[eventKey value.eventId]?) = _
      rw [counted, found]
      cases state : value.state with
      | pending => simp [weigh, state, settled, Outcome.state]; omega
      | uncertain => simp [weigh, state, settled, Outcome.state]; omega
      | complete => exact absurd state incomplete
  | uncertain =>
    cases done
    have state := pending_of_certain incomplete certain nofun
    refine h.put (r := settled value .uncertain now) valid same rfl rfl rfl counted bound ?_
    change _ + (weigh _ s.events[eventKey value.eventId]? + weigh _
      s.events[eventKey value.eventId]?) = _
    rw [counted, found]
    simp [weigh, state, settled, Outcome.state]
  | retry =>
    cases done
    have state := pending_of_certain incomplete certain nofun
    refine h.put (r := settled value .retry now) valid same rfl rfl ?_ counted bound ?_
    · refine (h.uncertains.reindexed_of_ne (r := settled value .retry now)
        (by simp [settled, Outcome.state]) fun old there => ?_).symm
      rw [only old there, state]
      exact nofun
    · change _ + (weigh _ s.events[eventKey value.eventId]? + weigh _
        s.events[eventKey value.eventId]?) = _
      rw [counted, found]
      simp [weigh, state, settled, Outcome.state]

end Sound

/-! ## Reading the indexes -/

def Store.ready (s : Store) (now : Int) : List Record :=
  s.events.vals.filter fun r => r.state == .pending && decide (r.nextAttemptMs ≤ now)

def Store.uncertain (s : Store) : List Record := s.events.vals.filter (·.state == .uncertain)

def recordsOf (events : OrdMap String Record) (entries : List (String × String)) : List Record :=
  entries.filterMap fun entry => events[eventKey entry.2]?

variable {events : OrdMap String Record}

theorem recordsOf_cons {key id : String} {r : Record} (found : events[eventKey id]? = some r)
    (rest : List (String × String)) :
    recordsOf events ((key, id) :: rest) = r :: recordsOf events rest :=
  List.filterMap_cons_some found

theorem recordsOf_length {entries : List (String × String)}
    (known : ∀ entry ∈ entries, ∃ r, events[eventKey entry.2]? = some r) :
    (recordsOf events entries).length = entries.length := by
  induction entries with
  | nil => rfl
  | cons entry rest ih =>
    obtain ⟨r, found⟩ := known entry List.mem_cons_self
    rw [recordsOf_cons found, List.length_cons, List.length_cons,
      ih fun entry mem => known entry (List.mem_cons_of_mem _ mem)]

theorem vals_nodup (keyed : Keyed events) : events.vals.Nodup := by
  refine List.pairwise_map.mpr
    ((OrdMap.toList_nodup events).imp_of_mem fun {a b} ha hb other same => ?_)
  rw [Std.ExtTreeMap.mem_toList_iff_getElem?_eq_some] at ha hb
  refine other (Prod.ext ?_ same)
  rw [(keyed _ _ ha).1, (keyed _ _ hb).1, same]

/-- **An index lists the records in its state**, each of them once. -/
theorem Indexes.records {state : State} {index : OrdMap String String}
    (h : Indexes events state family index) (keyed : Keyed events) :
    (recordsOf events index.toList).Perm (events.vals.filter (·.state == state)) := by
  have entry {key id : String} (mem : (key, id) ∈ index.toList) :=
    (h key id).mp (Std.ExtTreeMap.mem_toList_iff_getElem?_eq_some.mp mem)
  refine (List.perm_ext_iff_of_nodup ?_ ((vals_nodup keyed).filter _)).mpr fun r => ?_
  · refine List.pairwise_filterMap.mpr ((OrdMap.toList_nodup index).imp_of_mem ?_)
    rintro ⟨key, id⟩ ⟨key', id'⟩ here there other r found r' found' rfl
    obtain ⟨old, known, rfl, -, rfl⟩ := entry here
    obtain ⟨old', known', rfl, -, rfl⟩ := entry there
    cases known.symm.trans found
    cases known'.symm.trans found'
    exact other rfl
  · rw [List.mem_filter, OrdMap.mem_vals, beq_iff_eq, recordsOf, List.mem_filterMap]
    constructor
    · rintro ⟨⟨key, id⟩, mem, found⟩
      obtain ⟨old, known, rfl, is, -⟩ := entry mem
      cases known.symm.trans found
      exact ⟨⟨_, found⟩, is⟩
    · rintro ⟨⟨key, found⟩, is⟩
      obtain ⟨rfl, -⟩ := keyed key r found
      exact ⟨(indexKey family r, r.eventId), Std.ExtTreeMap.mem_toList_iff_getElem?_eq_some.mpr
        ((h _ _).mpr ⟨r, found, rfl, is, rfl⟩), found⟩

namespace Sound

variable {s : Store} {key id : String}

variable (h : Sound s)
include h

theorem pendingRecord_ok (there : s.pendingIndex[key]? = some id) :
    ∃ r, s.events[eventKey id]? = some r ∧ s.pendingRecord key id = .ok r := by
  obtain ⟨r, found, rfl, is, rfl⟩ := (h.pendings key id).mp there
  refine ⟨r, found, ?_⟩
  simp only [pendingRecord, require_bind, startsWith_indexKey, found, (h.known found).2, is,
    pendingKey, BEq.rfl, Bool.and_self, if_true]
  rfl

variable {entries : List (String × String)}

theorem readyRecords_ok (now : Int)
    (listed : ∀ entry ∈ entries, s.pendingIndex[entry.1]? = some entry.2) :
    s.readyRecords now entries =
      .ok ((recordsOf s.events entries).filter fun r => decide (r.nextAttemptMs ≤ now)) := by
  induction entries with
  | nil => rfl
  | cons entry rest ih =>
    obtain ⟨key, id⟩ := entry
    obtain ⟨r, found, read⟩ := h.pendingRecord_ok (listed (key, id) List.mem_cons_self)
    have rest_ := ih fun entry mem => listed entry (List.mem_cons_of_mem _ mem)
    rw [readyRecords, read, rest_, recordsOf_cons found, List.filter_cons]
    by_cases ready : r.nextAttemptMs ≤ now
    · simp [ready, bind, Except.bind, pure, Except.pure]
    · simp [ready, bind, Except.bind, pure, Except.pure]

theorem sizes : s.pendingIndex.size ≤ maxActive ∧ s.uncertainIndex.size ≤ maxActive := by
  have counted := h.count
  have bound := h.bound
  omega

theorem pendingPage : s.pendingIndex.page none (maxActive + 1) = s.pendingIndex.toList :=
  OrdMap.page_of_size_lt (h.sizes.1.trans (Nat.le_succ _))

theorem uncertainPage : s.uncertainIndex.page none (maxActive + 1) = s.uncertainIndex.toList :=
  OrdMap.page_of_size_lt (h.sizes.2.trans (Nat.le_succ _))

variable {now : Int}

theorem pending_ok (locale : Store.Locale) {limit : Int} (safe : safeTime now = true)
    (inside : 1 ≤ limit ∧ limit ≤ 25) : ∃ sorted : List Record, sorted.Perm (s.ready now) ∧
      sorted.Pairwise (fun a b => Store.arrivesBefore locale a b = true) ∧
      s.pending locale now limit = .ok (sorted.take limit.toNat) := by
  have listed : ∀ entry ∈ s.pendingIndex.toList, s.pendingIndex[entry.1]? = some entry.2 :=
    fun _ mem => Std.ExtTreeMap.mem_toList_iff_getElem?_eq_some.mp mem
  have found := (h.pendings.records h.keyed).filter fun r => decide (r.nextAttemptMs ≤ now)
  rw [List.filter_filter] at found
  refine ⟨_, (List.mergeSort_perm _ (arrivesBefore locale)).trans (found.trans ?_), ?_, ?_⟩
  · refine List.Perm.of_eq (List.filter_congr fun r _ => ?_)
    exact Bool.and_comm _ _
  · exact List.pairwise_mergeSort (arrivesBefore_trans locale) (arrivesBefore_total locale) _
  · have short : s.pendingIndex.toList.length ≤ maxActive := by
      rw [Std.ExtTreeMap.length_toList]
      exact h.sizes.1
    simp only [pending, validateNow, require_bind, safe, if_true, h.pendingPage, short, decide_true,
      inside.1, inside.2, Bool.and_self, h.readyRecords_ok now listed]
    rfl

theorem indexed_ok (there : s.uncertainIndex[key]? = some id) (mismatch : String) :
    ∃ r, s.events[eventKey id]? = some r ∧ startsWith key uncertainPrefix = true ∧
      s.indexed .uncertain uncertainPrefix mismatch key id = .ok r := by
  obtain ⟨r, found, rfl, is, rfl⟩ := (h.uncertains key id).mp there
  refine ⟨r, found, startsWith_indexKey _ _, ?_⟩
  simp only [indexed, found, require_bind, (h.known found).2, is, BEq.rfl, Bool.and_self, if_true]
  rfl

theorem oldestUncertain_ok (listed : ∀ entry ∈ entries, s.uncertainIndex[entry.1]? = some entry.2)
    (oldest : Option Int) : s.oldestUncertain entries oldest =
      .ok (((recordsOf s.events entries).map (·.receivedAtMs)).foldl Store.earlier oldest) := by
  induction entries generalizing oldest with
  | nil => rfl
  | cons entry rest ih =>
    obtain ⟨key, id⟩ := entry
    obtain ⟨r, found, starts, read⟩ := h.indexed_ok (listed (key, id) List.mem_cons_self)
      "uncertain index/state mismatch"
    have rest_ := ih fun entry mem => listed entry (List.mem_cons_of_mem _ mem)
    rw [oldestUncertain, require_bind, if_pos starts, read, recordsOf_cons found, List.map_cons,
      List.foldl_cons]
    exact rest_ _

theorem uncertainSummary_ok (safe : safeTime now = true) :
    s.uncertainSummary now = .ok ⟨s.uncertain.length,
      (s.uncertain.map (·.receivedAtMs)).min?.map fun t => max 0 (now - t)⟩ := by
  have found : (recordsOf s.events s.uncertainIndex.toList).Perm s.uncertain :=
    h.uncertains.records h.keyed
  have listed : ∀ entry ∈ s.uncertainIndex.toList, s.uncertainIndex[entry.1]? = some entry.2 :=
    fun _ mem => Std.ExtTreeMap.mem_toList_iff_getElem?_eq_some.mp mem
  have number : s.uncertain.length = s.uncertainIndex.toList.length := by
    rw [← found.length_eq]
    refine recordsOf_length fun entry mem => ?_
    obtain ⟨r, known, -⟩ := (h.uncertains entry.1 entry.2).mp (listed _ mem)
    exact ⟨r, known⟩
  have oldest : ((recordsOf s.events s.uncertainIndex.toList).map (·.receivedAtMs)).foldl
      earlier none = (s.uncertain.map (·.receivedAtMs)).min? := by
    rw [(found.map _).foldl_eq, foldl_earlier]
  have sizes := h.sizes
  rw [← Std.ExtTreeMap.length_toList, ← Std.ExtTreeMap.length_toList] at sizes
  have counted := h.count
  rw [← Std.ExtTreeMap.length_toList, ← Std.ExtTreeMap.length_toList] at counted
  simp only [uncertainSummary, validateNow, require_bind, safe, if_true, h.pendingPage,
    h.uncertainPage, sizes.1, sizes.2, decide_true, Bool.and_self]
  cases count : s.count with
  | none =>
    rw [count, Option.getD_none] at counted
    have noPending : s.pendingIndex.toList = [] := List.eq_nil_of_length_eq_zero (by omega)
    have noUncertain : s.uncertainIndex.toList = [] := List.eq_nil_of_length_eq_zero (by omega)
    rw [noUncertain] at number oldest
    rw [noPending, noUncertain, number, ← oldest]
    rfl
  | some n =>
    rw [count, Option.getD_some] at counted
    have bound := h.bound
    rw [count, Option.getD_some] at bound
    rw [counted] at bound ⊢
    simp only [bound, decide_true, if_true, h.oldestUncertain_ok listed, oldest, number]
    rfl

end Sound

theorem Store.reindex_events {s t : Store} {value next : Record} {outcome : Outcome} {count : Nat}
    (done : s.reindex value next outcome count = .ok t) : t.events = s.events := by
  cases outcome with
  | complete =>
    rw [reindex, require_bind] at done
    split at done
    · cases done
      rfl
    · nomatch done
  | uncertain =>
    cases done
    rfl
  | retry =>
    cases done
    rfl

/-! ## Every run -/

/-- What becomes of the records: a complete one stays as it is, and an uncertain one is never
pending again. -/
def Follows (s t : Store) : Prop :=
  ∀ (key : String) (r : Record), s.events[key]? = some r → ∃ r', t.events[key]? = some r' ∧
    (r.state = .complete → r' = r) ∧ (r.state = .uncertain → r'.state ≠ .pending)

namespace Follows

variable {s t u : Store}

theorem refl (s : Store) : Follows s s := by
  intro key r found
  refine ⟨r, found, fun _ => rfl, fun uncertain => ?_⟩
  rw [uncertain]
  exact nofun

theorem trans (first : Follows s t) (second : Follows t u) : Follows s u := by
  intro key r found
  obtain ⟨r', found', complete, uncertain⟩ := first key r found
  obtain ⟨r'', found'', complete', uncertain'⟩ := second key r' found'
  refine ⟨r'', found'', fun is => ?_, fun is => ?_⟩
  · obtain rfl := complete is
    exact complete' is
  · cases state : r'.state with
    | pending => exact absurd state (uncertain is)
    | uncertain => exact uncertain' state
    | complete =>
      rw [complete' state, state]
      exact nofun

theorem insert {key : String} {r : Record} (events : t.events = s.events.insert key r)
    (follows : ∀ old, s.events[key]? = some old → old.state ≠ .complete ∧
      (old.state = .uncertain → r.state ≠ .pending)) : Follows s t := by
  intro key' old found
  rw [events, OrdMap.get_insert]
  split
  next same =>
    subst same
    obtain ⟨incomplete, certain⟩ := follows old found
    exact ⟨r, rfl, fun is => absurd is incomplete, certain⟩
  · exact Follows.refl s key' old found

end Follows

namespace Sound

variable {s : Store}

theorem enqueue_cases (h : Sound s) (input : Input) (now delayMs : Int) :
    (∃ message, s.enqueue input now delayMs = .error (.error message)) ∨
    ∃ reply t, s.enqueue input now delayMs = .ok (reply, t) ∧ Sound t ∧ Follows s t := by
  unfold enqueue
  rcases validateInput_cases input with ⟨message, refused⟩ | ⟨normalized, passes, named, valid⟩
  · exact .inl ⟨message, by rw [refused]; rfl⟩
  · rw [passes]
    change (∃ message, (validateNow now >>= fun _ => _) = _) ∨ ∃ reply t,
      (validateNow now >>= fun _ => _) = _ ∧ _
    rw [validateNow, require_bind]
    split
    next safe =>
      rw [require_bind]
      split
      next early =>
        have next : safeTime (now + delayMs) = true := by
          simp only [safeTime, Bool.and_eq_true, decide_eq_true_eq] at safe early ⊢
          omega
        refine .inr ?_
        rcases h.take_cases normalized (now + delayMs) with ⟨old, -, done⟩ | ⟨-, -, done⟩ |
          ⟨fresh, room, done⟩
        · exact ⟨_, _, done, h, .refl s⟩
        · exact ⟨_, _, done, h, .refl s⟩
        · refine ⟨_, _, done, h.accept (r := newRecord normalized (now + delayMs)) fresh rfl
            (valid _ next) room, .insert rfl fun old found => ?_⟩
          nomatch fresh.symm.trans found
      · exact .inl ⟨_, rfl⟩
    · exact .inl ⟨_, rfl⟩

theorem enqueue_known (h : Sound s) {input normalized : Input} {now delayMs : Int} {old : Record}
    (valid : validateInput input = .ok normalized) (safe : safeTime now = true)
    (early : safeTime delayMs = true ∧ now ≤ Containment.maxSafeInteger - delayMs)
    (found : s.events[eventKey input.eventId]? = some old) : s.enqueue input now delayMs = .ok
      (if Store.sameEvidence old normalized then ⟨.duplicate, some old⟩ else ⟨.conflict, none⟩,
        s) := by
  have named : normalized.eventId = input.eventId := by
    rcases validateInput_cases input with ⟨message, refused⟩ | ⟨_, passes, named, -⟩
    · nomatch refused.symm.trans valid
    · cases passes.symm.trans valid
      exact named
  rw [← named] at found
  have done : s.enqueue input now delayMs = s.take normalized (now + delayMs) := by
    simp only [enqueue, valid, validateNow, require_bind, safe, early.1, early.2, decide_true,
      Bool.and_self, if_true]
    rfl
  rw [done]
  rcases h.take_cases normalized (now + delayMs) with ⟨old', found', done⟩ | ⟨fresh, -⟩ | ⟨fresh, -⟩
  · cases found.symm.trans found'
    exact done
  · nomatch fresh.symm.trans found
  · nomatch fresh.symm.trans found

theorem call (h : Sound s) (locale : Store.Locale) (call : Call) :
    Sound (s.call locale call).2 ∧ Follows s (s.call locale call).2 ∧
    ∀ message, (s.call locale call).1 = some (.corruption message) →
      ∃ id sha outcome now, call = .settle id sha outcome now ∧ s.events[eventKey id]? = none := by
  cases call with
  | enqueue input now delayMs =>
    rw [Store.call]
    rcases h.enqueue_cases input now delayMs with
      ⟨message, refused⟩ | ⟨reply, t, done, sound, follows⟩
    · rw [refused]
      exact ⟨h, .refl s, fun _ => nofun⟩
    · rw [done]
      exact ⟨sound, follows, fun _ => nofun⟩
  | settle id sha outcome now =>
    rw [Store.call]
    have cases_ := h.settle_cases id sha outcome now
    generalize s.settle id sha outcome now = result at cases_
    cases cases_ with
    | refused message => exact ⟨h, .refl s, fun _ => nofun⟩
    | conflict => exact ⟨h, .refl s, fun _ => nofun⟩
    | unknown absent message => exact ⟨h, .refl s, fun _ _ => ⟨id, sha, outcome, now, rfl, absent⟩⟩
    | idle => exact ⟨h, .refl s, fun _ => nofun⟩
    | @moved value count t found incomplete certain counted safe early done =>
      obtain ⟨rfl, -⟩ := h.known found
      have events : t.events.insert (eventKey value.eventId) (settled value outcome now) =
          s.events.insert (eventKey value.eventId) (settled value outcome now) := by
        rw [reindex_events done]
      refine ⟨h.moved found incomplete certain counted safe early done,
        .insert events fun old there => ?_, fun _ => nofun⟩
      cases found.symm.trans there
      refine ⟨incomplete, fun uncertain => ?_⟩
      rw [certain uncertain]
      exact nofun
  | pending now limit =>
    refine ⟨h, .refl s, fun message thrown => ?_⟩
    by_cases safe : safeTime now = true
    · by_cases inside : 1 ≤ limit ∧ limit ≤ 25
      · obtain ⟨sorted, -, -, done⟩ := h.pending_ok locale safe inside
        rw [Store.call, done] at thrown
        nomatch thrown
      · rw [Store.call, Store.pending, validateNow, require_bind, if_pos safe, require_bind,
          if_neg] at thrown
        · nomatch thrown
        · simpa using inside
    · have refused : validateNow now = .error (.error "invalid normal intake time") := if_neg safe
      rw [Store.call, Store.pending, refused] at thrown
      nomatch thrown
  | inspect id =>
    refine ⟨h, .refl s, fun message thrown => ?_⟩
    rw [Store.call, Store.inspect, require_bind] at thrown
    split at thrown
    · cases found : s.events[eventKey id]? with
      | none =>
        rw [found] at thrown
        nomatch thrown
      | some r =>
        simp only [found, require_bind, (h.known found).2, if_true] at thrown
        nomatch thrown
    · nomatch thrown
  | uncertainSummary now =>
    refine ⟨h, .refl s, fun message thrown => ?_⟩
    by_cases safe : safeTime now = true
    · rw [Store.call, h.uncertainSummary_ok safe] at thrown
      nomatch thrown
    · have refused : validateNow now = .error (.error "invalid normal intake time") := if_neg safe
      rw [Store.call, Store.uncertainSummary, refused] at thrown
      nomatch thrown

end Sound

theorem run_sound (locale : Store.Locale) (calls more : List Call) :
    Sound (Store.run locale calls) ∧
      Follows (Store.run locale calls) (Store.run locale (calls ++ more)) := by
  have goes (more : List Call) (s : Store) (h : Sound s) :
      Sound (more.foldl (fun s call => (s.call locale call).2) s) ∧
        Follows s (more.foldl (fun s call => (s.call locale call).2) s) := by
    induction more generalizing s with
    | nil => exact ⟨h, .refl s⟩
    | cons call more ih =>
      obtain ⟨sound, follows, -⟩ := h.call locale call
      obtain ⟨sound', follows'⟩ := ih _ sound
      exact ⟨sound', follows.trans follows'⟩
  have empty : Sound {} := by
    refine ⟨fun _ _ found => ?_, fun _ _ => ?_, fun _ _ => ?_, rfl, by decide, fun _ => rfl⟩
    · exact absurd found (by simp)
    · simp
    · simp
  have sound := (goes calls {} empty).1
  refine ⟨sound, ?_⟩
  rw [run, run, List.foldl_append]
  exact (goes more _ sound).2

/-- **What the inbox answers from its indexes and its counter is the truth.** -/
structure Accurate (locale : Store.Locale) (s : Store) : Prop where
  count : s.count.getD 0 = s.pendingIndex.size + s.uncertainIndex.size
  bound : s.count.getD 0 ≤ maxActive
  pendings : Indexes s.events .pending pendingPrefix s.pendingIndex
  uncertains : Indexes s.events .uncertain uncertainPrefix s.uncertainIndex
  /-- The only corruption that is ever found is an event that is settled and was never taken in. -/
  intact : ∀ call message, (s.call locale call).1 = some (.corruption message) →
    ∃ id sha outcome now, call = .settle id sha outcome now ∧ s.events[eventKey id]? = none
  known : ∀ input normalized now delayMs old, validateInput input = .ok normalized →
    safeTime now = true → safeTime delayMs = true ∧ now ≤ Containment.maxSafeInteger - delayMs →
    s.events[eventKey input.eventId]? = some old → s.enqueue input now delayMs = .ok
      (if Store.sameEvidence old normalized then ⟨.duplicate, some old⟩ else ⟨.conflict, none⟩, s)
  pending : ∀ now limit, safeTime now = true → 1 ≤ limit ∧ limit ≤ 25 →
    ∃ sorted : List Record, sorted.Perm (s.ready now) ∧
      sorted.Pairwise (fun a b => Store.arrivesBefore locale a b = true) ∧
      s.pending locale now limit = .ok (sorted.take limit.toNat)
  summary : ∀ now, safeTime now = true → s.uncertainSummary now = .ok ⟨s.uncertain.length,
    (s.uncertain.map (·.receivedAtMs)).min?.map fun t => max 0 (now - t)⟩

/-- **The inbox is accurate in every run**, and no record is ever taken back from its outcome. -/
theorem inbox_accurate (locale : Store.Locale) (calls more : List Call) :
    Accurate locale (Store.run locale calls) ∧
      Follows (Store.run locale calls) (Store.run locale (calls ++ more)) := by
  obtain ⟨sound, follows⟩ := run_sound locale calls more
  exact ⟨{
    count := sound.count
    bound := sound.bound
    pendings := sound.pendings
    uncertains := sound.uncertains
    intact := fun call => (sound.call locale call).2.2
    known := fun _ _ _ _ _ valid safe early found => sound.enqueue_known valid safe early found
    pending := fun _ _ safe inside => sound.pending_ok locale safe inside
    summary := fun _ safe => sound.uncertainSummary_ok safe }, follows⟩

/-! An event that was never taken in cannot be settled, and a known event is refused where what
comes with it is not well formed. -/

def exampleLocale : Store.Locale := ⟨compare, inferInstance⟩

def exampleInput (labels : List String) : Input where
  eventId := "event"
  bodySha256 := .ofList (List.replicate 64 'a')
  jobId := "1"
  repo := "owner/name"
  installationId := ""
  labels := labels
  receivedAtMs := 0

theorem settled_unknown_event : ((Store.run exampleLocale []).call exampleLocale
      (.settle "event" (exampleInput []).bodySha256 .complete 0)).1 =
        some (.corruption "missing or malformed event record") ∧
    ((Store.run exampleLocale [.enqueue (exampleInput []) 0 0]).call exampleLocale
      (.enqueue (exampleInput (List.replicate 33 "label")) 0 0)).1 =
        some (.error "invalid normal intake record") := by
  decide +kernel

end CorelinkRunners.Intake
