import CorelinkRunners.Kit.Calls
import CorelinkRunners.Server.Types

/-!
# The usage push

A target buffers one usage event for each slot that ends and posts the buffer in batches. A flush
copies a batch from the front of the buffer, posts it without a lock on the buffer, and takes it off
the front once the response acknowledges every event of it and the front still is the batch. Exports
go on meanwhile, and one that finds the buffer full sheds the oldest event. An export locks the map
of open leases first and the buffer later; others may come in between.

The hash of the idempotency key and `serde_json::from_str` are parameters. A run keeps what arrived
and what was removed, and why. `owed` says what should arrive, from the slot events alone.
-/

namespace CorelinkRunners.Push

open Kit

/-! ## Acknowledgements -/

structure UsageEventData where
  tenantId : String
  eventKind : String
  qty : Nat
  billingPeriod : String
  region : String
  source : String
  timeMs : Nat
  idemKey : String
deriving DecidableEq

structure BillingPostResponse where
  status : Nat
  body : String

/-- A JSON value; of a number, what `as_u64` makes of it. -/
inductive Value
  | null
  | bool (b : Bool)
  | number (asU64 : Option Nat)
  | string (s : String)
  | array (items : List Value)
  | object (fields : List (String × Value))

namespace Value

def get? : Value → String → Option Value
  | object fields, key => fields.lookup key
  | _, _ => none

def asU64 : Value → Option Nat
  | number n => n
  | _ => none

def asStr : Value → Option String
  | string s => some s
  | _ => none

end Value

def hasExactJsonKeys (value : Value) (required optional : List String) : Bool :=
  match value with
  | .object fields =>
    (required.all fun key => (fields.lookup key).isSome) &&
      fields.all fun field => required.contains field.1 || optional.contains field.1
  | _ => false

def readCount (value : Value) (name : String) (events : List UsageEventData) : Result Nat := do
  match (value.get? name).bind Value.asU64 with
  | none => throw s!"billing usage acknowledgement count {name} is invalid"
  | some count =>
    unless count ≤ events.length do
      throw s!"billing usage acknowledgement count {name} exceeds the batch"
    return count

structure Tally where
  accepted : Nat := 0
  deduped : Nat := 0
  rejected : Nat := 0
  conflicts : Nat := 0

def countOutcome (index : Nat) (outcome : Value) (event : UsageEventData) (t : Tally) :
    Result Tally := do
  unless hasExactJsonKeys outcome ["index", "idem_key", "outcome"] ["reason"] do
    throw s!"billing usage acknowledgement outcome {index} has missing or unknown fields"
  unless (outcome.get? "index").bind Value.asU64 = some index do
    throw "billing usage acknowledgement outcome ordering mismatch"
  unless (outcome.get? "idem_key").bind Value.asStr = some event.idemKey do
    throw "billing usage acknowledgement idempotency key mismatch"
  let reason := outcome.get? "reason"
  let explained := (reason.bind Value.asStr).any (· ≠ "")
  match (outcome.get? "outcome").bind Value.asStr with
  | none => throw "billing usage acknowledgement outcome kind is invalid"
  | some "accepted" =>
    unless reason.isNone do throw "accepted billing outcome unexpectedly has a reason"
    return { t with accepted := t.accepted + 1 }
  | some "deduped" =>
    unless reason.isNone do throw "deduped billing outcome unexpectedly has a reason"
    return { t with deduped := t.deduped + 1 }
  | some "rejected" =>
    unless explained do throw "rejected billing outcome has no reason"
    return { t with rejected := t.rejected + 1 }
  | some "conflict" =>
    unless explained do throw "conflicting billing outcome has no reason"
    return { t with conflicts := t.conflicts + 1 }
  | some _ => throw "billing usage acknowledgement outcome kind is unknown"

def countOutcomes : Nat → List Value → List UsageEventData → Tally → Result Tally
  | index, outcome :: outcomes, event :: events, t => do
    countOutcomes (index + 1) outcomes events (← countOutcome index outcome event t)
  | _, _, _, t => return t

def Tally.status (t : Tally) (events : List UsageEventData) : Nat :=
  if t.conflicts > 0 then 409 else if t.rejected = events.length then 422 else 202

def validateBillingAck (fromStr : String → Option Value) (response : BillingPostResponse)
    (events : List UsageEventData) : Result Unit :=
  match fromStr response.body with
  | none => throw "billing usage acknowledgement is not valid JSON"
  | some value => do
    unless hasExactJsonKeys value ["outcomes", "accepted", "deduped", "rejected", "total"] [] do
      throw "billing usage acknowledgement has missing or unknown top-level fields"
    match value.get? "outcomes" with
    | some (.array outcomes) =>
      unless outcomes.length = events.length do
        throw "billing usage acknowledgement outcome count mismatch"
      let accepted ← readCount value "accepted" events
      let deduped ← readCount value "deduped" events
      let rejected ← readCount value "rejected" events
      let total ← readCount value "total" events
      let t ← countOutcomes 0 outcomes events {}
      unless accepted = t.accepted ∧ deduped = t.deduped ∧ rejected = t.rejected ∧
          total = accepted + deduped do
        throw "billing usage acknowledgement counters are inconsistent"
      unless response.status = t.status events do
        throw "billing usage acknowledgement status disagrees with outcomes"
      unless t.rejected = 0 ∧ t.conflicts = 0 do
        throw "billing ingest explicitly rejected or conflicted with an event; retaining batch"
    | _ => throw "billing usage acknowledgement outcomes are not an array"

/-! ## The target -/

structure Config where
  fromStr : String → Option Value
  blake3Hex : String → String
  eventKind : String
  region : String

inductive Removal
  | shed
  | drained (response : BillingPostResponse) (batch : List UsageEventData)

/-- Where the flush that holds `flush_lock` is. It has a response to drain a batch for only once the
response has passed its check. -/
inductive Flush (cfg : Config)
  | looking
  | posting (batch : List UsageEventData)
  | acknowledged (response : BillingPostResponse) (batch : List UsageEventData)
      (valid : validateBillingAck cfg.fromStr response batch = .ok ())

structure Target (cfg : Config) where
  openLeases : OrdMap String Nat := ∅
  /-- The events of exports on their way to the buffer. -/
  pending : List UsageEventData := []
  buffer : List UsageEventData := []
  flushLock : Option (Flush cfg) := none
  /-- The history: every event that was buffered, and every one that was removed, in order. -/
  arrived : List UsageEventData := []
  removed : List (UsageEventData × Removal) := []

def digits (width n : Nat) : String := .ofList ((Nat.toDigits 10 n).leftpad width '0')

def billingPeriod (atMs : Nat) : String :=
  digits 4 (Server.periodKey atMs / 100) ++ "-" ++ digits 2 (Server.periodKey atMs % 100)

variable (cfg : Config)

def idemKey (leaseId period : String) : String :=
  cfg.blake3Hex (leaseId ++ "|" ++ period)

def billingSource : String := "corelink-runners/fabricd"

def maxBillingBuffer : Nat := 100000

def maxBatch : Nat := 1024

/-- The usage event of a slot that ends. -/
def usageEvent (ev : SlotOccupancyEvent) (acquiredAtMs : Nat) : UsageEventData :=
  let period := billingPeriod ev.atMs
  { tenantId := ev.tenant.raw
    eventKind := cfg.eventKind
    qty := (ev.atMs - acquiredAtMs) / 1000
    billingPeriod := period
    region := cfg.region
    source := billingSource
    timeMs := ev.atMs
    idemKey := idemKey cfg ev.leaseId period }

variable {cfg} in
/-- The end of an export: one of the events on their way is buffered. -/
def enqueueTerminal (s : Target cfg) (n : Nat) : Target cfg :=
  match s.pending[n]? with
  | none => s
  | some data =>
    let excess := if s.buffer.length ≥ maxBillingBuffer then 1 else 0
    { s with
      pending := s.pending.eraseIdx n
      buffer := s.buffer.drop excess ++ [data]
      arrived := s.arrived ++ [data]
      removed := s.removed ++ (s.buffer.take excess).map fun event => (event, .shed) }

/-- The beginning of an export: its look at the open leases. -/
def exportEvent (s : Target cfg) (event : SlotOccupancyEvent) : Target cfg :=
  match event.kind with
  | .acquired => { s with openLeases := s.openLeases.insert event.leaseId event.atMs }
  | .released | .expired | .crashed =>
    let rest := { s with openLeases := s.openLeases.erase event.leaseId }
    match s.openLeases[event.leaseId]?.or event.acquiredAtMs with
    | some acquiredAtMs => { rest with pending := s.pending ++ [usageEvent cfg event acquiredAtMs] }
    | none => rest

/-- What can happen: an export begins or ends, a call of `flush_now` gets the lock, and the flush
that has it does its next stretch, up to the next point where others may go on. -/
inductive Event
  | exportEvent (event : SlotOccupancyEvent)
  | enqueueTerminal (n : Nat)
  | flushNow
  | look
  | respond (response : Result BillingPostResponse)
  | drain

/-- One step, and the answer of the `flush_now` that returns in it. -/
def step (s : Target cfg) : Event → Target cfg × Option (Result Unit)
  | .exportEvent event => (exportEvent cfg s event, none)
  | .enqueueTerminal n => (enqueueTerminal s n, none)
  | .flushNow => ({ s with flushLock := some (s.flushLock.getD .looking) }, none)
  | .look =>
    match s.flushLock with
    | some .looking =>
      if s.buffer.isEmpty then ({ s with flushLock := none }, some (.ok ()))
      else ({ s with flushLock := some (.posting (s.buffer.take maxBatch)) }, none)
    | _ => (s, none)
  | .respond response =>
    match s.flushLock, response with
    | some (.posting _), .error e => ({ s with flushLock := none }, some (.error e))
    | some (.posting batch), .ok response =>
      if response.status ≠ 202 ∧ response.status ≠ 409 ∧ response.status ≠ 422 then
        ({ s with flushLock := none }, some (.error ("corelink-billing ingest returned HTTP " ++
          toString response.status ++ "; retaining batch for retry")))
      else
        match valid : validateBillingAck cfg.fromStr response batch with
        | .error e => ({ s with flushLock := none }, some (.error e))
        | .ok () => ({ s with flushLock := some (.acknowledged response batch valid) }, none)
    | _, _ => (s, none)
  | .drain =>
    match s.flushLock with
    | some (.acknowledged response batch _) =>
      if s.buffer.take batch.length ≠ batch then
        ({ s with flushLock := none },
          some (.error "billing buffer changed while acknowledging batch"))
      else
        ({ s with
          flushLock := some .looking
          buffer := s.buffer.drop batch.length
          removed := s.removed ++ batch.map fun event => (event, .drained response batch) }, none)
    | _ => (s, none)

def run (events : List Event) : Target cfg := events.foldl (fun s e => (step cfg s e).1) {}

variable {cfg}

/-! ## What a valid acknowledgement says -/

def Confirms (outcome : Value) (event : UsageEventData) : Prop :=
  (outcome.get? "idem_key").bind Value.asStr = some event.idemKey ∧
    ((outcome.get? "outcome").bind Value.asStr = some "accepted" ∨
      (outcome.get? "outcome").bind Value.asStr = some "deduped")

def Tally.refused (t : Tally) : Nat := t.rejected + t.conflicts

theorem countOutcome_ok {index : Nat} {outcome : Value} {event : UsageEventData} {t t' : Tally}
    (h : countOutcome index outcome event t = .ok t') :
    t'.refused = t.refused ∧ Confirms outcome event ∨ t'.refused = t.refused + 1 := by
  simp only [countOutcome, unless_eq_ok] at h
  obtain ⟨-, -, named, h⟩ := h
  split at h
  · nomatch h
  next kind =>
    obtain ⟨-, h⟩ := unless_eq_ok.mp h
    cases h
    exact .inl ⟨rfl, named, .inl kind⟩
  next kind =>
    obtain ⟨-, h⟩ := unless_eq_ok.mp h
    cases h
    exact .inl ⟨rfl, named, .inr kind⟩
  · obtain ⟨-, h⟩ := unless_eq_ok.mp h
    cases h
    exact .inr (Nat.add_right_comm ..)
  · obtain ⟨-, h⟩ := unless_eq_ok.mp h
    cases h
    exact .inr rfl
  · nomatch h

theorem countOutcomes_ok {index : Nat} {outcomes : List Value} {events : List UsageEventData}
    {t t' : Tally} (h : countOutcomes index outcomes events t = .ok t')
    (same : outcomes.length = events.length) : t.refused ≤ t'.refused ∧ (t'.refused = t.refused →
      ∀ event ∈ events, ∃ outcome ∈ outcomes, Confirms outcome event) := by
  induction outcomes generalizing index events t with
  | nil =>
    obtain rfl := List.eq_nil_of_length_eq_zero same.symm
    cases h
    exact ⟨Nat.le_refl _, fun _ => nofun⟩
  | cons outcome outcomes ih =>
    cases events with
    | nil => nomatch same
    | cons event events =>
      obtain ⟨t1, first, rest⟩ := bind_eq_ok.mp h
      obtain ⟨grows, all⟩ := ih rest (Nat.succ.inj same)
      rcases countOutcome_ok first with ⟨kept, confirms⟩ | more
      · refine ⟨kept ▸ grows, fun none_refused e mem => ?_⟩
        rcases List.mem_cons.mp mem with rfl | mem
        · exact ⟨outcome, List.mem_cons_self, confirms⟩
        · obtain ⟨o, there, its⟩ := all (none_refused.trans kept.symm) e mem
          exact ⟨o, List.mem_cons_of_mem _ there, its⟩
      · exact ⟨by omega, fun none_refused => by omega⟩

def Acknowledged (cfg : Config) (response : BillingPostResponse) (event : UsageEventData) : Prop :=
  ∃ value outcomes, cfg.fromStr response.body = some value ∧
    value.get? "outcomes" = some (.array outcomes) ∧ ∃ outcome ∈ outcomes, Confirms outcome event

/-- **A valid acknowledgement takes in every event of the batch.** -/
theorem validateBillingAck_ok {response : BillingPostResponse} {batch : List UsageEventData}
    (h : validateBillingAck cfg.fromStr response batch = .ok ()) :
    ∀ event ∈ batch, Acknowledged cfg response event := by
  unfold validateBillingAck at h
  split at h
  · nomatch h
  next value read =>
    obtain ⟨-, h⟩ := unless_eq_ok.mp h
    split at h
    next outcomes found =>
      obtain ⟨same, h⟩ := unless_eq_ok.mp h
      obtain ⟨_, -, h⟩ := bind_eq_ok.mp h
      obtain ⟨_, -, h⟩ := bind_eq_ok.mp h
      obtain ⟨_, -, h⟩ := bind_eq_ok.mp h
      obtain ⟨_, -, h⟩ := bind_eq_ok.mp h
      obtain ⟨t, counted, h⟩ := bind_eq_ok.mp h
      obtain ⟨-, h⟩ := unless_eq_ok.mp h
      obtain ⟨-, h⟩ := unless_eq_ok.mp h
      have none_refused : t.rejected = 0 ∧ t.conflicts = 0 := by
        by_contra refused
        rw [if_neg refused] at h
        nomatch h
      intro event mem
      refine ⟨value, outcomes, read, found, (countOutcomes_ok counted same).2 ?_ event mem⟩
      rw [Tally.refused, none_refused.1, none_refused.2]
      rfl
    · nomatch h

/-! ## What should arrive -/

def exports (events : List Event) : List SlotOccupancyEvent :=
  events.filterMap fun
    | .exportEvent event => some event
    | _ => none

/-- When a lease was acquired, if the last export about it was an acquisition. -/
def acquiredAt (past : List SlotOccupancyEvent) (leaseId : String) : Option Nat :=
  ((past.reverse.find? fun event => event.leaseId = leaseId).filter fun event =>
    event.kind = .acquired).map SlotOccupancyEvent.atMs

/-- The usage event of an export after others: of a slot that ends and that is known to have been
acquired, from the exports before or from the ledger. -/
def owes (cfg : Config) (past : List SlotOccupancyEvent) (event : SlotOccupancyEvent) :
    Option UsageEventData :=
  match event.kind with
  | .acquired => none
  | .released | .expired | .crashed =>
    ((acquiredAt past event.leaseId).or event.acquiredAtMs).map (usageEvent cfg event)

def owed (cfg : Config) (past : List SlotOccupancyEvent) : List SlotOccupancyEvent →
    List UsageEventData
  | [] => []
  | event :: rest => (owes cfg past event).toList ++ owed cfg (past ++ [event]) rest

theorem owed_append (past events : List SlotOccupancyEvent) (event : SlotOccupancyEvent) :
    owed cfg past (events ++ [event]) =
      owed cfg past events ++ (owes cfg (past ++ events) event).toList := by
  induction events generalizing past with
  | nil => simp [owed]
  | cons first rest ih => simp [owed, ih, List.append_assoc]

theorem acquiredAt_append (past : List SlotOccupancyEvent) (event : SlotOccupancyEvent)
    (leaseId : String) : acquiredAt (past ++ [event]) leaseId =
      if event.leaseId = leaseId then (if event.kind = .acquired then some event.atMs else none)
      else acquiredAt past leaseId := by
  unfold acquiredAt
  rw [List.reverse_append, List.reverse_singleton, List.singleton_append, List.find?_cons]
  by_cases same : event.leaseId = leaseId
  · by_cases acquired : event.kind = .acquired <;> simp [same, acquired, Option.filter]
  · simp [same]

/-- **What the exports owe arrives**: it has, or its export is on its way. -/
structure Exported (past : List SlotOccupancyEvent) (s : Target cfg) : Prop where
  leases : ∀ leaseId, s.openLeases[leaseId]? = acquiredAt past leaseId
  arrives : (s.arrived ++ s.pending).Perm (owed cfg [] past)

/-! ## Every run -/

/-- An event leaves the buffer because it was shed, or because its batch was acknowledged. -/
def Removal.Justifies (cfg : Config) (event : UsageEventData) : Removal → Prop
  | .shed => True
  | .drained response batch => event ∈ batch ∧
    validateBillingAck cfg.fromStr response batch = .ok () ∧ Acknowledged cfg response event

/-- **Every event is accounted for**: what arrived is what was removed, each for a reason, and then
the buffer. -/
structure Accounted (s : Target cfg) : Prop where
  arrived : s.arrived = s.removed.map Prod.fst ++ s.buffer
  reasons : ∀ entry ∈ s.removed, entry.2.Justifies cfg entry.1
  cap : s.buffer.length ≤ maxBillingBuffer

section Steps

variable {s : Target cfg}

theorem Accounted.take (h : Accounted s) {t : Target cfg} {n : Nat} (reason : Removal)
    (more : List UsageEventData) (justified : ∀ event ∈ s.buffer.take n, reason.Justifies cfg event)
    (arrived : t.arrived = s.arrived ++ more) (buffer : t.buffer = s.buffer.drop n ++ more)
    (removed : t.removed = s.removed ++ (s.buffer.take n).map fun event => (event, reason))
    (cap : t.buffer.length ≤ maxBillingBuffer) : Accounted t := by
  refine ⟨?_, fun entry mem => ?_, cap⟩
  · rw [arrived, buffer, removed, h.arrived, ← List.append_assoc]
    simp [Function.comp_def]
  · rw [removed, List.mem_append] at mem
    rcases mem with old | new
    · exact h.reasons entry old
    · obtain ⟨event, there, rfl⟩ := List.mem_map.mp new
      exact justified event there

theorem exportEvent_eq (s : Target cfg) (event : SlotOccupancyEvent) : exportEvent cfg s event =
    { s with
      openLeases := if event.kind = .acquired then s.openLeases.insert event.leaseId event.atMs
        else s.openLeases.erase event.leaseId
      pending := s.pending ++ if event.kind = .acquired then []
        else ((s.openLeases[event.leaseId]?.or event.acquiredAtMs).map
          (usageEvent cfg event)).toList } := by
  have ends (acquired : Option Nat) : (match acquired with
      | some acquiredAtMs => { s with
          openLeases := s.openLeases.erase event.leaseId
          pending := s.pending ++ [usageEvent cfg event acquiredAtMs] }
      | none => { s with openLeases := s.openLeases.erase event.leaseId }) = { s with
        openLeases := s.openLeases.erase event.leaseId
        pending := s.pending ++ (acquired.map (usageEvent cfg event)).toList } := by
    cases acquired with
    | none => simp
    | some acquiredAtMs => rfl
  unfold exportEvent
  split
  next kind => simp [kind]
  all_goals
    next kind =>
      simp only [kind, reduceCtorEq, if_false]
      exact ends _

theorem enqueueTerminal_accounted (h : Accounted s) (n : Nat) :
    Accounted (enqueueTerminal s n) := by
  unfold enqueueTerminal
  split
  · exact h
  · refine h.take .shed [_] (fun _ _ => trivial) rfl rfl rfl ?_
    have cap := h.cap
    simp only [List.length_append, List.length_drop, List.length_singleton]
    unfold maxBillingBuffer at cap ⊢
    split <;> omega

/-- What a step does, besides the two ends of an export: it moves the flush, or drains its batch. -/
inductive Flushes (s : Target cfg) : Target cfg → Prop
  | moves (lock : Option (Flush cfg)) : Flushes s { s with flushLock := lock }
  | drains (response : BillingPostResponse) (batch : List UsageEventData)
      (valid : validateBillingAck cfg.fromStr response batch = .ok ())
      (front : s.buffer.take batch.length = batch) :
      Flushes s { s with
        flushLock := some .looking
        buffer := s.buffer.drop batch.length
        removed := s.removed ++ batch.map fun event => (event, .drained response batch) }

theorem step_cases (s : Target cfg) (event : Event) :
    (∃ slot, event = .exportEvent slot) ∨ (∃ n, event = .enqueueTerminal n) ∨
      exports [event] = [] ∧ Flushes s (step cfg s event).1 := by
  cases event with
  | exportEvent slot => exact .inl ⟨slot, rfl⟩
  | enqueueTerminal n => exact .inr (.inl ⟨n, rfl⟩)
  | flushNow => exact .inr (.inr ⟨rfl, .moves _⟩)
  | look =>
    refine .inr (.inr ⟨rfl, ?_⟩)
    dsimp only [step]
    split
    · split <;> exact .moves _
    · exact .moves s.flushLock
  | respond response =>
    refine .inr (.inr ⟨rfl, ?_⟩)
    dsimp only [step]
    split
    · exact .moves _
    · split
      · exact .moves _
      · split <;> exact .moves _
    · exact .moves s.flushLock
  | drain =>
    refine .inr (.inr ⟨rfl, ?_⟩)
    dsimp only [step]
    split
    next response batch valid _ =>
      split
      · exact .moves _
      next same => exact .drains response batch valid (not_not.mp same)
    · exact .moves s.flushLock

/-- **One step keeps every event accounted for.** -/
theorem step_accounted (h : Accounted s) (event : Event) : Accounted (step cfg s event).1 := by
  rcases step_cases s event with ⟨slot, rfl⟩ | ⟨n, rfl⟩ | ⟨-, flushes⟩
  · dsimp only [step]
    rw [exportEvent_eq]
    exact ⟨h.arrived, h.reasons, h.cap⟩
  · exact enqueueTerminal_accounted h n
  · generalize (step cfg s event).1 = t at flushes ⊢
    cases flushes with
    | moves lock => exact ⟨h.arrived, h.reasons, h.cap⟩
    | drains response batch valid front =>
      refine h.take (n := batch.length) (.drained response batch) [] ?_ ?_ ?_ ?_ ?_
      · intro event mem
        rw [front] at mem
        exact ⟨mem, valid, validateBillingAck_ok valid event mem⟩
      · rw [List.append_nil]
      · rw [List.append_nil]
      · rw [front]
      · exact (List.length_drop ▸ Nat.sub_le _ _).trans h.cap

theorem step_ok {event : Event} (ok : (step cfg s event).2 = some (.ok ())) : s.buffer = [] := by
  cases event with
  | exportEvent | enqueueTerminal | flushNow => nomatch ok
  | look =>
    dsimp only [step] at ok
    split at ok
    · split at ok
      next empty => exact List.isEmpty_iff.mp empty
      · nomatch ok
    · nomatch ok
  | respond response =>
    dsimp only [step] at ok
    split at ok
    · nomatch ok
    · split at ok
      · nomatch ok
      · split at ok <;> nomatch ok
    · nomatch ok
  | drain =>
    dsimp only [step] at ok
    split at ok
    · split at ok <;> nomatch ok
    · nomatch ok

theorem Exported.begin {past : List SlotOccupancyEvent} (h : Exported past s)
    (event : SlotOccupancyEvent) : Exported (past ++ [event]) (exportEvent cfg s event) := by
  rw [exportEvent_eq]
  refine ⟨fun leaseId => ?_, ?_⟩
  · rw [acquiredAt_append, ← h.leases]
    dsimp only
    split
    · exact OrdMap.get_insert ..
    · exact OrdMap.get_erase ..
  · rw [owed_append, List.nil_append, ← List.append_assoc]
    refine h.arrives.append ?_
    rw [owes, ← h.leases]
    cases event.kind <;> exact .refl _

theorem Exported.enqueue {past : List SlotOccupancyEvent} (h : Exported past s) (n : Nat) :
    Exported past (enqueueTerminal s n) := by
  unfold enqueueTerminal
  split
  · exact h
  next data found =>
    refine ⟨h.leases, .trans ?_ h.arrives⟩
    obtain ⟨bound, rfl⟩ := List.getElem?_eq_some_iff.mp found
    rw [List.append_assoc]
    exact (List.getElem_cons_eraseIdx_perm bound).append_left s.arrived

theorem Exported.step {past : List SlotOccupancyEvent} (h : Exported past s) (event : Event) :
    Exported (past ++ exports [event]) (step cfg s event).1 := by
  rcases step_cases s event with ⟨slot, rfl⟩ | ⟨n, rfl⟩ | ⟨none_new, flushes⟩
  · exact h.begin slot
  · exact (List.append_nil past).symm ▸ h.enqueue n
  · rw [none_new, List.append_nil]
    generalize (Push.step cfg s event).1 = t at flushes ⊢
    cases flushes with
    | moves lock => exact ⟨h.leases, h.arrives⟩
    | drains => exact ⟨h.leases, h.arrives⟩

/-- What a step removes: it sheds only the oldest event, of a buffer at its cap. -/
structure Removes (s t : Target cfg) (new : List (UsageEventData × Removal)) : Prop where
  removed : t.removed = s.removed ++ new
  sheds : ∀ entry ∈ new, entry.2 = .shed → s.buffer.length = maxBillingBuffer ∧
    s.buffer.head? = some entry.1 ∧ new = [entry]

theorem Removes.nothing {t : Target cfg} (same : t.removed = s.removed) : ∃ new, Removes s t new :=
  ⟨[], by rw [same, List.append_nil], nofun⟩

theorem enqueueTerminal_removes (cap : s.buffer.length ≤ maxBillingBuffer) (n : Nat) :
    ∃ new, Removes s (enqueueTerminal s n) new := by
  unfold enqueueTerminal
  split
  · exact Removes.nothing rfl
  refine ⟨_, rfl, ?_⟩
  rintro entry there -
  split at there
  next full =>
    rw [if_pos full]
    cases buffer : s.buffer with
    | nil =>
      rw [buffer] at there
      nomatch there
    | cons first rest =>
      rw [buffer] at there full cap
      rw [List.mem_singleton.mp there]
      exact ⟨Nat.le_antisymm cap full, rfl, rfl⟩
  · nomatch there

theorem step_removes (h : Accounted s) (event : Event) :
    ∃ new, Removes s (step cfg s event).1 new := by
  rcases step_cases s event with ⟨slot, rfl⟩ | ⟨n, rfl⟩ | ⟨-, flushes⟩
  · dsimp only [step]
    rw [exportEvent_eq]
    exact Removes.nothing rfl
  · exact enqueueTerminal_removes h.cap n
  · generalize (step cfg s event).1 = t at flushes ⊢
    cases flushes with
    | moves lock => exact Removes.nothing rfl
    | drains response batch =>
      refine ⟨_, rfl, fun entry there shed => ?_⟩
      obtain ⟨event, -, rfl⟩ := List.mem_map.mp there
      nomatch shed

end Steps

/-- **The push drains only what was acknowledged.** In every interleaving of exports and flushes,
whatever is answered: what the exports owe has arrived, or its export has not ended yet; what
arrived is what was removed, in that order, followed by the buffer; an event was removed because it
was shed, or with a batch that a valid response takes in under its keys, and a step sheds only the
oldest event of a buffer at its cap; the buffer stays within its cap; and a flush that answers `Ok`
has seen the buffer empty. -/
theorem push_accounted (cfg : Config) (events : List Event) :
    Exported (exports events) (run cfg events) ∧ Accounted (run cfg events) ∧
      ∀ event, (∃ new, Removes (run cfg events) (step cfg (run cfg events) event).1 new) ∧
        ((step cfg (run cfg events) event).2 = some (.ok ()) → (run cfg events).buffer = []) := by
  have runs : Exported (exports events) (run cfg events) ∧ Accounted (run cfg events) := by
    induction events using List.reverseRecOn with
    | nil =>
      exact ⟨⟨fun _ => Std.ExtTreeMap.getElem?_empty, .refl _⟩, rfl, fun _ => List.not_mem_nil.elim,
        Nat.zero_le _⟩
    | append_singleton events event ih =>
      have next : run cfg (events ++ [event]) = (step cfg (run cfg events) event).1 := by
        rw [run, List.foldl_append]
        rfl
      rw [next, exports, List.filterMap_append]
      exact ⟨ih.1.step event, step_accounted ih.2 event⟩
  exact ⟨runs.1, runs.2, fun event => ⟨step_removes runs.2 event, step_ok⟩⟩

end CorelinkRunners.Push
