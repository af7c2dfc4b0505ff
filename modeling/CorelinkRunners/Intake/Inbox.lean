import CorelinkRunners.Containment.Records
import CorelinkRunners.Kit.Listing
import CorelinkRunners.Kit.Text
import CorelinkRunners.Kit.Uri

/-!
# The inbox of normal intake events

Every event that was taken in has a record for good. One that is not complete counts as active: it
has a key in the index of the pending or of the uncertain events, and a counter holds how many of
them there are. The counter and the indexes are updated one event at a time, and read as the truth.

Every operation is one transaction of the storage (`inspect` a single read), so an operation that
throws leaves the storage as it was. The four kinds of keys have prefixes of their own and are four
maps here, listed in the order of their texts.
-/

namespace CorelinkRunners.Intake

open Kit
open Containment (maxSafeInteger normalizeRedriveIdentity JobKey)

/-! ## Records -/

inductive State
  | pending
  | uncertain
  | complete
  deriving DecidableEq

structure Record where
  eventId : String
  bodySha256 : String
  jobId : String
  repo : String
  installationId : String
  labels : List String
  receivedAtMs : Int
  state : State
  nextAttemptMs : Int

structure Input where
  eventId : String
  bodySha256 : String
  jobId : String
  repo : String
  installationId : String
  labels : List String
  receivedAtMs : Int

inductive Outcome
  | complete
  | uncertain
  | retry
  deriving DecidableEq

def Outcome.state : Outcome → State
  | .complete => .complete
  | .uncertain => .uncertain
  | .retry => .pending

inductive Failure
  | error (message : String)
  /-- `fail`: "normal intake corruption: " and the message. -/
  | corruption (message : String)
  /-- `NormalIntakeConflictError`. -/
  | conflict
  deriving DecidableEq

/-! ## Checks -/

def maxActive : Nat := 500

def maxText : Nat := 256

def legacyScanPageSize : Nat := 100

def isText (max : Nat) (empty : Bool) (value : String) : Bool :=
  decide (Text.utf16Len value.toList ≤ max) && (empty || decide (0 < Text.utf16Len value.toList)) &&
    value.toList.all fun c => !Text.isControl c

def isNormalIntakeEventId (value : String) : Bool := isText maxText false value

/-- `SHA`: 64 hexadecimal digits in lower case. -/
def isSha (value : String) : Bool :=
  value.toList.length == 64 &&
    value.toList.all fun c => c.isDigit || (decide ('a' ≤ c) && decide (c ≤ 'f'))

def safeTime (value : Int) : Bool := decide (0 ≤ value) && decide (value ≤ maxSafeInteger)

def isLabels (labels : List String) : Bool :=
  decide (labels.length ≤ 32) && labels.all (isText 128 false)

def require (c : Bool) (failure : Failure) : Except Failure Unit := if c then .ok ()
    else .error failure

theorem require_elim {A : Type} {c : Bool} {failure : Failure} {f : Unit → Except Failure A}
    {P : Except Failure A → Prop} (refused : c = false → P (.error failure))
    (passes : c = true → P (f ())) : P (require c failure >>= f) := by
  cases c with
  | false => exact refused rfl
  | true => exact passes rfl

theorem require_bind {A : Type} (c : Bool) (failure : Failure) (f : Unit → Except Failure A) :
    (require c failure >>= f) = if c then f () else .error failure := by
  cases c <;> rfl

def validateInput (input : Input) : Except Failure Input := do
  require (isNormalIntakeEventId input.eventId && isSha input.bodySha256 &&
    isText maxText true input.installationId && safeTime input.receivedAtMs &&
    isLabels input.labels)
    (.error "invalid normal intake record")
  match normalizeRedriveIdentity input.repo input.jobId with
  | none => throw (.error "invalid normal intake identity")
  | some identity => return { input with jobId := identity.jobId, repo := identity.repo }

/-- Is the record well formed and, where one is given, about the event? -/
def validRecord (r : Record) (expectedEventId : String) : Bool :=
  isText maxText false r.eventId && (expectedEventId == "" || r.eventId == expectedEventId) &&
    isSha r.bodySha256 &&
    (normalizeRedriveIdentity r.repo r.jobId).any (fun identity =>
      identity.repo == r.repo && identity.jobId == r.jobId) &&
    isText maxText true r.installationId && isLabels r.labels && safeTime r.receivedAtMs &&
    safeTime r.nextAttemptMs

def validateNow (now : Int) : Except Failure Unit :=
  require (safeTime now) (.error "invalid normal intake time")

def validateBody (body : String) : Except Failure Unit :=
  require (isSha body) (.error "invalid normal intake body hash")

/-! ## Keys -/

def padded (time : Int) : String :=
  .ofList (((if time < 0 then ['-'] else []) ++ Nat.toDigits 10 time.natAbs).leftpad 16 '0')

def eventKey (id : String) : String := "normal-inbox:v1:event:" ++ Uri.encodeComponent id

def indexKey (family : String) (r : Record) : String :=
  family ++ padded r.receivedAtMs ++ ":" ++ Uri.encodeComponent r.eventId

def pendingPrefix : String := "normal-inbox:v1:pending:"

def uncertainPrefix : String := "normal-inbox:v1:uncertain:"

def pendingKey (r : Record) : String := indexKey pendingPrefix r

def uncertainKey (r : Record) : String := indexKey uncertainPrefix r

def startsWith (key family : String) : Bool := family.toList.isPrefixOf key.toList

/-! ## The storage -/

structure Store where
  events : OrdMap String Record := ∅
  pendingIndex : OrdMap String String := ∅
  uncertainIndex : OrdMap String String := ∅
  count : Option Nat := none

namespace Store

variable (s : Store)

/-! ### Taking an event in -/

inductive Status
  | accepted
  | duplicate
  | conflict
  | full

structure Enqueued where
  status : Status
  record : Option Record := none

/-- The evidence of an event: what a second delivery of it has to agree with. -/
def sameEvidence (old : Record) (input : Input) : Bool :=
  old.bodySha256 == input.bodySha256 && old.jobId == input.jobId && old.repo == input.repo &&
    old.installationId == input.installationId && old.labels == input.labels

def newRecord (input : Input) (nextAttemptMs : Int) : Record :=
  { eventId := input.eventId, bodySha256 := input.bodySha256, jobId := input.jobId,
    repo := input.repo, installationId := input.installationId, labels := input.labels,
    receivedAtMs := input.receivedAtMs, state := .pending, nextAttemptMs }

def take (input : Input) (nextAttemptMs : Int) : Except Failure (Enqueued × Store) := do
  match s.events[eventKey input.eventId]? with
  | some old =>
    require (validRecord old input.eventId) (.corruption "malformed event record")
    return (if sameEvidence old input then ⟨.duplicate, some old⟩ else ⟨.conflict, none⟩, s)
  | none =>
    require (s.count.isSome || (s.events.page none 1).isEmpty) (.corruption "missing active count")
    let count := s.count.getD 0
    require (count ≤ maxActive) (.corruption "malformed active count")
    if maxActive ≤ count then return (⟨.full, none⟩, s)
    let record := newRecord input nextAttemptMs
    return (⟨.accepted, some record⟩,
      { s with
        events := s.events.insert (eventKey input.eventId) record
        pendingIndex := s.pendingIndex.insert (pendingKey record) record.eventId
        count := some (count + 1) })

def enqueue (input : Input) (now delayMs : Int) : Except Failure (Enqueued × Store) := do
  let normalized ← validateInput input
  validateNow now
  require (safeTime delayMs && decide (now ≤ maxSafeInteger - delayMs))
    (.error "invalid normal intake delay")
  s.take normalized (now + delayMs)

/-! ### Reading the events that are ready -/

def pendingRecord (key id : String) : Except Failure Record := do
  require (startsWith key pendingPrefix) (.corruption "malformed pending index")
  match s.events[eventKey id]? with
  | none => throw (.corruption "malformed event record")
  | some record =>
    require (validRecord record id) (.corruption "malformed event record")
    require (record.state == .pending && key == pendingKey record)
      (.corruption "pending index/state mismatch")
    return record

def readyRecords (now : Int) : List (String × String) → Except Failure (List Record)
  | [] => return []
  | (key, id) :: rest => do
    let record ← s.pendingRecord key id
    let ready ← readyRecords now rest
    return if record.nextAttemptMs ≤ now then record :: ready else ready

/-- How two texts compare in the locale of the runtime (`localeCompare`). -/
structure Locale where
  compare : String → String → Ordering
  trans : Std.TransCmp compare

def arrivesBefore (locale : Locale) (a b : Record) : Bool :=
  decide (a.receivedAtMs < b.receivedAtMs) ||
    (a.receivedAtMs == b.receivedAtMs && (locale.compare a.eventId b.eventId).isLE)

theorem arrivesBefore_total (locale : Locale) (a b : Record) :
    (arrivesBefore locale a b || arrivesBefore locale b a) = true := by
  have := locale.trans
  simp only [arrivesBefore, Bool.or_eq_true, Bool.and_eq_true, decide_eq_true_eq, beq_iff_eq]
  rcases lt_trichotomy a.receivedAtMs b.receivedAtMs with less | same | more
  · exact .inl (.inl less)
  · cases order : locale.compare a.eventId b.eventId with
    | lt => exact .inl (.inr ⟨same, rfl⟩)
    | eq => exact .inl (.inr ⟨same, rfl⟩)
    | gt =>
      refine .inr (.inr ⟨same.symm, ?_⟩)
      rw [Std.OrientedCmp.lt_of_gt order]
      rfl
  · exact .inr (.inl more)

theorem arrivesBefore_trans (locale : Locale) (a b c : Record)
    (ab : arrivesBefore locale a b = true)
    (bc : arrivesBefore locale b c = true) : arrivesBefore locale a c = true := by
  have := locale.trans
  simp only [arrivesBefore, Bool.or_eq_true, Bool.and_eq_true, decide_eq_true_eq,
    beq_iff_eq] at ab bc ⊢
  rcases ab with less | ⟨same, le⟩
  · rcases bc with less' | ⟨same', -⟩
    · exact .inl (less.trans less')
    · exact .inl (same' ▸ less)
  · rcases bc with less' | ⟨same', le'⟩
    · exact .inl (same ▸ less')
    · exact .inr ⟨same.trans same', Std.TransCmp.isLE_trans le le'⟩

def pending (locale : Locale) (now limit : Int) : Except Failure (List Record) := do
  validateNow now
  require (decide (1 ≤ limit) && decide (limit ≤ 25)) (.error "invalid normal intake limit")
  let page := s.pendingIndex.page none (maxActive + 1)
  require (page.length ≤ maxActive) (.corruption "pending index exceeds capacity")
  let ready ← s.readyRecords now page
  return (ready.mergeSort (arrivesBefore locale)).take limit.toNat

def inspect (eventId : String) : Except Failure (Option Record) := do
  require (isNormalIntakeEventId eventId) (.error "invalid normal intake event id")
  match s.events[eventKey eventId]? with
  | none => return none
  | some record =>
    require (validRecord record eventId) (.corruption "malformed event record")
    return some record

/-! ### Settling -/

def retryDelay : Int := 60000

def settled (value : Record) (outcome : Outcome) (now : Int) : Record :=
  { value with
    state := outcome.state
    nextAttemptMs := if outcome = .retry then now + retryDelay else value.nextAttemptMs }

def reindex (value next : Record) (outcome : Outcome) (count : Nat) : Except Failure Store :=
  match outcome with
  | .complete => do
    require (1 ≤ count) (.corruption "active count underflow")
    return { s with
      pendingIndex := s.pendingIndex.erase (pendingKey value)
      uncertainIndex :=
        if value.state = .uncertain then s.uncertainIndex.erase (uncertainKey value)
        else s.uncertainIndex
      count := some (count - 1) }
  | .uncertain =>
    return { s with
      pendingIndex := s.pendingIndex.erase (pendingKey value)
      uncertainIndex := s.uncertainIndex.insert (uncertainKey next) next.eventId }
  | .retry => return { s with pendingIndex := s.pendingIndex.insert (pendingKey next) next.eventId }

def settle (eventId expectedBodySha : String) (outcome : Outcome) (now : Int) :
    Except Failure Store := do
  require (isNormalIntakeEventId eventId) (.error "invalid normal intake settlement")
  validateBody expectedBodySha
  validateNow now
  match s.events[eventKey eventId]? with
  | none => throw (.corruption "missing or malformed event record")
  | some value =>
    require (validRecord value eventId) (.corruption "missing or malformed event record")
    require (value.bodySha256 == expectedBodySha) .conflict
    if value.state = .complete ∨ value.state = .uncertain ∧ outcome ≠ .complete then return s
    require (!(outcome == .retry && decide (maxSafeInteger - retryDelay < now)))
      (.error "invalid normal intake retry time")
    match s.count with
    | none => throw (.corruption "malformed active count")
    | some count =>
      require (count ≤ maxActive) (.corruption "malformed active count")
      let next := settled value outcome now
      let t ← s.reindex value next outcome count
      return { t with events := t.events.insert (eventKey eventId) next }

/-! ### The uncertain events -/

structure Summary where
  count : Nat
  oldestAgeMs : Option Int

def earlier (oldest : Option Int) (time : Int) : Option Int :=
  match oldest with
  | none => some time
  | some t => if time < t then some time else some t

theorem earlier_some (t time : Int) : earlier (some t) time = some (min t time) := by
  rw [earlier]
  split
  next less => rw [min_eq_right less.le]
  next not => rw [min_eq_left (not_lt.mp not)]

instance : RightCommutative earlier where
  right_comm oldest a b := by
    cases oldest with
    | none =>
      change earlier (some a) b = earlier (some b) a
      rw [earlier_some, earlier_some, min_comm]
    | some t => simp only [earlier_some, min_right_comm]

theorem foldl_earlier (times : List Int) : times.foldl earlier none = times.min? := by
  have later (rest : List Int) (t : Int) : rest.foldl earlier (some t) = some
      (rest.foldl min t) := by
    induction rest generalizing t with
    | nil => rfl
    | cons time rest ih => rw [List.foldl_cons, earlier_some, ih, List.foldl_cons]
  cases times with
  | nil => rfl
  | cons time rest => exact later rest time

/-- The record that an entry of an index names, for `uncertainSummary`. -/
def indexed (state : State) (family mismatch : String) (key id : String) : Except Failure Record :=
  match s.events[eventKey id]? with
  | none => throw (.corruption mismatch)
  | some record => do
    require (validRecord record id && record.state == state && key == indexKey family record)
      (.corruption mismatch)
    return record

def oldestUncertain : List (String × String) → Option Int → Except Failure (Option Int)
  | [], oldest => return oldest
  | (key, id) :: rest, oldest => do
    require (startsWith key uncertainPrefix) (.corruption "malformed uncertain index")
    let record ← s.indexed .uncertain uncertainPrefix "uncertain index/state mismatch" key id
    oldestUncertain rest (earlier oldest record.receivedAtMs)

def checkPending : List (String × String) → Except Failure Unit
  | [] => return ()
  | (key, id) :: rest => do
    let _ ← s.indexed .pending pendingPrefix "pending index/state mismatch" key id
    checkPending rest

/-- The uncertain events without an index key that a page of event records has, up to the number
that is expected. -/
def legacyPage (pending uncertain : List (String × String)) (expected : Nat) :
    List (String × Record) → Nat × Option Int → Except Failure (Nat × Option Int)
  | [], scanned => return scanned
  | (key, value) :: rest, (found, oldest) => do
    require (validRecord value "" && key == eventKey value.eventId)
      (.corruption "malformed event record during legacy scan")
    match value.state with
    | .complete => legacyPage pending uncertain expected rest (found, oldest)
    | .pending =>
      require (pending.lookup (pendingKey value) == some value.eventId)
        (.corruption "pending index/state mismatch")
      legacyPage pending uncertain expected rest (found, oldest)
    | .uncertain =>
      match uncertain.lookup (uncertainKey value) with
      | some id =>
        require (id == value.eventId) (.corruption "uncertain index/state mismatch")
        legacyPage pending uncertain expected rest (found, oldest)
      | none =>
        require (found + 1 ≤ expected) (.corruption "active count/event mismatch")
        let scanned := (found + 1, earlier oldest value.receivedAtMs)
        if found + 1 = expected then return scanned
        legacyPage pending uncertain expected rest scanned

theorem after_last_lt {events : OrdMap String Record} {cursor : Option String} {limit : Nat}
    {last : String × Record} (there : (events.page cursor limit).getLast? = some last) :
    (events.after (some last.1)).length < (events.after cursor).length := by
  have mem := List.mem_of_mem_take (List.mem_of_getLast? there)
  have later := (OrdMap.mem_after.mp mem).2
  have rest : events.after (some last.1) =
      (events.after cursor).filter fun entry => OrdMap.isAfter (some last.1) entry.1 := by
    rw [OrdMap.after, OrdMap.after, List.filter_filter]
    refine List.filter_congr fun entry _ => ?_
    cases next : OrdMap.isAfter (some last.1) entry.1 with
    | false => rfl
    | true => rw [OrdMap.isAfter_trans later next]; rfl
  rw [rest]
  refine List.length_filter_lt_length_iff_exists.mpr ⟨last, mem, ?_⟩
  simp [OrdMap.isAfter]

/-- Read the event records page by page until the expected number of uncertain events without an
index key is found. -/
def legacyScan (pending uncertain : List (String × String)) (expected : Nat)
    (cursor : Option String) (scanned : Nat × Option Int) : Except Failure (Nat × Option Int) :=
  if expected ≤ scanned.1 then return scanned
  else match _there : (s.events.page cursor legacyScanPageSize).getLast? with
    | none => throw (.corruption "active count/event mismatch")
    | some last =>
      match legacyPage pending uncertain expected (s.events.page cursor legacyScanPageSize)
        scanned with
      | .error failure => .error failure
      | .ok scanned => legacyScan pending uncertain expected (some last.1) scanned
termination_by (s.events.after cursor).length
decreasing_by exact after_last_lt ‹_›

def summary (now : Int) (count : Nat) (oldest : Option Int) : Summary :=
  ⟨count, oldest.map fun t => max 0 (now - t)⟩

def uncertainSummary (now : Int) : Except Failure Summary := do
  validateNow now
  let pending := s.pendingIndex.page none (maxActive + 1)
  let uncertain := s.uncertainIndex.page none (maxActive + 1)
  require (pending.length ≤ maxActive && uncertain.length ≤ maxActive)
    (.corruption "active index exceeds capacity")
  match s.count, pending, uncertain with
  | none, [], [] => return summary now 0 none
  | none, _, _ => throw (.corruption "malformed active count")
  | some count, pending, uncertain =>
    require (count ≤ maxActive) (.corruption "malformed active count")
    if count = pending.length + uncertain.length then
      let oldest ← s.oldestUncertain uncertain none
      return summary now uncertain.length oldest
    require (pending.length + uncertain.length ≤ count) (.corruption "active indexes exceed count")
    s.checkPending pending
    let oldest ← s.oldestUncertain uncertain none
    let (found, oldest) ← s.legacyScan pending uncertain
      (count - (pending.length + uncertain.length)) none (0, oldest)
    return summary now (uncertain.length + found) oldest

end Store

/-! ## Runs -/

inductive Call
  | enqueue (input : Input) (now delayMs : Int)
  | settle (eventId expectedBodySha : String) (outcome : Outcome) (now : Int)
  | pending (now limit : Int)
  | inspect (eventId : String)
  | uncertainSummary (now : Int)

def thrown {A : Type} : Except Failure A → Option Failure
  | .error failure => some failure
  | .ok _ => none

def committed {A : Type} (s : Store) (store : A → Store) : Except Failure A → Store
  | .error _ => s
  | .ok a => store a

def Store.call (locale : Store.Locale) (s : Store) : Call → Option Failure × Store
  | .enqueue input now delayMs =>
    (thrown (s.enqueue input now delayMs), committed s Prod.snd (s.enqueue input now delayMs))
  | .settle eventId expectedBodySha outcome now =>
    (thrown (s.settle eventId expectedBodySha outcome now),
      committed s id (s.settle eventId expectedBodySha outcome now))
  | .pending now limit => (thrown (s.pending locale now limit), s)
  | .inspect eventId => (thrown (s.inspect eventId), s)
  | .uncertainSummary now => (thrown (s.uncertainSummary now), s)

def Store.run (locale : Store.Locale) (calls : List Call) : Store :=
  calls.foldl (fun s call => (s.call locale call).2) {}

end CorelinkRunners.Intake
