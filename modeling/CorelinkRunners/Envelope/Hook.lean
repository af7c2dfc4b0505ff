import CorelinkRunners.Envelope.Collector

/-!
# The capture hook of a lease and its close

One `Inner` is shared by every handle to a hook: the job writes events into two bounded surfaces,
subscribers drain them, and the close state machine ends the job exactly once. A close is two
critical sections with the wait for an acknowledgement between them, `closeBegin` and `closeEnd`;
everything else is one.
-/

namespace CorelinkRunners.Envelope

open Kit

/-! ## Vocabulary -/

structure EnvelopeConfig where
  bufferCapacity : Nat

structure TurnMeta where
  turnIndex : Nat
  timestampMs : Nat
  tool : Option String
  tokens : Option Nat

inductive HookPhase
  | notOpen
  | open_
  | closed
deriving DecidableEq

inductive JobStatus
  | succeeded
  | failed
  | killed

inductive AbnormalKind
  | expiry
  | crash

inductive CloseReason
  | normal
  | expired
  | crashed

def AbnormalKind.reason : AbnormalKind → CloseReason
  | expiry => .expired
  | crash => .crashed

def AbnormalKind.status : AbnormalKind → JobStatus
  | expiry => .killed
  | crash => .failed

structure CloseSignal where
  status : JobStatus
  metrics : IntentMetrics

structure CloseOutcome where
  status : JobStatus
  metrics : IntentMetrics
  captureIncomplete : Bool
  closeReason : CloseReason

/-- The state behind a hook, its subscribers and its close. -/
structure Inner where
  cfg : EnvelopeConfig
  expectedCredential : Bytes
  openedAt : Instant
  phase : HookPhase
  raw : List Bytes
  meta_ : List TurnMeta
  rawOverflow : Bool
  metaOverflow : Bool
  nextTurnIndex : Nat
  collector : MetricsCollector
  closeSignal : Option CloseSignal
  ackWindowOpen : Bool
  acked : Bool
  closeDone : Bool
  released : Bool

/-- Compare two credentials without an early exit: the differences of all bytes and of the lengths
are folded into one word. -/
def credentialMatches (expected presented : Bytes) : Bool :=
  let diff := (List.range (max expected.length presented.length)).foldl
    (fun diff i => diff ||| ((expected[i]?.getD 0) ^^^ (presented[i]?.getD 0)).toNat)
    (expected.length ^^^ presented.length)
  diff == 0

/-! ## The texts -/

def writeNotOpen : String :=
  "capture hook write refused: hook is not open yet (open completes at lease acquire)"

def writeClosed : String := "capture hook write refused: hook is closed (job close already ran)"

def subscribeRefused : String := "subscribe refused: bearer credential mismatch for this hook"

def closeRefused : String :=
  "job close refused: close already signalled (job close is exactly-once)"

def ackMismatch : String := "ack refused: bearer credential mismatch for this hook"

def ackEarly : String := "ack refused: no close signal yet (an ack cannot be pre-armed)"

def ackInert : String :=
  "ack inert: the close already completed; the produced outcome cannot change"

namespace Inner

variable (self : Inner)

/-! ## Opening and capturing -/

def pending (cfg : EnvelopeConfig) (expectedCredential : Bytes) (collector : MetricsCollector)
    (now : Instant) : Inner where
  cfg
  expectedCredential
  openedAt := now
  phase := .notOpen
  raw := []
  meta_ := []
  rawOverflow := false
  metaOverflow := false
  nextTurnIndex := 0
  collector
  closeSignal := none
  ackWindowOpen := false
  acked := false
  closeDone := false
  released := false

def completeOpen (now : Instant) : Inner :=
  if self.phase = .notOpen then { self with phase := .open_, openedAt := now } else self

def turnFacts : TranscriptEvent → Option String × Option Nat
  | .modelTurn _ usage _ => (none, usage.map fun u =>
      Word.satAdd (Word.satAdd (Word.satAdd u.input u.output) u.cacheRead) u.cacheWrite)
  | .toolCall tool .. => (some tool, none)
  | .toolResult .. | .systemPrompt _ => (none, none)

def pushRaw (bytes : Bytes) : Inner :=
  if self.raw.length < self.cfg.bufferCapacity then { self with raw := self.raw ++ [bytes] }
  else { self with rawOverflow := true }

def pushMeta (entry : TurnMeta) : Inner :=
  if self.meta_.length < self.cfg.bufferCapacity then { self with meta_ := self.meta_ ++ [entry] }
  else { self with metaOverflow := true }

def write (ev : TranscriptEvent) (now : Instant) : Result Unit × Inner :=
  match self.phase with
  | .notOpen => (.error writeNotOpen, self)
  | .closed => (.error writeClosed, self)
  | .open_ =>
    let observed := { self with
      collector := self.collector.observe ev
      nextTurnIndex := Word.satAdd self.nextTurnIndex 1 }
    let (tool, tokens) := turnFacts ev
    (.ok (), (observed.pushRaw ev.bytes).pushMeta
      ⟨self.nextTurnIndex, millisSince now self.openedAt, tool, tokens⟩)

def subscribe (credential : Bytes) : Result Unit :=
  if credentialMatches self.expectedCredential credential then .ok () else .error subscribeRefused

def nextEvent : Option Bytes × Inner := (self.raw.head?, { self with raw := self.raw.tail })

def nextMeta : Option TurnMeta × Inner := (self.meta_.head?, { self with meta_ := self.meta_.tail })

def snapshotMetrics (now : Instant) (price : PriceCard) : IntentMetrics :=
  self.collector.snapshot now price

/-! ## Closing -/

def signalled : Bool := self.closeDone || self.closeSignal.isSome

def finalize (died : Instant) (price : PriceCard) : Result IntentMetrics × Inner :=
  let (answer, collector) := self.collector.finalize died price
  (answer, { self with phase := .closed, collector })

/-- A close up to its wait: the signal is published and the acknowledgement window opens. -/
def closeBegin (status : JobStatus) (died : Instant) (price : PriceCard) :
    Result IntentMetrics × Inner :=
  if self.signalled then (.error closeRefused, self)
  else
    match self.finalize died price with
    | (.error e, closed) =>
      (.error ("finalizing the metrics collector at job close: " ++ e), closed)
    | (.ok metrics, closed) =>
      (.ok metrics, { closed with closeSignal := some ⟨status, metrics⟩, ackWindowOpen := true })

/-- A close after its wait. What is still on a surface was lost. -/
def closeEnd (status : JobStatus) (metrics : IntentMetrics) : CloseOutcome × Inner :=
  let residue := !self.raw.isEmpty || !self.meta_.isEmpty
  let lossy := residue || self.rawOverflow || self.metaOverflow
  (⟨status, metrics, lossy || !self.acked, .normal⟩,
    { self with ackWindowOpen := false, closeDone := true, released := true })

def closeAbnormal (kind : AbnormalKind) (died : Instant) (price : PriceCard) :
    Result CloseOutcome × Inner :=
  if self.signalled then (.error closeRefused, self)
  else
    match self.finalize died price with
    | (.error e, closed) =>
      (.error ("finalizing the metrics collector at abnormal job close: " ++ e), closed)
    | (.ok metrics, closed) =>
      (.ok ⟨kind.status, metrics, true, kind.reason⟩,
        { closed with
          closeSignal := some ⟨kind.status, metrics⟩
          closeDone := true
          released := true })

def ack (credential : Bytes) : Result Unit × Inner :=
  if !credentialMatches self.expectedCredential credential then (.error ackMismatch, self)
  else if self.closeSignal.isNone then (.error ackEarly, self)
  else if !self.ackWindowOpen then (.error ackInert, self)
  else (.ok (), { self with acked := true })

/-! ## What an accepted write does -/

section Push

variable {self} {bytes : Bytes} {entry : TurnMeta}

@[simp] theorem pushRaw_meta_ : (self.pushRaw bytes).meta_ = self.meta_ := by
  unfold pushRaw
  split <;> rfl

@[simp] theorem pushRaw_metaOverflow : (self.pushRaw bytes).metaOverflow = self.metaOverflow := by
  unfold pushRaw
  split <;> rfl

@[simp] theorem pushMeta_raw : (self.pushMeta entry).raw = self.raw := by
  unfold pushMeta
  split <;> rfl

@[simp] theorem pushMeta_rawOverflow : (self.pushMeta entry).rawOverflow = self.rawOverflow := by
  unfold pushMeta
  split <;> rfl

theorem pushRaw_kept (kept : (self.pushRaw bytes).rawOverflow = false) :
    self.rawOverflow = false ∧ (self.pushRaw bytes).raw = self.raw ++ [bytes] := by
  unfold pushRaw at kept ⊢
  split at kept
  next room => exact ⟨kept, by rw [if_pos room]⟩
  · nomatch kept

theorem pushMeta_kept (kept : (self.pushMeta entry).metaOverflow = false) :
    self.metaOverflow = false ∧ (self.pushMeta entry).meta_ = self.meta_ ++ [entry] := by
  unfold pushMeta at kept ⊢
  split at kept
  next room => exact ⟨kept, by rw [if_pos room]⟩
  · nomatch kept

end Push

structure SameClose (before after : Inner) : Prop where
  expectedCredential : after.expectedCredential = before.expectedCredential
  phase : after.phase = before.phase
  closeSignal : after.closeSignal = before.closeSignal
  ackWindowOpen : after.ackWindowOpen = before.ackWindowOpen
  acked : after.acked = before.acked
  closeDone : after.closeDone = before.closeDone

theorem write_sameClose (ev : TranscriptEvent) (now : Instant) :
    SameClose self (self.write ev now).2 := by
  unfold write
  cases phase : self.phase with
  | notOpen => exact ⟨rfl, rfl, rfl, rfl, rfl, rfl⟩
  | closed => exact ⟨rfl, rfl, rfl, rfl, rfl, rfl⟩
  | open_ =>
    simp only [pushRaw, pushMeta]
    split <;> split <;> exact ⟨rfl, phase.symm, rfl, rfl, rfl, rfl⟩

end Inner

/-! ## Credentials -/

theorem foldl_or_eq_zero {A : Type} (part : A → Nat) (start : Nat) (l : List A) :
    l.foldl (fun acc a => acc ||| part a) start = 0 ↔ start = 0 ∧ ∀ a ∈ l, part a = 0 := by
  induction l generalizing start with
  | nil => simp
  | cons a l ih =>
    rw [List.foldl_cons, ih, Nat.or_eq_zero_iff]
    simp only [List.mem_cons, forall_eq_or_imp, and_assoc]

/-- **The comparison is equality of the bytes.** -/
theorem credentialMatches_iff {expected presented : Bytes} :
    credentialMatches expected presented = true ↔ expected = presented := by
  unfold credentialMatches
  simp only [beq_iff_eq]
  rw [foldl_or_eq_zero, Nat.xor_eq_zero_iff]
  constructor
  · rintro ⟨length, bytes⟩
    refine List.ext_getElem length fun i left right => ?_
    have same := bytes i (List.mem_range.mpr (by omega))
    rw [List.getElem?_eq_getElem left, List.getElem?_eq_getElem right, Option.getD_some,
      Option.getD_some, UInt8.toNat_xor, Nat.xor_eq_zero_iff] at same
    exact UInt8.toNat_inj.mp same
  · rintro rfl
    exact ⟨rfl, fun i _ => by simp⟩

end CorelinkRunners.Envelope
