import CorelinkRunners.Billing.Meter
import CorelinkRunners.Kit.Run

/-!
# Billing export

An export round takes the journal, the watermark and the drop count in one look at the meter,
persists the window without the lock, and on success drains through the watermark. Events are
recorded, and may be dropped at the journal's cap, at any point of a round; other instances persist
into the same sink; a persist may fail with any part of the window in the sink, or panic.

`ExportState.Kept` is the invariant: what was recorded is what has left the journal followed by the
journal, and of what has left, no more is missing from the sink than was dropped.
-/

namespace CorelinkRunners

open Kit

/-! ## The sink -/

def kindToDb : SlotEventKind → String
  | .acquired => "acquired"
  | .released => "released"
  | .expired => "expired"
  | .crashed => "crashed"

/-- The natural key of an event: the primary key of the table. -/
abbrev EventKey : Type := TenantId × String × String × Nat

def eventKey (ev : SlotOccupancyEvent) : EventKey :=
    (ev.tenant, ev.leaseId, kindToDb ev.kind, ev.atMs)

structure MemBillingSink where
  seen : Finset EventKey

namespace MemBillingSink

def new : MemBillingSink := ⟨∅⟩

def contains (sink : MemBillingSink) (ev : SlotOccupancyEvent) : Bool := eventKey ev ∈ sink.seen

def persistOne (done : Nat × MemBillingSink) (ev : SlotOccupancyEvent) : Nat × MemBillingSink :=
  if done.2.contains ev then done else (done.1 + 1, ⟨insert (eventKey ev) done.2.seen⟩)

def persist (sink : MemBillingSink) (events : List SlotOccupancyEvent) : Nat × MemBillingSink :=
  events.foldl persistOne (0, sink)

theorem contains_persistOne {done : Nat × MemBillingSink} {ev other : SlotOccupancyEvent} :
    (persistOne done ev).2.contains other = true ↔
      eventKey other = eventKey ev ∨ done.2.contains other = true := by
  unfold persistOne
  split
  next there =>
    simp only [contains, decide_eq_true_eq] at there ⊢
    refine ⟨.inr, ?_⟩
    rintro (same | old)
    · rw [same]
      exact there
    · exact old
  · simp only [contains, decide_eq_true_eq, Finset.mem_insert]

theorem contains_persist (sink : MemBillingSink) (events : List SlotOccupancyEvent)
    (other : SlotOccupancyEvent) : (sink.persist events).2.contains other = true ↔
      (∃ ev ∈ events, eventKey other = eventKey ev) ∨ sink.contains other = true := by
  suffices h : ∀ done : Nat × MemBillingSink,
      (events.foldl persistOne done).2.contains other = true ↔
        (∃ ev ∈ events, eventKey other = eventKey ev) ∨ done.2.contains other = true from h
        (0, sink)
  induction events with
  | nil => simp
  | cons ev events ih =>
    intro done
    rw [List.foldl_cons, ih, contains_persistOne]
    simp only [List.mem_cons, exists_eq_or_imp]
    rw [or_left_comm, or_assoc]

end MemBillingSink

/-! ## The export loop -/

structure ExportRound where
  events : List SlotOccupancyEvent
  watermark : Nat
  nowDropped : Nat

/-- Where the loop stands: between rounds, with a window to persist, or with one to drain. -/
inductive ExportPhase
  | idle
  | snapshotted (round : ExportRound)
  | persisted (round : ExportRound)

def ExportPhase.round : ExportPhase → Option ExportRound
  | idle => none
  | snapshotted round | persisted round => some round

structure ExportState where
  meter : SlotMeter
  sink : MemBillingSink
  phase : ExportPhase
  prevDropped : Nat
  reported : List Nat
  recorded : List SlotOccupancyEvent

/-- How a persist ends: done, failed, or panicked. A persist that does not succeed may have put any
number of the events into the sink. -/
inductive PersistOutcome
  | ok
  | failed (put : Nat)
  | panicked (put : Nat)

inductive ExportEvent
  | record (ev : SlotOccupancyEvent)
  | snapshot
  | persist (outcome : PersistOutcome)
  | drain
  | elsewhere (events : List SlotOccupancyEvent)

namespace ExportState

variable (s : ExportState)

def new : ExportState := ⟨.new, .new, .idle, 0, [], []⟩

def complete (round : ExportRound) : ExportState :=
  { s with
    phase := .idle
    prevDropped := round.nowDropped
    reported := s.reported ++ [round.nowDropped - s.prevDropped] }

def persist (round : ExportRound) : PersistOutcome → ExportState
  | .ok => { s with sink := (s.sink.persist round.events).2, phase := .persisted round }
  | .failed put => { s with sink := (s.sink.persist (round.events.take put)).2 }.complete round
  | .panicked put => { s with sink := (s.sink.persist (round.events.take put)).2, phase := .idle }

def step : ExportEvent → ExportState
  | .record ev => { s with meter := s.meter.record ev, recorded := s.recorded ++ [ev] }
  | .snapshot =>
    match s.phase with
    | .idle =>
      { s with
        phase := .snapshotted ⟨s.meter.journal, s.meter.exportWatermark, s.meter.journalDropped⟩ }
    | _ => s
  | .persist outcome =>
    match s.phase with
    | .snapshotted round => s.persist round outcome
    | _ => s
  | .drain =>
    match s.phase with
    | .persisted round => { s with meter := s.meter.drainThrough round.watermark }.complete round
    | _ => s
  | .elsewhere events => { s with sink := (s.sink.persist events).2 }

end ExportState

/-! ## What a run keeps -/

namespace ExportState

/-- The window of a round in what was recorded: it ends at the watermark, and it begins no later
than the journal does by now. -/
structure Window (s : ExportState) (gone : List SlotOccupancyEvent) (round : ExportRound) :
    Prop where
  placed : ∃ before after, s.recorded = before ++ round.events ++ after ∧
    before.length + round.events.length = round.watermark ∧ before.length ≤ gone.length
  since : s.prevDropped ≤ round.nowDropped
  known : round.nowDropped ≤ s.meter.journalDropped

/-- What was recorded is what has left the journal, `gone`, followed by the journal. -/
structure Kept (s : ExportState) (gone : List SlotOccupancyEvent) : Prop where
  split : s.recorded = gone ++ s.meter.journal
  numbered : s.meter.totalRecorded = s.recorded.length
  lost : (gone.countP fun ev => !s.sink.contains ev) ≤ s.meter.journalDropped
  reported : s.reported.sum = s.prevDropped
  known : s.prevDropped ≤ s.meter.journalDropped
  window : ∀ round, s.phase.round = some round → s.Window gone round
  persisted : ∀ round, s.phase = .persisted round → ∀ ev ∈ round.events, s.sink.contains ev = true

variable {s : ExportState} {gone : List SlotOccupancyEvent}

theorem Kept.new : Kept ExportState.new [] where
  split := rfl
  numbered := rfl
  lost := Nat.le_refl _
  reported := rfl
  known := Nat.le_refl _
  window := nofun
  persisted := nofun

theorem countP_persist_le (sink : MemBillingSink) (events gone : List SlotOccupancyEvent) :
    (gone.countP fun ev => !(sink.persist events).2.contains ev) ≤
      gone.countP fun ev => !sink.contains ev := by
  refine List.countP_mono_left fun ev _ missing => ?_
  rw [Bool.not_eq_true'] at missing ⊢
  by_contra there
  rw [Bool.not_eq_false] at there
  have now := (sink.contains_persist events ev).mpr (.inr there)
  rw [missing] at now
  cases now

variable {sink : MemBillingSink} {ev : SlotOccupancyEvent}

variable (kept : s.Kept gone)
include kept

theorem Kept.elsewhere (events : List SlotOccupancyEvent) :
    Kept { s with sink := (s.sink.persist events).2 } gone where
  split := kept.split
  numbered := kept.numbered
  lost := Nat.le_trans (countP_persist_le _ _ _) kept.lost
  reported := kept.reported
  known := kept.known
  window round at_round := ⟨(kept.window round at_round).placed, (kept.window round at_round).since,
    (kept.window round at_round).known⟩
  persisted round at_round ev there :=
    (MemBillingSink.contains_persist _ events ev).mpr
    (.inr (kept.persisted round at_round ev there))

theorem Kept.record (ev : SlotOccupancyEvent) (room : s.recorded.length < Word.maxU64) :
    ∃ gone', Kept { s with meter := s.meter.record ev, recorded := s.recorded ++ [ev] } gone' := by
  obtain ⟨total, cases⟩ := s.meter.record_cases ev
  have numbered : (s.meter.record ev).totalRecorded = (s.recorded ++ [ev]).length := by
    rw [total, kept.numbered, List.length_append, List.length_singleton]
    unfold Word.satAdd
    omega
  have placed : ∀ {gone' : List SlotOccupancyEvent} {dropped : Nat},
      gone.length ≤ gone'.length → s.meter.journalDropped ≤ dropped →
      (s.meter.record ev).journalDropped = dropped →
      ∀ round, s.phase.round = some round →
        Window { s with meter := s.meter.record ev, recorded := s.recorded ++ [ev] }
        gone' round := by
    intro gone' dropped longer more now round at_round
    obtain ⟨⟨before, after, recorded, ends, begins⟩, since, known⟩ := kept.window round at_round
    refine ⟨⟨before, after ++ [ev], ?_, ends, Nat.le_trans begins longer⟩, since, ?_⟩
    · rw [recorded, List.append_assoc]
    · rw [now]
      exact Nat.le_trans known more
  rcases cases with ⟨journal, dropped⟩ | ⟨oldest, rest, before, journal, dropped⟩
  · refine ⟨gone, ?_, numbered, ?_, kept.reported, ?_,
      placed (Nat.le_refl _) (Nat.le_refl _) dropped, kept.persisted⟩
    · rw [journal, kept.split, List.append_assoc]
    · rw [dropped]
      exact kept.lost
    · rw [dropped]
      exact kept.known
  · -- the oldest event leaves, and is counted as dropped
    refine ⟨gone ++ [oldest], ?_, numbered, ?_, kept.reported, ?_, ?_, kept.persisted⟩
    · rw [journal, kept.split, before]
      simp only [List.append_assoc, List.cons_append, List.nil_append]
    · rw [dropped, List.countP_append]
      have one : List.countP (fun ev => !s.sink.contains ev) [oldest] ≤ 1 := List.countP_le_length
      have lost := kept.lost
      dsimp only
      omega
    · rw [dropped]
      exact Nat.le_succ_of_le kept.known
    · refine placed ?_ (Nat.le_succ _) dropped
      rw [List.length_append]
      omega

theorem Kept.snapshot : Kept { s with
      phase := .snapshotted ⟨s.meter.journal, s.meter.exportWatermark, s.meter.journalDropped⟩ }
      gone where
  split := kept.split
  numbered := kept.numbered
  lost := kept.lost
  reported := kept.reported
  known := kept.known
  window round at_round := by
    cases at_round
    refine ⟨⟨gone, [], ?_, ?_, Nat.le_refl _⟩, kept.known, Nat.le_refl _⟩
    · rw [List.append_nil]
      exact kept.split
    · show gone.length + s.meter.journal.length = s.meter.totalRecorded
      rw [kept.numbered, kept.split, List.length_append]
  persisted := nofun

theorem Kept.complete {round : ExportRound}
    (since : s.prevDropped ≤ round.nowDropped) (known : round.nowDropped ≤ s.meter.journalDropped) :
    Kept (s.complete round) gone where
  split := kept.split
  numbered := kept.numbered
  lost := kept.lost
  reported := by
    show (s.reported ++ [round.nowDropped - s.prevDropped]).sum = round.nowDropped
    rw [List.sum_append, List.sum_singleton, kept.reported]
    omega
  known := known
  window := nofun
  persisted := nofun

theorem Kept.persist {round : ExportRound}
    (at_round : s.phase = .snapshotted round) (outcome : PersistOutcome) :
    Kept (s.persist round outcome) gone := by
  have window := kept.window round (congrArg ExportPhase.round at_round)
  cases outcome with
  | failed put => exact (kept.elsewhere (round.events.take put)).complete window.since window.known
  | panicked put =>
    have other := kept.elsewhere (round.events.take put)
    exact ⟨other.split, other.numbered, other.lost, other.reported, other.known, nofun, nofun⟩
  | ok =>
    have other := kept.elsewhere round.events
    refine ⟨other.split, other.numbered, other.lost, other.reported, other.known, ?_, ?_⟩
    · intro round' same
      cases same
      exact ⟨window.placed, window.since, window.known⟩
    · intro round' same ev there
      cases same
      exact (MemBillingSink.contains_persist _ _ _).mpr (.inl ⟨_, there, rfl⟩)

theorem Kept.drained {round : ExportRound} (at_round : s.phase.round = some round) :
    ∃ drained, s.meter.journal = drained ++ (s.meter.drainThrough round.watermark).journal ∧
      drained <:+ round.events := by
  obtain ⟨⟨before, after, recorded, ends, begins⟩, -, -⟩ := kept.window round at_round
  have numbered : s.meter.totalRecorded = gone.length + s.meter.journal.length := by
    rw [kept.numbered, kept.split, List.length_append]
  refine ⟨s.meter.journal.take (round.watermark - gone.length), ?_, ?_⟩
  · show _ = _ ++ SlotMeter.drainFront _ _ _
    rw [SlotMeter.drainFront_eq round.watermark numbered, List.take_append_drop]
  · -- the journal begins inside the window or behind it
    have journal : s.meter.journal = (round.events ++ after).drop
        (gone.length - before.length) := by
      have same : gone ++ s.meter.journal = before ++ (round.events ++ after) := by
        rw [← kept.split, recorded, List.append_assoc]
      have dropped := congrArg (List.drop gone.length) same
      rw [List.drop_left] at dropped
      rw [dropped, List.drop_append, List.drop_eq_nil_of_le begins, List.nil_append]
    have taken : s.meter.journal.take (round.watermark - gone.length) =
        round.events.drop (gone.length - before.length) := by
      have count : round.watermark - gone.length =
          (round.events.drop (gone.length - before.length)).length := by
        rw [List.length_drop]
        omega
      rw [journal, List.drop_append, count, List.take_left]
    rw [taken]
    exact List.drop_suffix _ _

theorem Kept.drain {round : ExportRound} (at_round : s.phase = .persisted round) :
    ∃ gone', Kept ({ s with meter := s.meter.drainThrough round.watermark }.complete round)
    gone' := by
  have window := kept.window round (congrArg ExportPhase.round at_round)
  obtain ⟨drained, journal, suffix⟩ := kept.drained (congrArg ExportPhase.round at_round)
  -- what is drained is in the sink, so nothing more is missing
  have none_lost : List.countP (fun ev => !s.sink.contains ev) drained = 0 := by
    refine List.countP_eq_zero.mpr fun ev there => ?_
    rw [kept.persisted round at_round ev (suffix.subset there)]
    exact Bool.false_ne_true
  have kept' : Kept { s with meter := s.meter.drainThrough round.watermark, phase := .idle }
      (gone ++ drained) := by
    refine ⟨?_, kept.numbered, ?_, kept.reported, kept.known, nofun, nofun⟩
    · rw [List.append_assoc, ← journal]
      exact kept.split
    · rw [List.countP_append, none_lost]
      exact kept.lost
  exact ⟨_, kept'.complete window.since window.known⟩

/-- **One event keeps it**, as long as the count of events has not reached the largest word. -/
theorem Kept.step (event : ExportEvent)
    (room : (s.step event).recorded.length ≤ Word.maxU64) : ∃ gone', (s.step event).Kept gone' := by
  cases event with
  | record ev =>
    refine kept.record ev ?_
    have grown : (s.recorded ++ [ev]).length ≤ Word.maxU64 := room
    rw [List.length_append, List.length_singleton] at grown
    omega
  | elsewhere events => exact ⟨gone, kept.elsewhere events⟩
  | snapshot =>
    dsimp only [ExportState.step]
    split
    · exact ⟨gone, kept.snapshot⟩
    · exact ⟨gone, kept⟩
  | persist outcome =>
    dsimp only [ExportState.step]
    split
    next round at_round => exact ⟨gone, kept.persist at_round outcome⟩
    · exact ⟨gone, kept⟩
  | drain =>
    dsimp only [ExportState.step]
    split
    next round at_round => exact kept.drain at_round
    · exact ⟨gone, kept⟩

end ExportState

/-! ## The guarantees -/

namespace ExportState

/-- What holds at any time: the journal is the end of what was recorded and its front has the number
`totalRecorded - journal.length`, which is no underflow; and what has left the journal is missing
from the sink at most as often as was dropped. -/
structure Accounts (s : ExportState) : Prop where
  suffix : s.meter.journal <:+ s.recorded
  total : s.meter.totalRecorded = s.recorded.length
  no_underflow : s.meter.journal.length ≤ s.meter.totalRecorded
  numbered : ∀ (i : Nat) (ev : SlotOccupancyEvent), s.meter.journal[i]? = some ev →
    s.recorded[s.meter.totalRecorded - s.meter.journal.length + i]? = some ev
  lost : ((s.recorded.take (s.meter.totalRecorded - s.meter.journal.length)).countP
    fun ev => !s.sink.contains ev) ≤ s.meter.journalDropped
  reported : s.reported.sum = s.prevDropped

/-- The event completes the round: its window is drained, or its persist has failed. -/
def Completes (s : ExportState) (event : ExportEvent) (round : ExportRound) : Prop :=
  s.phase = .persisted round ∧ event = .drain ∨
    s.phase = .snapshotted round ∧ ∃ put, event = .persist (.failed put)

/-- What holds of every event: a drain takes off the journal only the end of a window that the sink
has persisted; a round keeps the look it took at the meter and ends by completing, or by a persist
that panics; it reports when it completes, and the reported deltas sum to the drop count it saw. -/
structure AccountsStep (s : ExportState) (event : ExportEvent) : Prop where
  drained : event = .drain → ∃ drained, s.meter.journal = drained ++ (s.step event).meter.journal ∧
    (drained = [] ∨ ∃ round, s.phase = .persisted round ∧ drained <:+ round.events ∧
      ∀ ev ∈ round.events, s.sink.contains ev = true)
  taken : ∀ round, s.phase.round = none → (s.step event).phase.round = some round →
    round = ⟨s.meter.journal, s.meter.exportWatermark, s.meter.journalDropped⟩
  carried : ∀ round round', s.phase.round = some round → (s.step event).phase.round = some round' →
    round' = round
  ended : ∀ round, s.phase.round = some round → (s.step event).phase.round = none →
    s.Completes event round ∨ ∃ put, event = .persist (.panicked put)
  completed : ∀ round, s.Completes event round → (s.step event).phase = .idle ∧
    (s.step event).reported = s.reported ++ [round.nowDropped - s.prevDropped] ∧
    (s.step event).reported.sum = round.nowDropped
  unreported : (∀ round, ¬ s.Completes event round) → (s.step event).reported = s.reported

variable {s : ExportState} {gone : List SlotOccupancyEvent}

theorem Kept.accounts (kept : s.Kept gone) : s.Accounts := by
  have front : s.meter.totalRecorded - s.meter.journal.length = gone.length := by
    rw [kept.numbered, kept.split, List.length_append, Nat.add_sub_cancel]
  refine ⟨⟨gone, kept.split.symm⟩, kept.numbered, ?_, ?_, ?_, kept.reported⟩
  · rw [kept.numbered, kept.split, List.length_append]
    omega
  · intro i ev at_i
    rw [front, kept.split, List.getElem?_append_right (Nat.le_add_right _ _),
      Nat.add_sub_cancel_left]
    exact at_i
  · rw [front, kept.split, List.take_left]
    exact kept.lost

theorem AccountsStep.of_same {event : ExportEvent}
    (journal : event = .drain → (s.step event).meter.journal = s.meter.journal)
    (phase : (s.step event).phase = s.phase) (reported : (s.step event).reported = s.reported)
    (goes_on : ∀ round, ¬ s.Completes event round) : s.AccountsStep event where
  drained drain := ⟨[], (journal drain).symm, .inl rfl⟩
  taken round before after := by
    rw [phase, before] at after
    cases after
  carried round round' before after := by
    rw [phase, before] at after
    exact (Option.some.inj after).symm
  ended round before after := by
    rw [phase, before] at after
    cases after
  completed round completes := absurd completes (goes_on round)
  unreported _ := reported

theorem Kept.reported_complete (kept : s.Kept gone) {round : ExportRound}
    (since : s.prevDropped ≤ round.nowDropped) :
    (s.complete round).reported.sum = round.nowDropped := by
  show (s.reported ++ [round.nowDropped - s.prevDropped]).sum = round.nowDropped
  rw [List.sum_append, List.sum_singleton, kept.reported]
  omega

theorem Kept.persist_accounts (kept : s.Kept gone) {round : ExportRound}
    (at_phase : s.phase = .snapshotted round) (outcome : PersistOutcome) :
    s.AccountsStep (.persist outcome) := by
  have step : s.step (.persist outcome) = s.persist round outcome := by
    simp only [ExportState.step, at_phase]
  have own : s.phase.round = some round := congrArg ExportPhase.round at_phase
  have completes (other : ExportRound) (h : s.Completes (.persist outcome) other) :
      other = round ∧ ∃ put, outcome = .failed put := by
    rcases h with ⟨-, ⟨⟩⟩ | ⟨there, put, ⟨⟩⟩
    cases at_phase.symm.trans there
    exact ⟨rfl, put, rfl⟩
  refine ⟨nofun, ?_, ?_, ?_, ?_, fun goes_on => ?_⟩
  · intro other before
    nomatch own.symm.trans before
  · intro other other' before after
    cases own.symm.trans before
    rw [step] at after
    cases outcome with
    | ok => exact (Option.some.inj after).symm
    | failed put | panicked put => cases after
  · intro other before after
    cases own.symm.trans before
    rw [step] at after
    cases outcome with
    | ok => nomatch after
    | failed put => exact .inl (.inr ⟨at_phase, put, rfl⟩)
    | panicked put => exact .inr ⟨put, rfl⟩
  · intro other h
    obtain ⟨rfl, put, rfl⟩ := completes other h
    rw [step]
    exact ⟨rfl, rfl, (kept.elsewhere (other.events.take put)).reported_complete
      (kept.window other own).since⟩
  · rw [step]
    cases outcome with
    | ok | panicked put => rfl
    | failed put => exact absurd (.inr ⟨at_phase, put, rfl⟩) (goes_on round)

theorem Kept.drain_accounts (kept : s.Kept gone) {round : ExportRound}
    (at_phase : s.phase = .persisted round) : s.AccountsStep .drain := by
  have step : s.step .drain =
      { s with meter := s.meter.drainThrough round.watermark }.complete round := by
    simp only [ExportState.step, at_phase]
  have own : s.phase.round = some round := congrArg ExportPhase.round at_phase
  refine ⟨fun _ => ?_, ?_, ?_, ?_, ?_, fun goes_on => absurd (.inl ⟨at_phase, rfl⟩) (goes_on round)⟩
  · obtain ⟨drained, journal, suffix⟩ := kept.drained own
    rw [step]
    exact ⟨drained, journal, .inr ⟨round, at_phase, suffix, kept.persisted round at_phase⟩⟩
  · intro other before
    nomatch own.symm.trans before
  · intro other other' _ after
    rw [step] at after
    cases after
  · intro other before _
    cases own.symm.trans before
    exact .inl (.inl ⟨at_phase, rfl⟩)
  · rintro other (⟨there, -⟩ | ⟨-, put, ⟨⟩⟩)
    cases at_phase.symm.trans there
    rw [step]
    exact ⟨rfl, rfl, kept.reported_complete (kept.window round own).since⟩

theorem Kept.accountsStep (kept : s.Kept gone) (event : ExportEvent) : s.AccountsStep event := by
  -- in any other phase the event does nothing
  have idles {event : ExportEvent} (step : s.step event = s)
      (goes_on : ∀ round, ¬ s.Completes event round) : s.AccountsStep event :=
    .of_same (fun _ => by rw [step]) (by rw [step]) (by rw [step]) goes_on
  cases event with
  | record ev => exact .of_same nofun rfl rfl (by rintro round (⟨-, ⟨⟩⟩ | ⟨-, put, ⟨⟩⟩))
  | elsewhere events => exact .of_same nofun rfl rfl (by rintro round (⟨-, ⟨⟩⟩ | ⟨-, put, ⟨⟩⟩))
  | snapshot =>
    have goes_on : ∀ round, ¬ s.Completes .snapshot round := by
      rintro round (⟨-, ⟨⟩⟩ | ⟨-, put, ⟨⟩⟩)
    cases at_phase : s.phase with
    | idle =>
      let look : ExportRound := ⟨s.meter.journal, s.meter.exportWatermark, s.meter.journalDropped⟩
      have step : s.step .snapshot = { s with phase := .snapshotted look } := by
        simp only [ExportState.step, at_phase, look]
      have free : s.phase.round = none := congrArg ExportPhase.round at_phase
      refine ⟨nofun, ?_, ?_, ?_, fun round completes => absurd completes (goes_on round), ?_⟩
      · intro round _ after
        rw [step] at after
        exact (Option.some.inj after).symm
      · intro round round' before
        nomatch free.symm.trans before
      · intro round before
        nomatch free.symm.trans before
      · intro _
        rw [step]
    | snapshotted round | persisted round =>
      exact idles (by simp only [ExportState.step, at_phase]) goes_on
  | persist outcome =>
    cases at_phase : s.phase with
    | idle | persisted round =>
      refine idles (by simp only [ExportState.step, at_phase]) ?_
      rintro other (⟨-, ⟨⟩⟩ | ⟨there, -⟩)
      nomatch at_phase.symm.trans there
    | snapshotted round => exact kept.persist_accounts at_phase outcome
  | drain =>
    cases at_phase : s.phase with
    | idle | snapshotted round =>
      refine idles (by simp only [ExportState.step, at_phase]) ?_
      rintro other (⟨there, -⟩ | ⟨-, put, ⟨⟩⟩)
      nomatch at_phase.symm.trans there
    | persisted round => exact kept.drain_accounts at_phase

theorem recorded_step (s : ExportState) (event : ExportEvent) :
    s.recorded <+: (s.step event).recorded := by
  cases event with
  | record ev => exact List.prefix_append _ _
  | elsewhere events => exact List.prefix_rfl
  | snapshot =>
    dsimp only [ExportState.step]
    split <;> exact List.prefix_rfl
  | persist outcome =>
    dsimp only [ExportState.step]
    split
    · cases outcome <;> exact List.prefix_rfl
    · exact List.prefix_rfl
  | drain =>
    dsimp only [ExportState.step]
    split <;> exact List.prefix_rfl

end ExportState

/-- **Billing export loses nothing silently**: along every run of records and export rounds, up to
the largest word of recorded events. -/
theorem export_accounts (events : List ExportEvent) :
    Along ExportState.step (fun s event => (s.step event).recorded.length ≤ Word.maxU64 →
      (s.step event).Accounts ∧ s.AccountsStep event) ExportState.new events := by
  -- what was recorded only grows, so the bound at one event held at every event before
  have grows : ∀ (s : ExportState) (event : ExportEvent),
      s.recorded.length ≤ (s.step event).recorded.length := fun s event =>
    (s.recorded_step event).length_le
  have along : Along ExportState.step
      (fun s _ => (s.recorded.length ≤ Word.maxU64 → ∃ gone, s.Kept gone) ∧ True)
      ExportState.new events := by
    refine Along.of_invariant _ (fun {s event} keeps _ room => ?_) (fun _ _ => trivial)
      fun _ => ⟨[], .new⟩
    obtain ⟨gone, kept⟩ := keeps (Nat.le_trans (grows s event) room)
    exact kept.step event room
  refine along.mono fun s event keeps room => ?_
  obtain ⟨gone, kept⟩ := keeps.1 (Nat.le_trans (grows s event) room)
  obtain ⟨gone', kept'⟩ := kept.step event room
  exact ⟨kept'.accounts, kept.accountsStep event⟩

/-! ## At the largest word -/

/-- At the largest word every front is below the watermark, so a drain empties the journal. -/
theorem SlotMeter.drainFront_full {total : Nat} (positive : 0 < total)
    (journal : List SlotOccupancyEvent) : SlotMeter.drainFront total total journal = [] := by
  induction journal with
  | nil => rfl
  | cons ev rest ih =>
    have below : total - (ev :: rest).length < total := by
      rw [List.length_cons]
      omega
    unfold SlotMeter.drainFront
    rw [if_pos below]
    exact ih

namespace ExportState

/-- Nothing but `count` events `ev` was recorded, and no round has begun. -/
structure Only (ev : SlotOccupancyEvent) (count : Nat) (s : ExportState) : Prop where
  journal : ∀ other ∈ s.meter.journal, other = ev
  total : s.meter.totalRecorded = min count Word.maxU64
  idle : s.phase = .idle
  sink : s.sink = .new

variable {ev : SlotOccupancyEvent} {count : Nat} {s : ExportState}

theorem Only.record (h : Only ev count s) : Only ev (count + 1) (s.step (.record ev)) := by
  obtain ⟨total, cases⟩ := s.meter.record_cases ev
  refine ⟨?_, ?_, h.idle, h.sink⟩
  · intro other there
    have there : other ∈ (s.meter.record ev).journal := there
    rcases cases with ⟨journal, -⟩ | ⟨oldest, rest, before, journal, -⟩
    · rw [journal, List.mem_append, List.mem_singleton] at there
      exact there.elim (h.journal other) id
    · rw [journal, List.mem_append, List.mem_singleton] at there
      rcases there with old | new
      · refine h.journal other ?_
        rw [before]
        exact List.mem_cons_of_mem _ old
      · exact new
  · show (s.meter.record ev).totalRecorded = _
    rw [total, h.total]
    unfold Word.satAdd
    omega

theorem Only.records (n : Nat) (h : Only ev count s) :
    Only ev (count + n) ((List.replicate n (.record ev)).foldl ExportState.step s) := by
  induction n generalizing count s with
  | zero => exact h
  | succ n ih =>
    rw [List.replicate_succ, List.foldl_cons]
    have next := ih h.record
    rwa [Nat.add_assoc, Nat.add_comm 1] at next

/-- Once the count stands at the largest word, a drain takes off an event recorded after the look at
the meter. -/
theorem Only.overdrains {late : SlotOccupancyEvent} (h : Only ev Word.maxU64 s)
    (apart : eventKey late ≠ eventKey ev) :
    let before := [.snapshot, .record late, .persist .ok].foldl ExportState.step s
    ∃ round, before.phase = .persisted round ∧ late ∈ before.meter.journal ∧ late ∉ round.events ∧
      before.sink.contains late = false ∧ late ∉ (before.step .drain).meter.journal := by
  let look : ExportRound := ⟨s.meter.journal, s.meter.exportWatermark, s.meter.journalDropped⟩
  have full : s.meter.totalRecorded = Word.maxU64 := h.total.trans (Nat.min_self _)
  have state : [.snapshot, .record late, .persist .ok].foldl ExportState.step s =
      { s with
        meter := s.meter.record late
        recorded := s.recorded ++ [late]
        sink := (s.sink.persist look.events).2
        phase := .persisted look } := by
    simp only [List.foldl_cons, List.foldl_nil, ExportState.step, h.idle, ExportState.persist, look]
  rw [state]
  refine ⟨look, rfl, ?_, ?_, ?_, ?_⟩
  · show late ∈ (s.meter.record late).journal
    rcases (s.meter.record_cases late).2 with ⟨journal, -⟩ | ⟨oldest, rest, -, journal, -⟩
    · rw [journal]
      exact List.mem_append_right _ List.mem_cons_self
    · rw [journal]
      exact List.mem_append_right _ List.mem_cons_self
  · intro there
    exact apart (congrArg eventKey (h.journal late there))
  · rw [Bool.eq_false_iff]
    intro there
    rcases (s.sink.contains_persist _ late).mp there with ⟨other, mem, same⟩ | old
    · rw [h.journal other mem] at same
      exact apart same
    · rw [h.sink] at old
      simp [MemBillingSink.contains, MemBillingSink.new] at old
  · show late ∉ SlotMeter.drainFront (s.meter.record late).totalRecorded s.meter.totalRecorded
      (s.meter.record late).journal
    have total : (s.meter.record late).totalRecorded = Word.maxU64 := by
      rw [(s.meter.record_cases late).1, full]
      decide
    rw [total, full, SlotMeter.drainFront_full (by decide)]
    exact List.not_mem_nil

end ExportState

def meteredTenant : TenantId := ⟨"acme", by decide, by decide⟩

def firstAcquired : SlotOccupancyEvent := ⟨meteredTenant, "l1", .acquired, 1000, none⟩

def lateAcquired : SlotOccupancyEvent := ⟨meteredTenant, "l2", .acquired, 2000, none⟩

/-- The largest word of events, then a round that persists its window, with one event recorded
meanwhile. -/
def saturated : ExportState :=
  [.snapshot, .record lateAcquired, .persist .ok].foldl ExportState.step
    ((List.replicate Word.maxU64 (.record firstAcquired)).foldl ExportState.step ExportState.new)

/-- The drain takes off the event that was recorded meanwhile, which is in no window and not in the
sink. -/
theorem saturated_drain : ∃ round, saturated.phase = .persisted round ∧
    lateAcquired ∈ saturated.meter.journal ∧ lateAcquired ∉ round.events ∧
    saturated.sink.contains lateAcquired = false ∧
    lateAcquired ∉ (saturated.step .drain).meter.journal := by
  have start : ExportState.Only firstAcquired 0 ExportState.new := ⟨nofun, rfl, rfl, rfl⟩
  have full := start.records Word.maxU64
  rw [Nat.zero_add] at full
  unfold saturated
  generalize (List.replicate Word.maxU64 (ExportEvent.record firstAcquired)).foldl ExportState.step
    ExportState.new = s at full ⊢
  exact full.overdrains (by decide)

end CorelinkRunners
