import CorelinkRunners.Envelope.Hook
import CorelinkRunners.Kit.Run

/-!
# Writers, drainers, ackers and closers of one hook

Any number of handles use a hook at once. A `HookEvent` is one critical section of one of them, so a
run is an interleaving of all. The history keeps each event with what it answered: what was
captured, what was drained, which close succeeded and what the subscribers saw are read off it.

The invariant `Kept` ties the history to the shared state.
-/

namespace CorelinkRunners.Envelope

open Kit

/-! ## Events and answers -/

inductive HookEvent
  | completeOpen (now : Instant)
  | write (ev : TranscriptEvent) (now : Instant)
  | subscribe (j : Nat) (credential : Bytes)
  | nextEvent (j : Nat)
  | nextMeta (j : Nat)
  | waitCloseSignal (j : Nat)
  | ack (j : Nat) (credential : Bytes)
  | closeBegin (i : Nat) (status : JobStatus) (died : Instant) (price : PriceCard)
  /-- The wait of the close is over: it was acknowledged, or the window has passed. -/
  | closeEnd (i : Nat)
  | closeAbnormal (kind : AbnormalKind) (died : Instant) (price : PriceCard)

inductive HookAnswer
  | unit (answer : Result Unit)
  | drained (bytes : Option Bytes)
  | drainedMeta (entry : Option TurnMeta)
  | signal (signal : Option CloseSignal)
  | begun (metrics : Result IntentMetrics)
  | closed (outcome : Result CloseOutcome)
  | absent

abbrev HookEntry : Type := HookEvent × HookAnswer

/-- A hook with its subscribers, the closes that wait, and what has happened. -/
structure HookRun where
  inner : Inner
  subscribers : Nat → Bool
  closers : Nat → Option (JobStatus × IntentMetrics)
  history : List HookEntry

namespace HookRun

variable (s : HookRun)

def new (inner : Inner) : HookRun := ⟨inner, fun _ => false, fun _ => none, []⟩

def note (event : HookEvent) (answer : HookAnswer) (inner : Inner) : HookRun :=
  { s with inner, history := s.history ++ [(event, answer)] }

def step : HookEvent → HookRun
  | .completeOpen now => s.note (.completeOpen now) (.unit (.ok ())) (s.inner.completeOpen now)
  | .write ev now => s.note (.write ev now) (.unit (s.inner.write ev now).1)
      (s.inner.write ev now).2
  | .subscribe j credential =>
    let answer := s.inner.subscribe credential
    { s.note (.subscribe j credential) (.unit answer) s.inner with
      subscribers := fun k => if k = j then answer.isOk || s.subscribers j else s.subscribers k }
  | .nextEvent j =>
    if s.subscribers j then s.note (.nextEvent j) (.drained s.inner.nextEvent.1) s.inner.nextEvent.2
    else s.note (.nextEvent j) .absent s.inner
  | .nextMeta j =>
    if s.subscribers j then s.note (.nextMeta j) (.drainedMeta s.inner.nextMeta.1)
      s.inner.nextMeta.2
    else s.note (.nextMeta j) .absent s.inner
  | .waitCloseSignal j =>
    if s.subscribers j then s.note (.waitCloseSignal j) (.signal s.inner.closeSignal) s.inner
    else s.note (.waitCloseSignal j) .absent s.inner
  | .ack j credential =>
    if s.subscribers j then
      s.note (.ack j credential) (.unit (s.inner.ack credential).1) (s.inner.ack credential).2
    else s.note (.ack j credential) .absent s.inner
  | .closeBegin i status died price =>
    match s.closers i with
    | some _ => s.note (.closeBegin i status died price) .absent s.inner
    | none =>
      let (answer, inner) := s.inner.closeBegin status died price
      { s.note (.closeBegin i status died price) (.begun answer) inner with
        closers := fun k => if k = i then answer.toOption.map fun m => (status, m)
          else s.closers k }
  | .closeEnd i =>
    match s.closers i with
    | none => s.note (.closeEnd i) .absent s.inner
    | some (status, metrics) =>
      let (outcome, inner) := s.inner.closeEnd status metrics
      { s.note (.closeEnd i) (.closed (.ok outcome)) inner with
        closers := fun k => if k = i then none else s.closers k }
  | .closeAbnormal kind died price =>
    let (answer, inner) := s.inner.closeAbnormal kind died price
    s.note (.closeAbnormal kind died price) (.closed answer) inner

end HookRun

/-! ## What a history says -/

def HookEntry.accepted? : HookEntry → Option Bytes
  | (.write ev _, .unit (.ok ())) => some ev.bytes
  | _ => none

def HookEntry.drained? : HookEntry → Option Bytes
  | (_, .drained bytes) => bytes
  | _ => none

def HookEntry.drainedMeta? : HookEntry → Option TurnMeta
  | (_, .drainedMeta entry) => entry
  | _ => none

def HookEntry.outcome? : HookEntry → Option CloseOutcome
  | (_, .closed (.ok outcome)) => some outcome
  | _ => none

def HookEntry.signal? : HookEntry → Option CloseSignal
  | (_, .signal signal) => signal
  | _ => none

def HookEntry.closes : HookEntry → Bool
  | (_, .begun _) | (.closeAbnormal .., _) => true
  | _ => false

def HookEntry.publishes : HookEntry → Bool
  | (_, .begun (.ok _)) => true
  | _ => false

def HookEntry.acks (credential : Bytes) : HookEntry → Bool
  | (.ack _ presented, .unit (.ok ())) => presented = credential
  | _ => false

open HookEntry

def accepted (history : List HookEntry) : List Bytes := history.filterMap accepted?

def drained (history : List HookEntry) : List Bytes := history.filterMap drained?

def drainedMeta (history : List HookEntry) : List TurnMeta :=
  history.filterMap drainedMeta?

def outcomes (history : List HookEntry) : List CloseOutcome := history.filterMap outcome?

def signals (history : List HookEntry) : List CloseSignal := history.filterMap signal?

/-- The signal was published and acknowledged with the credential after that. -/
def AckedSince (credential : Bytes) (history : List HookEntry) : Prop :=
  ∃ published acked : HookEntry, published.publishes = true ∧ acked.acks credential = true ∧
    [published, acked].Sublist history

/-- What a close that claims complete capture finds in the history before it. -/
def CompleteAt (credential : Bytes) (before : List HookEntry) (entry : HookEntry) : Prop :=
  ∀ outcome, entry.outcome? = some outcome → outcome.captureIncomplete = false →
    drained before = accepted before ∧ (drainedMeta before).length = (accepted before).length ∧
      AckedSince credential before

/-! ## The surfaces -/

/-- As long as nothing was dropped, what was accepted is what was drained and what is still
there. -/
structure Captured (inner : Inner) (history : List HookEntry) : Prop where
  raw : inner.rawOverflow = false → accepted history = drained history ++ inner.raw
  meta_ : inner.metaOverflow = false →
    (accepted history).length = (drainedMeta history).length + inner.meta_.length

namespace Captured

variable {inner inner' : Inner} {history : List HookEntry}

theorem quiet (captured : Captured inner history) {entry : HookEntry}
    (noWrite : entry.accepted? = none) (noDrain : entry.drained? = none)
    (noMeta : entry.drainedMeta? = none) (raw : inner'.raw = inner.raw)
    (meta_ : inner'.meta_ = inner.meta_) (rawOverflow : inner'.rawOverflow = inner.rawOverflow)
    (metaOverflow : inner'.metaOverflow = inner.metaOverflow) :
    Captured inner' (history ++ [entry]) where
  raw none_lost := by
    simp only [accepted, drained, List.filterMap_append, List.filterMap_cons, noWrite, noDrain,
      List.filterMap_nil, List.append_nil, raw]
    exact captured.raw (rawOverflow ▸ none_lost)
  meta_ none_lost := by
    simp only [accepted, drainedMeta, List.filterMap_append, List.filterMap_cons, noWrite, noMeta,
      List.filterMap_nil, List.append_nil, meta_]
    exact captured.meta_ (metaOverflow ▸ none_lost)

theorem write (captured : Captured inner history) (ev : TranscriptEvent) (now : Instant) :
    Captured (inner.write ev now).2
      (history ++ [(.write ev now, .unit (inner.write ev now).1)]) := by
  unfold Inner.write
  cases phase : inner.phase with
  | notOpen => exact captured.quiet rfl rfl rfl rfl rfl rfl rfl
  | closed => exact captured.quiet rfl rfl rfl rfl rfl rfl rfl
  | open_ =>
    refine ⟨fun none_lost => ?_, fun none_lost => ?_⟩
    · obtain ⟨before, raw⟩ := Inner.pushRaw_kept (Inner.pushMeta_rawOverflow.symm.trans none_lost)
      simp only [accepted, drained, List.filterMap_append, List.filterMap_cons, accepted?,
        drained?, List.filterMap_nil, List.append_nil, Inner.pushMeta_raw, raw]
      rw [← List.append_assoc]
      exact congrArg (· ++ _) (captured.raw before)
    · obtain ⟨before, meta_⟩ := Inner.pushMeta_kept none_lost
      rw [Inner.pushRaw_metaOverflow] at before
      have count := captured.meta_ before
      simp only [accepted, drainedMeta, List.filterMap_append, List.filterMap_cons,
        accepted?, drainedMeta?, List.filterMap_nil, List.append_nil,
        List.length_append, List.length_singleton, meta_, Inner.pushRaw_meta_] at count ⊢
      omega

theorem nextEvent (captured : Captured inner history) (j : Nat) :
    Captured inner.nextEvent.2 (history ++ [(.nextEvent j, .drained inner.nextEvent.1)]) where
  raw none_lost := by
    have before := captured.raw none_lost
    simp only [accepted, drained, List.filterMap_append, List.filterMap_cons, accepted?,
      drained?, List.filterMap_nil, List.append_nil, Inner.nextEvent] at before ⊢
    cases front : inner.raw with
    | nil => simpa [front] using before
    | cons bytes rest => simpa [front] using before
  meta_ none_lost := by
    simp only [accepted, drainedMeta, List.filterMap_append, List.filterMap_cons,
      accepted?, drainedMeta?, List.filterMap_nil, List.append_nil]
    exact captured.meta_ none_lost

theorem nextMeta (captured : Captured inner history) (j : Nat) :
    Captured inner.nextMeta.2 (history ++ [(.nextMeta j, .drainedMeta inner.nextMeta.1)]) where
  raw none_lost := by
    simp only [accepted, drained, List.filterMap_append, List.filterMap_cons, accepted?,
      drained?, List.filterMap_nil, List.append_nil]
    exact captured.raw none_lost
  meta_ none_lost := by
    have before := captured.meta_ none_lost
    simp only [accepted, drainedMeta, List.filterMap_append, List.filterMap_cons,
      accepted?, drainedMeta?, List.filterMap_nil, List.append_nil,
      Inner.nextMeta] at before ⊢
    cases front : inner.meta_ with
    | nil => simpa [front] using before
    | cons entry rest =>
      rw [front, List.length_cons] at before
      simp only [List.head?_cons, List.length_append, List.length_singleton, List.tail_cons]
      omega

end Captured

/-! ## The close -/

inductive CloseStage (credential : Bytes) (s : HookRun) : Prop
  | before (signal : s.inner.closeSignal = none) (done : s.inner.closeDone = false)
      (closers : ∀ i, s.closers i = none) (acked : s.inner.acked = false)
      (none_yet : outcomes s.history = []) (unseen : signals s.history = [])
      (window : s.inner.ackWindowOpen = false)
  | waiting (i : Nat) (sig : CloseSignal) (signal : s.inner.closeSignal = some sig)
      (done : s.inner.closeDone = false) (closed : s.inner.phase = .closed)
      (closers : s.closers = fun k => if k = i then some (sig.status, sig.metrics) else none)
      (acked : s.inner.acked = true → AckedSince credential s.history)
      (published : ∃ entry ∈ s.history, publishes entry = true)
      (none_yet : outcomes s.history = []) (seen : ∀ handed ∈ signals s.history, handed = sig)
  | settled (sig : CloseSignal) (outcome : CloseOutcome) (signal : s.inner.closeSignal = some sig)
      (done : s.inner.closeDone = true) (closed : s.inner.phase = .closed)
      (closers : ∀ i, s.closers i = none) (window : s.inner.ackWindowOpen = false)
      (one : outcomes s.history = [outcome]) (status : outcome.status = sig.status)
      (metrics : outcome.metrics = sig.metrics) (seen : ∀ handed ∈ signals s.history, handed = sig)

/-- **What every event keeps.** -/
structure Kept (credential : Bytes) (s : HookRun) : Prop where
  expected : s.inner.expectedCredential = credential
  captured : Captured s.inner s.history
  /-- Nothing is accepted after a close began. -/
  ended : s.history.Pairwise fun earlier later =>
    earlier.closes = true → accepted? later = none
  phase : ∀ entry ∈ s.history, closes entry = true → s.inner.phase = .closed
  stage : CloseStage credential s
  complete : Traced (CompleteAt credential) s.history

namespace AckedSince

variable {credential : Bytes} {history : List HookEntry}

theorem grow (h : AckedSince credential history) (entry : HookEntry) :
    AckedSince credential (history ++ [entry]) := by
  obtain ⟨published, acked, publishes, acks, order⟩ := h
  exact ⟨published, acked, publishes, acks, order.trans (List.sublist_append_left ..)⟩

theorem of_ack {published acked : HookEntry} (there : published ∈ history)
    (publishes : published.publishes = true) (acks : acked.acks credential = true) :
    AckedSince credential (history ++ [acked]) := by
  have order : [published, acked].Sublist (history ++ [acked]) :=
    (List.singleton_sublist.mpr there).append_right [acked]
  exact ⟨published, acked, publishes, acks, order⟩

end AckedSince

theorem outcomes_snoc (history : List HookEntry) (entry : HookEntry) :
    outcomes (history ++ [entry]) = outcomes history ++ entry.outcome?.toList := by
  cases h : entry.outcome? <;> simp [outcomes, List.filterMap_append, h]

theorem signals_snoc (history : List HookEntry) (entry : HookEntry) :
    signals (history ++ [entry]) = signals history ++ entry.signal?.toList := by
  cases h : entry.signal? <;> simp [signals, List.filterMap_append, h]

namespace Kept

variable {credential : Bytes} {s s' : HookRun} {entry : HookEntry}

theorem ended_snoc (kept : Kept credential s)
    (late : s.inner.phase = .closed → entry.accepted? = none) :
    (s.history ++ [entry]).Pairwise fun earlier later =>
      earlier.closes = true → accepted? later = none := by
  refine List.pairwise_append.mpr ⟨kept.ended, List.pairwise_singleton .., ?_⟩
  intro earlier there later last closes
  rw [List.mem_singleton.mp last]
  exact late (kept.phase earlier there closes)

theorem phase_snoc (kept : Kept credential s) (noClose : entry.closes = false)
    (closed : s.inner.phase = .closed → s'.inner.phase = .closed) :
    ∀ found ∈ s.history ++ [entry], closes found = true → s'.inner.phase = .closed := by
  intro found there closes
  rcases List.mem_append.mp there with old | new
  · exact closed (kept.phase found old closes)
  · rw [List.mem_singleton.mp new, noClose] at closes
    nomatch closes

structure Leaves (s s' : HookRun) (entry : HookEntry) : Prop where
  history : s'.history = s.history ++ [entry]
  closers : s'.closers = s.closers
  expected : s'.inner.expectedCredential = s.inner.expectedCredential
  closeSignal : s'.inner.closeSignal = s.inner.closeSignal
  ackWindowOpen : s'.inner.ackWindowOpen = s.inner.ackWindowOpen
  acked : s'.inner.acked = s.inner.acked
  closeDone : s'.inner.closeDone = s.inner.closeDone
  phase : s.inner.phase = .closed → s'.inner.phase = .closed
  noClose : entry.closes = false
  noOutcome : entry.outcome? = none
  handed : ∀ sig, entry.signal? = some sig → s.inner.closeSignal = some sig
  late : s.inner.phase = .closed → entry.accepted? = none

section

variable (kept : Kept credential s)
include kept

theorem stage_of_leaves (leaves : Leaves s s' entry) : CloseStage credential s' := by
  have outcomes_same : outcomes s'.history = outcomes s.history := by
    rw [leaves.history, outcomes_snoc, leaves.noOutcome, Option.toList_none, List.append_nil]
  have handed : ∀ found ∈ signals s'.history,
      found ∈ signals s.history ∨ s.inner.closeSignal = some found := by
    intro found there
    rw [leaves.history, signals_snoc] at there
    exact (List.mem_append.mp there).imp id fun new => leaves.handed found
      (Option.mem_toList.mp new)
  cases kept.stage with
  | before signal done closers acked none_yet unseen window =>
    refine .before (leaves.closeSignal.trans signal) (leaves.closeDone.trans done) (fun i => ?_)
      (leaves.acked.trans acked) (outcomes_same.trans none_yet)
      (List.eq_nil_iff_forall_not_mem.mpr fun found there => ?_) (leaves.ackWindowOpen.trans window)
    · rw [leaves.closers, closers i]
    · rcases handed found there with old | now
      · exact absurd old (unseen ▸ List.not_mem_nil)
      · nomatch signal.symm.trans now
  | waiting i sig signal done closed closers acked published none_yet seen =>
    refine .waiting i sig (leaves.closeSignal.trans signal) (leaves.closeDone.trans done)
      (leaves.phase closed) (leaves.closers.trans closers) (fun now => ?_) ?_
      (outcomes_same.trans none_yet) fun found there => ?_
    · rw [leaves.history]
      exact (acked (leaves.acked.symm.trans now)).grow entry
    · obtain ⟨first, there, publishes⟩ := published
      exact ⟨first, leaves.history ▸ List.mem_append_left _ there, publishes⟩
    · rcases handed found there with old | now
      · exact seen found old
      · exact (Option.some.inj (signal.symm.trans now)).symm
  | settled sig outcome signal done closed closers window one status metrics seen =>
    refine .settled sig outcome (leaves.closeSignal.trans signal) (leaves.closeDone.trans done)
      (leaves.phase closed) (fun i => ?_) (leaves.ackWindowOpen.trans window)
      (outcomes_same.trans one) status metrics fun found there => ?_
    · rw [leaves.closers, closers i]
    · rcases handed found there with old | now
      · exact seen found old
      · exact (Option.some.inj (signal.symm.trans now)).symm

/-- **An event that does not touch the close.** -/
theorem leave (leaves : Leaves s s' entry)
    (captured : Captured s'.inner s'.history) : Kept credential s' where
  expected := leaves.expected.trans kept.expected
  captured := captured
  ended := leaves.history ▸ kept.ended_snoc leaves.late
  phase := leaves.history ▸ kept.phase_snoc leaves.noClose leaves.phase
  stage := kept.stage_of_leaves leaves
  complete := by
    rw [leaves.history]
    refine kept.complete.snoc fun outcome ends => ?_
    rw [leaves.noOutcome] at ends
    nomatch ends

variable {event : HookEvent} {answer : HookAnswer}

theorem noted (noWrite : accepted? (event, answer) = none)
    (noDrain : drained? (event, answer) = none)
    (noMeta : drainedMeta? (event, answer) = none)
    (noClose : closes (event, answer) = false)
    (noOutcome : outcome? (event, answer) = none)
    (handed : ∀ sig, signal? (event, answer) = some sig →
      s.inner.closeSignal = some sig) : Kept credential (s.note event answer s.inner) :=
  kept.leave ⟨rfl, rfl, rfl, rfl, rfl, rfl, rfl, id, noClose, noOutcome, handed, fun _ => noWrite⟩
    (kept.captured.quiet noWrite noDrain noMeta rfl rfl rfl rfl)

theorem absent (noClose : closes (event, .absent) = false) :
    Kept credential (s.note event .absent s.inner) := by
  refine kept.noted ?_ rfl rfl noClose rfl nofun
  cases event <;> rfl

theorem completeOpen (now : Instant) : Kept credential (s.step (.completeOpen now)) := by
  have leaves : Leaves s (s.step (.completeOpen now)) (.completeOpen now, .unit (.ok ())) := by
    refine ⟨rfl, rfl, ?_, ?_, ?_, ?_, ?_, fun closed => ?_, rfl, rfl, nofun, fun _ => rfl⟩ <;>
      simp only [HookRun.step, HookRun.note, Inner.completeOpen]
    case refine_6 => rw [if_neg (by simp [closed]), closed]
    all_goals split <;> rfl
  refine kept.leave leaves (kept.captured.quiet rfl rfl rfl ?_ ?_ ?_ ?_)
  all_goals
    simp only [HookRun.step, HookRun.note, Inner.completeOpen]
    split <;> rfl

theorem write (ev : TranscriptEvent) (now : Instant) :
    Kept credential (s.step (.write ev now)) := by
  have same := s.inner.write_sameClose ev now
  have late : s.inner.phase = .closed →
      accepted? (.write ev now, .unit (s.inner.write ev now).1) = none := by
    intro closed
    simp only [Inner.write, closed]
    rfl
  exact kept.leave ⟨rfl, rfl, same.expectedCredential, same.closeSignal, same.ackWindowOpen,
    same.acked, same.closeDone, same.phase.trans, rfl, rfl, nofun, late⟩
    (kept.captured.write ev now)

theorem ack (j : Nat) (presented : Bytes) :
    Kept credential (s.note (.ack j presented) (.unit (s.inner.ack presented).1)
      (s.inner.ack presented).2) := by
  unfold Inner.ack
  split
  · exact kept.noted rfl rfl rfl rfl rfl nofun
  next valid =>
    split
    · exact kept.noted rfl rfl rfl rfl rfl nofun
    next there =>
      split
      · exact kept.noted rfl rfl rfl rfl rfl nofun
      next window =>
        simp only [Bool.not_eq_true', Bool.not_eq_false] at valid window
        have same : presented = credential :=
          (credentialMatches_iff.mp valid).symm.trans kept.expected
        refine ⟨kept.expected, kept.captured.quiet rfl rfl rfl rfl rfl rfl rfl,
          kept.ended_snoc fun _ => rfl, kept.phase_snoc rfl id, ?_,
          kept.complete.snoc fun _ ends => nomatch ends⟩
        cases kept.stage with
        | before signal => exact absurd (by rw [signal]; rfl) there
        | settled sig outcome signal done closed closers shut => nomatch window.symm.trans shut
        | waiting i sig signal done closed closers acked published none_yet seen =>
          obtain ⟨first, mem, publishes⟩ := published
          refine .waiting i sig signal done closed closers (fun _ => ?_)
            ⟨first, List.mem_append_left _ mem, publishes⟩ ?_ ?_
          · exact .of_ack mem publishes (decide_eq_true same)
          · rw [HookRun.note, outcomes_snoc, none_yet]
            rfl
          · intro handed mem
            rw [HookRun.note, signals_snoc] at mem
            exact seen handed (by simpa [signal?] using mem)

theorem begun (s' : HookRun) (noWrite : entry.accepted? = none)
    (history : s'.history = s.history ++ [entry]) (closed : s'.inner.phase = .closed) :
    (s'.history.Pairwise fun earlier later =>
        earlier.closes = true → accepted? later = none) ∧
      ∀ found ∈ s'.history, closes found = true → s'.inner.phase = .closed :=
  ⟨history ▸ kept.ended_snoc fun _ => noWrite, fun _ _ _ => closed⟩

theorem signalled_of (signalled : s.inner.signalled = true) : s.inner.phase = .closed := by
  cases kept.stage with
  | before signal done => simp [Inner.signalled, signal, done] at signalled
  | waiting i sig signal done closed => exact closed
  | settled sig outcome signal done closed => exact closed

theorem refused (signalled : s.inner.signalled = true)
    (noWrite : accepted? (event, answer) = none)
    (noDrain : drained? (event, answer) = none)
    (noMeta : drainedMeta? (event, answer) = none)
    (noOutcome : outcome? (event, answer) = none)
    (noSignal : signal? (event, answer) = none) :
    Kept credential (s.note event answer s.inner) := by
  obtain ⟨ended, phase⟩ := kept.begun (s.note event answer s.inner) noWrite rfl
    (kept.signalled_of signalled)
  refine ⟨kept.expected, kept.captured.quiet noWrite noDrain noMeta rfl rfl rfl rfl, ended, phase,
    ?_, kept.complete.snoc fun outcome ends => nomatch noOutcome.symm.trans ends⟩
  have outcomes_same : outcomes (s.note event answer s.inner).history = outcomes s.history := by
    rw [HookRun.note, outcomes_snoc, noOutcome, Option.toList_none, List.append_nil]
  have signals_same : signals (s.note event answer s.inner).history = signals s.history := by
    rw [HookRun.note, signals_snoc, noSignal, Option.toList_none, List.append_nil]
  cases kept.stage with
  | before signal done => simp [Inner.signalled, signal, done] at signalled
  | waiting i sig signal done closed closers acked published none_yet seen =>
    obtain ⟨first, there, publishes⟩ := published
    exact .waiting i sig signal done closed closers (fun now => (acked now).grow _)
      ⟨first, List.mem_append_left _ there, publishes⟩ (outcomes_same.trans none_yet)
      (signals_same ▸ seen)
  | settled sig outcome signal done closed closers window one status metrics seen =>
    exact .settled sig outcome signal done closed closers window (outcomes_same.trans one) status
      metrics (signals_same ▸ seen)

theorem first_close (free : s.inner.signalled = false) :
    s.inner.closeSignal = none ∧ s.inner.closeDone = false ∧ (∀ i, s.closers i = none) ∧
      s.inner.acked = false ∧ (∀ e, outcomes (s.history ++ [e]) = e.outcome?.toList) ∧
      (∀ e, signals (s.history ++ [e]) = e.signal?.toList) ∧ s.inner.ackWindowOpen = false := by
  cases kept.stage with
  | before signal done closers acked none_yet unseen window =>
    refine ⟨signal, done, closers, acked, fun e => ?_, fun e => ?_, window⟩
    · rw [outcomes_snoc, none_yet, List.nil_append]
    · rw [signals_snoc, unseen, List.nil_append]
  | waiting i sig signal => simp [Inner.signalled, signal] at free
  | settled sig outcome signal => simp [Inner.signalled, signal] at free

theorem closeBegin (i : Nat) (status : JobStatus) (died : Instant)
    (price : PriceCard) : Kept credential (s.step (.closeBegin i status died price)) := by
  simp only [HookRun.step]
  cases idle : s.closers i with
  | some at_work => exact kept.absent rfl
  | none =>
    simp only [Inner.closeBegin]
    cases signalled : s.inner.signalled with
    | true =>
      have closers : (fun k => if k = i then none else s.closers k) = s.closers := by
        funext k
        split
        next same => rw [same, idle]
        · rfl
      simp only [if_true, Except.toOption, Option.map_none, closers]
      exact kept.refused signalled rfl rfl rfl rfl rfl
    | false =>
      obtain ⟨signal, done, closers, acked, none_yet, unseen, window⟩ :=
        kept.first_close signalled
      simp only [Bool.false_eq_true, if_false, Inner.finalize]
      cases s.inner.collector.finalize died price with
      | mk answer collector =>
        cases answer with
        | error e =>
          -- a collector that was finalized before: the surfaces close, and no close ever succeeds
          refine ⟨kept.expected, kept.captured.quiet rfl rfl rfl rfl rfl rfl rfl,
            kept.ended_snoc fun _ => rfl, fun _ _ _ => rfl, .before signal done (fun k => ?_) acked
              (none_yet _) (unseen _) window, kept.complete.snoc fun _ ends => nomatch ends⟩
          simp only [Except.toOption, Option.map_none, closers, ite_self]
        | ok metrics =>
          refine ⟨kept.expected, kept.captured.quiet rfl rfl rfl rfl rfl rfl rfl,
            kept.ended_snoc fun _ => rfl, fun _ _ _ => rfl,
            .waiting i ⟨status, metrics⟩ rfl done rfl ?_ (fun now => nomatch acked.symm.trans now)
              ⟨_, List.mem_append_right _ (List.mem_singleton.mpr rfl), rfl⟩ (none_yet _) ?_,
            kept.complete.snoc fun _ ends => nomatch ends⟩
          · simp only [Except.toOption, Option.map_some, closers]
          · rw [HookRun.note, unseen]
            nofun

/-- **The end of a normal close.** What it says about the capture is read off the surfaces. -/
theorem closeEnd (i : Nat) : Kept credential (s.step (.closeEnd i)) := by
  simp only [HookRun.step]
  cases at_work : s.closers i with
  | none => exact kept.absent rfl
  | some close =>
    cases kept.stage with
    | before signal done closers => nomatch (closers i).symm.trans at_work
    | settled sig outcome signal done closed closers => nomatch (closers i).symm.trans at_work
    | waiting k sig signal done closed closers acked published none_yet seen =>
      have mine : i = k ∧ close = (sig.status, sig.metrics) := by
        simp only [closers] at at_work
        split at at_work
        next same => exact ⟨same, (Option.some.inj at_work).symm⟩
        · nomatch at_work
      obtain ⟨rfl, rfl⟩ := mine
      dsimp only
      refine ⟨kept.expected, kept.captured.quiet rfl rfl rfl rfl rfl rfl rfl,
        kept.ended_snoc fun _ => rfl, kept.phase_snoc rfl id, ?_, kept.complete.snoc ?_⟩
      · refine .settled sig (s.inner.closeEnd sig.status sig.metrics).1 signal rfl closed
          (fun j => ?_) rfl ?_ rfl rfl ?_
        · simp only [closers]
          split <;> rfl
        · rw [HookRun.note, outcomes_snoc, none_yet]
          rfl
        · intro handed there
          rw [HookRun.note, signals_snoc] at there
          exact seen handed (by simpa [signal?] using there)
      · intro outcome ends claims
        cases ends
        simp only [Inner.closeEnd, Bool.or_eq_false_iff, Bool.not_eq_false', List.isEmpty_iff]
          at claims
        obtain ⟨⟨⟨⟨raw, meta_⟩, rawOverflow⟩, metaOverflow⟩, was_acked⟩ := claims
        refine ⟨?_, ?_, acked was_acked⟩
        · rw [kept.captured.raw rawOverflow, raw, List.append_nil]
        · rw [kept.captured.meta_ metaOverflow, meta_, List.length_nil, Nat.add_zero]

theorem closeAbnormal (kind : AbnormalKind) (died : Instant)
    (price : PriceCard) : Kept credential (s.step (.closeAbnormal kind died price)) := by
  simp only [HookRun.step, Inner.closeAbnormal]
  cases signalled : s.inner.signalled with
  | true =>
    exact kept.refused signalled rfl rfl rfl rfl rfl
  | false =>
    obtain ⟨signal, done, closers, acked, none_yet, unseen, window⟩ := kept.first_close signalled
    simp only [Bool.false_eq_true, if_false, Inner.finalize]
    cases s.inner.collector.finalize died price with
    | mk answer collector =>
      cases answer with
      | error e =>
        exact ⟨kept.expected, kept.captured.quiet rfl rfl rfl rfl rfl rfl rfl,
          kept.ended_snoc fun _ => rfl, fun _ _ _ => rfl, .before signal done closers acked
            (none_yet _) (unseen _) window, kept.complete.snoc fun _ ends => nomatch ends⟩
      | ok metrics =>
        refine ⟨kept.expected, kept.captured.quiet rfl rfl rfl rfl rfl rfl rfl,
          kept.ended_snoc fun _ => rfl, fun _ _ _ => rfl,
          .settled ⟨kind.status, metrics⟩ ⟨kind.status, metrics, true, kind.reason⟩ rfl rfl rfl
            closers window (none_yet _) rfl rfl ?_, kept.complete.snoc fun outcome ends claims =>
            ?_⟩
        · rw [HookRun.note, unseen]
          nofun
        · cases ends
          nomatch claims

/-- **One event keeps the invariant.** -/
theorem step (event : HookEvent) : Kept credential (s.step event) := by
  cases event with
  | completeOpen now => exact kept.completeOpen now
  | write ev now => exact kept.write ev now
  | subscribe j presented =>
    exact kept.leave ⟨rfl, rfl, rfl, rfl, rfl, rfl, rfl, id, rfl, rfl, nofun, fun _ => rfl⟩
      (kept.captured.quiet rfl rfl rfl rfl rfl rfl rfl)
  | nextEvent j =>
    simp only [HookRun.step]
    split
    · exact kept.leave ⟨rfl, rfl, rfl, rfl, rfl, rfl, rfl, id, rfl, rfl, nofun, fun _ => rfl⟩
        (kept.captured.nextEvent j)
    · exact kept.absent rfl
  | nextMeta j =>
    simp only [HookRun.step]
    split
    · exact kept.leave ⟨rfl, rfl, rfl, rfl, rfl, rfl, rfl, id, rfl, rfl, nofun, fun _ => rfl⟩
        (kept.captured.nextMeta j)
    · exact kept.absent rfl
  | waitCloseSignal j =>
    simp only [HookRun.step]
    split
    · exact kept.noted rfl rfl rfl rfl rfl fun _ handed => handed
    · exact kept.absent rfl
  | ack j presented =>
    simp only [HookRun.step]
    split
    · exact kept.ack j presented
    · exact kept.absent rfl
  | closeBegin i status died price => exact kept.closeBegin i status died price
  | closeEnd i => exact kept.closeEnd i
  | closeAbnormal kind died price => exact kept.closeAbnormal kind died price

end

theorem pending (cfg : EnvelopeConfig) (credential : Bytes) (collector : MetricsCollector)
    (now : Instant) : Kept credential (.new (.pending cfg credential collector now)) where
  expected := rfl
  captured := ⟨fun _ => rfl, fun _ => rfl⟩
  ended := .nil
  phase := nofun
  stage := .before rfl rfl (fun _ => rfl) rfl rfl rfl rfl
  complete := .nil

theorem run (kept : Kept credential s) (events : List HookEvent) :
    Kept credential (events.foldl HookRun.step s) := by
  induction events generalizing s with
  | nil => exact kept
  | cons event events ih => exact ih (kept.step event)

end Kept

/-- **Capture and close of a job.** In every interleaving of the handles of a hook at most one close
succeeds; the signal carries its status and metrics; nothing is written once a close began; and a
close that claims complete capture finds all bytes drained in order, each once, all metadata
drained, and an acknowledgement with the credential after its signal was published. -/
theorem capture_and_close (cfg : EnvelopeConfig) (credential : Bytes) (collector : MetricsCollector)
    (now : Instant) (events : List HookEvent) :
    let s := events.foldl HookRun.step (.new (.pending cfg credential collector now))
    (outcomes s.history).length ≤ 1 ∧
      (∀ outcome ∈ outcomes s.history,
        s.inner.closeSignal = some ⟨outcome.status, outcome.metrics⟩ ∧
          ∀ signal ∈ signals s.history, signal = ⟨outcome.status, outcome.metrics⟩) ∧
      (s.history.Pairwise fun earlier later =>
        earlier.closes = true → accepted? later = none) ∧
      Traced (CompleteAt credential) s.history := by
  intro s
  have kept : Kept credential s := (Kept.pending cfg credential collector now).run events
  refine ⟨?_, fun outcome there => ?_, kept.ended, kept.complete⟩
  · cases kept.stage with
    | before signal done closers acked none_yet => simp [none_yet]
    | waiting i sig signal done closed closers acked published none_yet => simp [none_yet]
    | settled sig outcome signal done closed closers window one => simp [one]
  · cases kept.stage with
    | before signal done closers acked none_yet => exact absurd there (none_yet ▸ List.not_mem_nil)
    | waiting i sig signal done closed closers acked published none_yet =>
      exact absurd there (none_yet ▸ List.not_mem_nil)
    | settled sig final signal done closed closers window one status metrics seen =>
      rw [one, List.mem_singleton] at there
      subst there
      rw [status, metrics]
      exact ⟨signal, seen⟩

end CorelinkRunners.Envelope
