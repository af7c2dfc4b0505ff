import CorelinkRunners.Kit.Run
import CorelinkRunners.Ledger.Ceiling

/-!
# Failed appends

A call whose append fails should answer with the error and leave the live index as it was, so that
the index stays what the journal replays to. Every call does, except an accepted transition: it
moves the index first and journals second. `failedAppend_clean_iff` is that dichotomy in every state
reached by a run in which no accepted transition lost its append; the last section is the shortest
run that ends otherwise.
-/

namespace CorelinkRunners

open Kit

def FileOp.Attempts {α : Type} : FileOp α → Prop
  | .pure _ => False
  | .vis _ _ => True

instance {α : Type} (op : FileOp α) : Decidable op.Attempts :=
  match op with
  | .pure _ => .isFalse id
  | .vis _ _ => .isTrue trivial

def FileEvent.Safe (f : FileState) : FileEvent → Prop
  | .call op env => op.MovesEarly f.index → env 0 = .ok ()
  | .crash _ _ _ => True
  | .reopen => True

/-- The live index is well formed and is what the journal replays to. -/
structure FileState.Agrees (f : FileState) : Prop where
  wellFormed : f.index.WellFormed
  replays : InMemoryInner.empty.replay f.lines = f.index

namespace FileState

variable {f : FileState}

theorem initial_agrees : initial.Agrees := ⟨InMemoryInner.empty_wellFormed, rfl⟩

theorem Agrees.steps (h : f.Agrees) {allows : Move → Prop} {ls : List JournalLine}
    {s : InMemoryInner} (chain : Steps allows f.index ls s) :
    FileState.Agrees ⟨f.lines ++ ls, s⟩ := by
  refine ⟨chain.wellFormed h.wellFormed, ?_⟩
  rw [InMemoryInner.replay_append, h.replays]
  exact chain.replay h.wellFormed

theorem Agrees.reopen (h : f.Agrees) : f.reopen.Agrees := by
  refine ⟨?_, rfl⟩
  rw [FileState.reopen, h.replays]
  exact h.wellFormed

end FileState

variable {α : Type} {s : InMemoryInner} {op : FileOp α}

/-- An early step is in the index whether or not its append succeeds; in the journal only if it
does. -/
theorem Eager.run_index {allows : Move → Prop} (h : Eager allows s op) :
    ∃ m l s', allows m ∧ Step s m l s' ∧ ∀ env, (op.run env).1.2 = s' ∧
      ∀ e, env 0 = .error e → (op.run env).2 = [] := by
  obtain ⟨allowed, step, a⟩ := h
  refine ⟨_, _, _, allowed, step, fun env => ⟨?_, fun e henv => ?_⟩⟩
  · cases henv : env 0 <;> simp only [appendLine, Appending.run, henv]
  · simp only [appendLine, Appending.run, henv]

theorem LedgerOp.MovesEarly.allows {op : LedgerOp} {m : Move} (early : op.MovesEarly s)
    (h : op.Allows m) : ∃ id target nowMs, m = .transition id target nowMs := by
  cases op with
  | transition id target nowMs => exact ⟨id, target, nowMs, h⟩
  | _ => exact early.elim

theorem Step.ne_of_transition {s' : InMemoryInner} {leaseId : String} {target : RunnerState}
    {nowMs : Nat} {l : JournalLine} (step : Step s (.transition leaseId target nowMs) l s') :
    s' ≠ s := by
  -- either way the record now carries the target state, which a legal source never is
  have moved : ∀ rec : LeaseRecord, s.records[leaseId]? = some rec →
      transitionIsLegal rec.state target = true →
      (s.records.insert leaseId (rec.stamped target nowMs)) ≠ s.records := by
    intro rec found legal h
    have hrec : some (rec.stamped target nowMs) = some rec := by
      rw [← found, ← OrdMap.get_insert_self s.records leaseId (rec.stamped target nowMs), h]
    have hstate : LeaseState.wire target = rec.state := by
      rw [← LeaseRecord.stamped_state rec target nowMs, Option.some.inj hrec]
    rw [← hstate] at legal
    cases target <;> nomatch legal
  cases step with
  | transition unclaimed found legal =>
    exact fun h => moved _ found legal (congrArg InMemoryInner.records h)
  | accrue unclaimed found legal terminal reserved unlatched =>
    exact fun h => moved _ found legal (congrArg InMemoryInner.records h)

section Runs

variable [SerdeJson]

def SafeRun (events : List FileEvent) : Prop :=
  Along FileState.step (fun f event => event.Safe f) .initial events

/-- **A safe event keeps the agreement** of live index and journal. -/
theorem FileState.Agrees.step {f : FileState} (h : f.Agrees) {event : FileEvent}
    (safe : event.Safe f) : (f.step event).Agrees := by
  cases event with
  | call op env => exact h.steps (FileInner.run_steps h.wellFormed op safe)
  | crash op env n =>
    obtain ⟨s, chain⟩ := FileInner.durable_steps h.wellFormed op env n
    exact (h.steps chain).reopen
  | reopen => exact h.reopen

theorem FileState.run_agrees {events : List FileEvent} (safe : SafeRun events) :
    (FileState.run events).Agrees :=
  safe.invariant FileState.Agrees (fun h hsafe => h.step hsafe) FileState.initial_agrees

/-! ## One failed append -/

/-- A call answers with an error, leaves the index alone, and what is live is still what re-opening
the journal gives. -/
structure FailsCleanly (f : FileState) (op : LedgerOp) (env : Nat → Except String Unit) : Prop where
  errs : (f.reply op env).isOk = false
  unchanged : (f.step (.call op env)).index = f.index
  replays : (f.step (.call op env)).reopen.index = (f.step (.call op env)).index

/-- **A failed append is clean unless the call moved the index first.** In every state reached by a
run whose accepted transitions keep their appends, a call that attempts an append and loses it fails
cleanly if and only if it is not an accepted transition. -/
theorem failedAppend_clean_iff (events : List FileEvent) (safe : SafeRun events)
    (op : LedgerOp) (env : Nat → Except String Unit) (e : String) (failed : env 0 = .error e)
    (attempts : (FileInner.exec (FileState.run events).index op).Attempts) :
    FailsCleanly (FileState.run events) op env ↔ ¬ op.MovesEarly (FileState.run events).index := by
  have agrees : (FileState.run events).Agrees := FileState.run_agrees safe
  constructor
  · intro clean early
    rcases FileInner.exec_files agrees.wellFormed op with ⟨late, -⟩ | ⟨-, h⟩
    · exact late early
    · obtain ⟨m, l, s', allowed, step, hindex⟩ := h.run_index
      obtain ⟨id, target, nowMs, rfl⟩ := early.allows allowed
      exact step.ne_of_transition ((hindex env).1.symm.trans clean.unchanged)
  · intro late
    rcases FileInner.exec_files agrees.wellFormed op with ⟨-, h⟩ | ⟨early, -⟩
    · have hrun : (FileInner.exec (FileState.run events).index op).run env =
          ((.error e, (FileState.run events).index), []) := by
        generalize FileInner.exec (FileState.run events).index op = op' at h attempts
        cases h with
        | done r => exact attempts.elim
        | publish allowed step rest => simp only [appendLine, Appending.run, failed]
      refine ⟨?_, ?_, ?_⟩
      · simp only [FileState.reply, hrun]
        rfl
      · simp only [FileState.step, hrun]
      · simp only [FileState.step, FileState.reopen, hrun, List.append_nil]
        exact agrees.replays
    · exact absurd early late

end Runs

/-! ## A lease held without a line -/

section Concrete

attribute [local instance] refuseJson

def diskFull : Nat → Except String Unit := fun _ => .error "cannot append to ledger journal"

def onePending : List FileEvent := [.call (.put (acmeLease "l1")) fun _ => .ok ()]

theorem failedAppend_clean_onePending :
    FailsCleanly (FileState.run onePending) (.remove "l1") diskFull := by
  refine (failedAppend_clean_iff onePending ⟨fun h => h.elim, trivial⟩ (.remove "l1") diskFull _ rfl
    ?_).mpr id
  decide

/-- **Held in memory, Pending on disk**: a transition to Held whose append fails answers with the
error, but the live record is Held while the journal replays to Pending. -/
theorem transition_failedAppend_not_clean :
    (FileInner.exec (FileState.run onePending).index (.transition "l1" .held 2000)).Attempts ∧
      ¬ FailsCleanly (FileState.run onePending) (.transition "l1" .held 2000) diskFull := by
  refine ⟨by decide, fun clean => ?_⟩
  exact absurd clean.unchanged (by decide)

end Concrete

end CorelinkRunners
