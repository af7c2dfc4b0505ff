import CorelinkRunners.Ledger.File

/-!
# Whole runs, and replay as the live state

A run of calls is a chain of steps. `Steps` is that chain with the lines it journals, and
`Steps.replay` folds `Step.replay` over it: the lines, replayed over the state the chain started
from, give the state it reached.
-/

namespace CorelinkRunners

open Kit

inductive Steps (allows : Move → Prop) : InMemoryInner → List JournalLine → InMemoryInner → Prop
  | nil {s : InMemoryInner} : Steps allows s [] s
  | cons {s s' s'' : InMemoryInner} {m : Move} {l : JournalLine} {ls : List JournalLine}
      (allowed : allows m) (step : Step s m l s') (rest : Steps allows s' ls s'') :
      Steps allows s (l :: ls) s''

namespace Steps

variable {allows : Move → Prop} {s s' : InMemoryInner} {ls : List JournalLine}

theorem invariant (P : InMemoryInner → Prop)
    (keeps : ∀ {s m l s'}, s.WellFormed → P s → allows m → Step s m l s' → P s')
    (steps : Steps allows s ls s') (wf : s.WellFormed) (hs : P s) : s'.WellFormed ∧ P s' := by
  induction steps with
  | nil => exact ⟨wf, hs⟩
  | cons allowed step rest ih => exact ih (step.wellFormed wf) (keeps wf hs allowed step)

theorem replay (steps : Steps allows s ls s') (wf : s.WellFormed) : s.replay ls = s' := by
  induction steps with
  | nil => rfl
  | cons allowed step rest ih =>
    rw [InMemoryInner.replay_cons, step.replay wf]
    exact ih (step.wellFormed wf)

theorem wellFormed (steps : Steps allows s ls s') (wf : s.WellFormed) : s'.WellFormed :=
  (steps.invariant (fun _ => True) (fun _ _ _ _ => trivial) wf trivial).1

theorem take (steps : Steps allows s ls s') (k : Nat) : ∃ t, Steps allows s (ls.take k) t := by
  induction steps generalizing k with
  | @nil s =>
    rw [List.take_nil]
    exact ⟨s, .nil⟩
  | @cons s s' s'' m l ls allowed step rest ih =>
    cases k with
    | zero => exact ⟨s, .nil⟩
    | succ k =>
      obtain ⟨t, ht⟩ := ih k
      exact ⟨t, .cons allowed step ht⟩

theorem mono {allows' : Move → Prop} (steps : Steps allows s ls s')
    (le : ∀ m, allows m → allows' m) : Steps allows' s ls s' := by
  induction steps with
  | nil => exact .nil
  | cons allowed step rest ih => exact .cons (le _ allowed) step ih

end Steps

variable {α : Type} {allows : Move → Prop} {s : InMemoryInner} {op : FileOp α}

theorem Files.run_steps (h : Files allows s op) (env : Nat → Except String Unit) :
    Steps allows s (op.run env).2 (op.run env).1.2 := by
  induction h generalizing env with
  | done r => exact .nil
  | publish allowed step rest ih =>
    cases henv : env 0 with
    | ok _ =>
      simp only [appendLine, Appending.run, henv]
      exact .cons allowed step (ih _)
    | error e =>
      simp only [appendLine, Appending.run, henv]
      exact .nil

/-- A call that answers without an error has lost no append. -/
theorem Files.run_ok (h : Files allows s op) {env : Nat → Except String Unit} {a : α}
    (answered : (op.run env).1.1 = .ok a) :
    op.run env = op.settle := by
  induction h generalizing env with
  | done r => rfl
  | publish allowed step rest ih =>
    cases henv : env 0 with
    | ok _ =>
      simp only [appendLine, Appending.run, Appending.settle, henv] at answered ⊢
      rw [ih answered]
    | error e =>
      simp only [appendLine, Appending.run, henv] at answered
      cases answered

theorem Eager.run_steps (h : Eager allows s op) {env : Nat → Except String Unit}
    (henv : env 0 = .ok ()) : Steps allows s (op.run env).2 (op.run env).1.2 := by
  obtain ⟨allowed, step, a⟩ := h
  simp only [appendLine, Appending.run, henv]
  exact .cons allowed step .nil

theorem Files.durable_steps (h : Files allows s op) (env : Nat → Except String Unit) (n : Nat) :
    ∃ s', Steps allows s (op.durable env n) s' := by
  induction h generalizing env n with
  | @done s r => cases n <;> exact ⟨s, .nil⟩
  | @publish s s' m l next allowed step rest ih =>
    cases n with
    | zero => exact ⟨s, .nil⟩
    | succ n =>
      cases henv : env 0 with
      | ok _ =>
        simp only [appendLine, Appending.durable, henv]
        obtain ⟨t, ht⟩ := ih (fun n => env (n + 1)) n
        exact ⟨t, .cons allowed step ht⟩
      | error e =>
        simp only [appendLine, Appending.durable, henv]
        cases n <;> exact ⟨s, .nil⟩

theorem Eager.durable_steps (h : Eager allows s op) (env : Nat → Except String Unit) (n : Nat) :
    ∃ s', Steps allows s (op.durable env n) s' := by
  obtain ⟨allowed, step, a⟩ := h
  cases n with
  | zero => exact ⟨_, .nil⟩
  | succ n =>
    cases henv : env 0 with
    | ok _ =>
      simp only [appendLine, Appending.durable, henv]
      cases n <;> exact ⟨_, .cons allowed step .nil⟩
    | error e =>
      simp only [appendLine, Appending.durable, henv]
      cases n <;> exact ⟨_, .nil⟩

section Runs

variable [SerdeJson] {s : InMemoryInner}

theorem FileInner.run_steps (wf : s.WellFormed) (op : LedgerOp) {env : Nat → Except String Unit}
    (safe : op.MovesEarly s → env 0 = .ok ()) :
    Steps op.Allows s ((exec s op).run env).2 ((exec s op).run env).1.2 := by
  rcases exec_files wf op with ⟨-, h⟩ | ⟨early, h⟩
  · exact h.run_steps env
  · exact h.run_steps (safe early)

theorem FileInner.durable_steps (wf : s.WellFormed) (op : LedgerOp) (env : Nat → Except String Unit)
    (n : Nat) : ∃ s', Steps op.Allows s ((exec s op).durable env n) s' := by
  rcases exec_files wf op with ⟨-, h⟩ | ⟨-, h⟩
  · exact h.durable_steps env n
  · exact h.durable_steps env n

theorem FileInner.settle_steps (wf : s.WellFormed) (op : LedgerOp) :
    Steps op.Allows s (exec s op).settle.2 (exec s op).settle.1.2 := by
  rw [← Appending.run_ok]
  exact run_steps wf op fun _ => rfl

theorem InMemoryInner.exec_steps (wf : s.WellFormed) (op : LedgerOp) :
    Steps op.Allows s (FileInner.exec s op).settle.2 (s.exec op).2 := by
  rw [← FileInner.settle_exec wf op]
  exact FileInner.settle_steps wf op

theorem InMemoryInner.foldl_invariant (P : InMemoryInner → Prop) (ops : List LedgerOp)
    (keeps : ∀ {s m l s'}, s.WellFormed → P s → (∃ op ∈ ops, op.Allows m) → Step s m l s' → P s')
    (wf : s.WellFormed) (hs : P s) : (ops.foldl (fun s op => (s.exec op).2) s).WellFormed ∧
      P (ops.foldl (fun s op => (s.exec op).2) s) := by
  induction ops generalizing s with
  | nil => exact ⟨wf, hs⟩
  | cons op ops ih =>
    have head := (InMemoryInner.exec_steps wf op).invariant P
      (fun wf hP allowed step => keeps wf hP ⟨op, List.mem_cons_self, allowed⟩ step) wf hs
    refine ih (fun wf hP allowed step => keeps wf hP ?_ step) head.1 head.2
    obtain ⟨op', hmem, hop'⟩ := allowed
    exact ⟨op', List.mem_cons_of_mem _ hmem, hop'⟩

/-! ## The journal of a run -/

end Runs

/-- A file ledger between calls: the journal's lines and the live index in front of them. -/
structure FileState where
  lines : List JournalLine
  index : InMemoryInner

namespace FileState

def initial : FileState := ⟨[], .empty⟩

def reopen (f : FileState) : FileState := ⟨f.lines, InMemoryInner.empty.replay f.lines⟩

end FileState

/-- What can happen to a file ledger. The environment of a call decides its appends in turn; an
append that fails leaves nothing behind. A crash stops a call before its append number `n`, and
the ledger is opened again. -/
inductive FileEvent
  | call (op : LedgerOp) (env : Nat → Except String Unit)
  | crash (op : LedgerOp) (env : Nat → Except String Unit) (n : Nat)
  | reopen

section Runs

variable [SerdeJson]

namespace FileState

def reply (f : FileState) (op : LedgerOp) (env : Nat → Except String Unit) : Result Reply :=
  ((FileInner.exec f.index op).run env).1.1

def step (f : FileState) : FileEvent → FileState
  | .call op env =>
    let answer := (FileInner.exec f.index op).run env
    ⟨f.lines ++ answer.2, answer.1.2⟩
  | .crash op env n => reopen ⟨f.lines ++ (FileInner.exec f.index op).durable env n, f.index⟩
  | .reopen => f.reopen

def run (events : List FileEvent) : FileState := events.foldl step initial

def settle (f : FileState) (op : LedgerOp) : FileState :=
  let answer := (FileInner.exec f.index op).settle
  ⟨f.lines ++ answer.2, answer.1.2⟩

end FileState

/-- **Replay equals live state.** After any sequence of calls whose appends succeed, folding the
journal's lines from the empty index, as re-opening the journal does, gives exactly the live
index. -/
theorem replay_eq_live (ops : List LedgerOp) :
    InMemoryInner.empty.replay (ops.foldl FileState.settle .initial).lines =
      (ops.foldl FileState.settle .initial).index := by
  have run : ∀ (f : FileState), f.index.WellFormed → InMemoryInner.empty.replay f.lines = f.index →
      InMemoryInner.empty.replay (ops.foldl FileState.settle f).lines =
        (ops.foldl FileState.settle f).index := by
    induction ops with
    | nil => exact fun f _ h => h
    | cons op ops ih =>
      intro f wf h
      have steps := FileInner.settle_steps wf op
      refine ih _ (steps.wellFormed wf) ?_
      simp only [FileState.settle, InMemoryInner.replay_append, h]
      exact steps.replay wf
  exact run .initial InMemoryInner.empty_wellFormed rfl

end Runs

end CorelinkRunners
