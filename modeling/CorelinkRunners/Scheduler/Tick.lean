import CorelinkRunners.Kit.Rotation
import CorelinkRunners.Kit.Run
import CorelinkRunners.Scheduler.Queues

/-!
# The fair multi-tenant scheduler

`FairScheduler.tick` hands out at most `globalSlots` items. It walks the tenants with work pass by
pass: first those owed a turn since they were skipped over cap, then the others from just after the
tenant that dispatched last. The two seams are functions on a state of the caller's, so either may
answer differently at every call.

`turn` is the body of the inner loop, `pass` the inner loop and `passes` the outer one. A tick also
keeps the list of what it did (`TickStep`), which no branch reads; the results about order and
fairness are stated over it.
-/

namespace CorelinkRunners

open Kit

structure TickReport where
  dispatched : List String := []
  skippedOverCap : Nat := 0
  waitsMs : List (TenantId × Nat) := []

/-- Long-running fair dispatcher over `TenantQueues`. -/
structure FairScheduler where
  globalSlots : Nat
  queues : TenantQueues
  cursor : Option TenantId
  /-- Tenants whose turn was deferred by a cap skip and not yet redeemed. -/
  owedSkip : OrdSet TenantId

/-- The two closures of a tick over the caller's state. -/
structure Seams (E : Type) where
  capCheck : E → TenantId → Bool × E
  dispatch : E → WorkItem → Bool × E

/-- A dispatch: who went, with what, and the queues it left. -/
structure Turn where
  tenant : TenantId
  item : WorkItem
  left : TenantQueues

inductive TickStep
  | capped (tenant : TenantId)
  | refused (tenant : TenantId)
  | dispatched (turn : Turn)

def TickStep.turn? : TickStep → Option Turn
  | dispatched turn => some turn
  | _ => none

/-- The local variables of a running tick. -/
structure TickState (E : Type) where
  sched : FairScheduler
  report : TickReport
  remaining : Nat
  parked : OrdSet TenantId
  progressed : Bool
  env : E
  /-- What the tick did so far; no branch reads it. -/
  steps : List TickStep

namespace FairScheduler

def new (globalSlots : Nat) : FairScheduler := ⟨globalSlots, .new, none, ∅⟩

def enqueue (self : FairScheduler) (item : WorkItem) : Except WorkItem Unit × FairScheduler :=
  let (answer, queues) := self.queues.tryEnqueue item
  (answer, { self with queues })

def pending (self : FairScheduler) (tenant : TenantId) : Nat := self.queues.pending tenant

/-- Tenants with work that are not parked, in dispatch order: the owed ones in sorted order, then
the rest from just after the cursor. -/
def rotationOrder (self : FairScheduler) (parked : OrdSet TenantId) : List TenantId :=
  let eligible := self.queues.tenantsWithWork.filter (· ∉ parked)
  let owed := eligible.filter (· ∈ self.owedSkip)
  let rest := eligible.filter (· ∉ self.owedSkip)
  match self.cursor with
  | some cursor => owed ++ Rotation.resumeAfter cursor rest
  | none => owed ++ rest

variable {E : Type} (seams : Seams E) (nowMs : Nat)

/-- The body of the inner loop, for one tenant of the pass. -/
def turn (st : TickState E) (tenant : TenantId) : TickState E :=
  -- an exhausted budget breaks off the pass: nobody after this one is looked at
  if st.remaining = 0 then st
  else if tenant ∈ st.parked then st
  else
    match seams.capCheck st.env tenant with
    | (false, env) =>
      { st with
        env
        report.skippedOverCap := st.report.skippedOverCap + 1
        sched.owedSkip := st.sched.owedSkip.insert tenant
        parked := st.parked.insert tenant
        steps := st.steps ++ [.capped tenant] }
    | (true, env) =>
      match st.sched.queues.front tenant with
      | none => { st with env }
      | some item =>
        match seams.dispatch env item with
        | (true, env) =>
          let queues := (st.sched.queues.popFront tenant).2
          { st with
            env
            report.dispatched := st.report.dispatched ++ [item.id]
            report.waitsMs := st.report.waitsMs ++ [(tenant, nowMs - item.enqueuedAtMs)]
            sched := { st.sched with
              queues
              owedSkip := st.sched.owedSkip.erase tenant
              cursor := some tenant }
            remaining := st.remaining - 1
            progressed := true
            steps := st.steps ++ [.dispatched ⟨tenant, item, queues⟩] }
        | (false, env) =>
          { st with
            env
            parked := st.parked.insert tenant
            steps := st.steps ++ [.refused tenant] }

def pass (order : List TenantId) (st : TickState E) : TickState E :=
  order.foldl (turn seams nowMs) { st with progressed := false }

/-- The outer loop: passes until the budget or the work runs out, or nobody dispatched. Every
further pass follows one that spent budget, so the budget bounds their number. -/
def passes : Nat → TickState E → TickState E
  | 0, st => st
  | fuel + 1, st =>
    if st.remaining = 0 then st
    else
      let order := st.sched.rotationOrder st.parked
      if order.isEmpty then st
      else
        let st := pass seams nowMs order st
        if st.progressed then passes fuel st else st

def tickStart (self : FairScheduler) (env : E) : TickState E :=
  ⟨self, {}, self.globalSlots, ∅, false, env, []⟩

def tickEnd (self : FairScheduler) (env : E) : TickState E :=
  passes seams nowMs self.globalSlots (self.tickStart env)

/-- Runs one scheduling tick: the report, the scheduler and the caller's state after it. -/
def tick (self : FairScheduler) (env : E) : TickReport × FairScheduler × E :=
  let st := self.tickEnd seams nowMs env
  -- a drained tenant can never redeem an owed turn, so it does not linger
  (st.report, { st.sched with
    owedSkip := st.sched.owedSkip.filter fun tenant => 0 < st.sched.pending tenant }, st.env)

end FairScheduler

/-! ## What one turn can do -/

namespace TickState

variable {E : Type}

def turns (st : TickState E) : List Turn := st.steps.filterMap TickStep.turn?

end TickState

namespace FairScheduler

variable {E : Type} {seams : Seams E} {nowMs : Nat} {st st' : TickState E} {tenant : TenantId}

/-- The tenant is passed over: the budget is spent, it is parked, or it has no work. -/
structure Idle (st st' : TickState E) (tenant : TenantId) : Prop where
  why : st.remaining = 0 ∨ tenant ∈ st.parked ∨ st.sched.queues.queue tenant = []
  same : ∃ env, st' = { st with env }

structure Capped (seams : Seams E) (st st' : TickState E) (tenant : TenantId) : Prop where
  answer : (seams.capCheck st.env tenant).1 = false
  budget : 0 < st.remaining
  same : ∃ env skippedOverCap, st' = { st with
    env
    report.skippedOverCap := skippedOverCap
    sched.owedSkip := st.sched.owedSkip.insert tenant
    parked := st.parked.insert tenant
    steps := st.steps ++ [.capped tenant] }

structure Refused (seams : Seams E) (st st' : TickState E) (tenant : TenantId) : Prop where
  answer : ∃ env item, item ∈ st.sched.queues.queue tenant ∧ (seams.dispatch env item).1 = false
  budget : 0 < st.remaining
  same : ∃ env, st' = { st with
    env
    parked := st.parked.insert tenant
    steps := st.steps ++ [.refused tenant] }

structure Dispatched (seams : Seams E) (nowMs : Nat) (st st' : TickState E) (turn : Turn) :
    Prop where
  answer : (seams.capCheck st.env turn.tenant).1 = true
  free : turn.tenant ∉ st.parked
  budget : st.remaining = st'.remaining + 1
  head : st.sched.queues.queue turn.tenant = turn.item :: turn.left.queue turn.tenant
  others : ∀ other, turn.tenant ≠ other → turn.left.queue other = st.sched.queues.queue other
  same : ∃ env, st' = { st with
    env
    report.dispatched := st.report.dispatched ++ [turn.item.id]
    report.waitsMs := st.report.waitsMs ++ [(turn.tenant, nowMs - turn.item.enqueuedAtMs)]
    sched := { st.sched with
      queues := turn.left
      owedSkip := st.sched.owedSkip.erase turn.tenant
      cursor := some turn.tenant }
    remaining := st'.remaining
    progressed := true
    steps := st.steps ++ [.dispatched turn] }

/-- **Everything a turn can do.** -/
theorem turn_cases (seams : Seams E) (nowMs : Nat) (st : TickState E) (tenant : TenantId) :
    Idle st (turn seams nowMs st tenant) tenant ∨
    Capped seams st (turn seams nowMs st tenant) tenant ∨
    Refused seams st (turn seams nowMs st tenant) tenant ∨
    ∃ item left, Dispatched seams nowMs st (turn seams nowMs st tenant) ⟨tenant, item, left⟩ := by
  unfold turn
  by_cases spent : st.remaining = 0
  · rw [if_pos spent]
    exact .inl ⟨.inl spent, st.env, rfl⟩
  rw [if_neg spent]
  by_cases parked : tenant ∈ st.parked
  · rw [if_pos parked]
    exact .inl ⟨.inr (.inl parked), st.env, rfl⟩
  rw [if_neg parked]
  have budget : 0 < st.remaining := Nat.pos_of_ne_zero spent
  rcases checked : seams.capCheck st.env tenant with ⟨allowed, env⟩
  cases allowed with
  | false => exact .inr (.inl ⟨by rw [checked], budget, env, _, rfl⟩)
  | true =>
    rw [TenantQueues.front_eq]
    cases work : st.sched.queues.queue tenant with
    | nil => exact .inl ⟨.inr (.inr work), env, rfl⟩
    | cons item rest =>
      rcases handed : seams.dispatch env item with ⟨accepted, env'⟩
      dsimp only [List.head?_cons]
      rw [handed]
      cases accepted with
      | false =>
        refine .inr (.inr (.inl ⟨⟨env, item, ?_, by rw [handed]⟩, budget, env', rfl⟩))
        rw [work]
        exact List.mem_cons_self
      | true =>
        refine .inr (.inr
          (.inr ⟨item, (st.sched.queues.popFront tenant).2, by rw [checked], parked, ?_, ?_, ?_,
          env', rfl⟩))
        · dsimp only
          omega
        · rw [TenantQueues.queue_popFront, if_pos rfl, work, List.tail_cons]
        · intro other apart
          rw [TenantQueues.queue_popFront, if_neg apart]

end FairScheduler

end CorelinkRunners
