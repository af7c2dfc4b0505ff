import CorelinkRunners.Scheduler.Tick

/-!
# What a tick keeps, and how it ends

`Ticking` is the invariant of the two nested loops; one turn keeps it (`Ticking.turn`). A tick
stops for one of two reasons only (`passes_settled`): the budget is spent, or everybody who still
has work is parked; the bound on the number of passes is never the reason (`passes_fuel`).
-/

namespace CorelinkRunners

open Kit

/-- The tenant was turned away: the cap check said no to it, or dispatch to an item of it. -/
def TurnedAway {E : Type} (seams : Seams E) (queues : TenantQueues) (steps : List TickStep)
    (tenant : TenantId) : Prop :=
  (TickStep.capped tenant ∈ steps ∧ ∃ env, (seams.capCheck env tenant).1 = false) ∨
    (TickStep.refused tenant ∈ steps ∧
      ∃ env, ∃ item ∈ queues.queue tenant, (seams.dispatch env item).1 = false)

theorem TurnedAway.append {E : Type} {seams : Seams E} {queues : TenantQueues}
    {steps : List TickStep} {tenant : TenantId} (more : List TickStep)
    (h : TurnedAway seams queues steps tenant) :
    TurnedAway seams queues (steps ++ more) tenant :=
  h.imp (.imp_left (List.mem_append_left _)) (.imp_left (List.mem_append_left _))

namespace FairScheduler

variable {E : Type} {seams : Seams E} {nowMs : Nat} {st : TickState E}

/-! ## Inductions over the two loops -/

theorem passes_keeps (Inv : TickState E → Prop)
    (flag : ∀ st, Inv st → Inv { st with progressed := false })
    (turns : ∀ st tenant, Inv st → Inv (turn seams nowMs st tenant)) (fuel : Nat) (h : Inv st) :
    Inv (passes seams nowMs fuel st) := by
  have pass_keeps : ∀ order st, Inv st → Inv (pass seams nowMs order st) := by
    intro order st h
    unfold pass
    refine List.foldlRecOn order _ (flag st h) ?_
    intro st h tenant _
    exact turns st tenant h
  induction fuel generalizing st with
  | zero => exact h
  | succ fuel ih =>
    unfold passes
    by_cases spent : st.remaining = 0
    · rw [if_pos spent]
      exact h
    rw [if_neg spent]
    dsimp only
    split
    · exact h
    · have passed := pass_keeps (st.sched.rotationOrder st.parked) st h
      split
      · exact ih passed
      · exact passed

/-! ## The loop invariant -/

/-- The invariant of a tick that started from `start`. -/
structure Ticking (seams : Seams E) (start : FairScheduler) (nowMs : Nat) (st : TickState E) :
    Prop where
  slots : st.sched.globalSlots = start.globalSlots
  conserved : ∀ tenant, (st.turns.filter (·.tenant = tenant)).map Turn.item ++
    st.sched.queues.queue tenant = start.queues.queue tenant
  dispatched : st.report.dispatched = st.turns.map (·.item.id)
  waits : st.report.waitsMs =
    st.turns.map fun turn => (turn.tenant, nowMs - turn.item.enqueuedAtMs)
  budget : st.remaining + st.turns.length = start.globalSlots
  away : ∀ tenant ∈ st.parked, TurnedAway seams start.queues st.steps tenant

namespace Ticking

variable {start : FairScheduler}

theorem atStart (seams : Seams E) (start : FairScheduler) (nowMs : Nat) (env : E) :
    Ticking seams start nowMs (start.tickStart env) where
  slots := rfl
  conserved _ := rfl
  dispatched := rfl
  waits := rfl
  budget := rfl
  away tenant h := by simp [tickStart] at h

theorem park {st' : TickState E} {tenant : TenantId} {step : TickStep}
    (h : Ticking seams start nowMs st) (no_turn : step.turn? = none)
    (turned : TurnedAway seams start.queues [step] tenant)
    (slots : st'.sched.globalSlots = st.sched.globalSlots)
    (queues : st'.sched.queues = st.sched.queues)
    (dispatched : st'.report.dispatched = st.report.dispatched)
    (waits : st'.report.waitsMs = st.report.waitsMs) (remaining : st'.remaining = st.remaining)
    (parked : st'.parked = st.parked.insert tenant) (steps : st'.steps = st.steps ++ [step]) :
    Ticking seams start nowMs st' := by
  have turns : st'.turns = st.turns := by
    unfold TickState.turns
    rw [steps, List.filterMap_append, List.filterMap_cons_none no_turn]
    exact List.append_nil _
  refine ⟨slots.trans h.slots, ?_, ?_, ?_, ?_, ?_⟩
  · rw [turns, queues]
    exact h.conserved
  · rw [turns, dispatched]
    exact h.dispatched
  · rw [turns, waits]
    exact h.waits
  · rw [turns, remaining]
    exact h.budget
  · rw [parked, steps]
    intro other away
    rcases (OrdSet.mem_insert_iff _ _ _).mp away with rfl | before
    · exact turned.imp (.imp_left (List.mem_append_right _)) (.imp_left (List.mem_append_right _))
    · exact (h.away other before).append _

theorem turn (h : Ticking seams start nowMs st) (tenant : TenantId) :
    Ticking seams start nowMs (turn seams nowMs st tenant) := by
  rcases turn_cases seams nowMs st tenant with idle | capped | refused | ⟨item, left, took⟩
  · obtain ⟨env, same⟩ := idle.same
    rw [same]
    exact ⟨h.slots, h.conserved, h.dispatched, h.waits, h.budget, h.away⟩
  · obtain ⟨env, skipped, same⟩ := capped.same
    rw [same]
    exact h.park rfl (.inl ⟨List.mem_singleton_self _, st.env, capped.answer⟩)
      rfl rfl rfl rfl rfl rfl rfl
  · obtain ⟨env, same⟩ := refused.same
    obtain ⟨asked, item, queued, answer⟩ := refused.answer
    -- what is queued now was queued when the tick began
    have there : item ∈ start.queues.queue tenant := by
      rw [← h.conserved tenant]
      exact List.mem_append_right _ queued
    rw [same]
    exact h.park rfl (.inr ⟨List.mem_singleton_self _, asked, item, there, answer⟩)
      rfl rfl rfl rfl rfl rfl rfl
  · obtain ⟨env, same⟩ := took.same
    have spent := took.budget
    have turns : (FairScheduler.turn seams nowMs st tenant).turns =
        st.turns ++ [⟨tenant, item, left⟩] := by
      rw [same]
      simp [TickState.turns, TickStep.turn?]
    refine ⟨?_, ?_, ?_, ?_, ?_, ?_⟩
    · rw [same]
      exact h.slots
    · intro other
      rw [turns, ← h.conserved other, List.filter_append, List.map_append, List.append_assoc, same]
      by_cases its : tenant = other
      · subst its
        rw [took.head]
        simp
      · rw [← took.others other its]
        simp [its]
    · rw [turns, List.map_append, ← h.dispatched, same]
      rfl
    · rw [turns, List.map_append, ← h.waits, same]
      rfl
    · rw [turns, List.length_append, List.length_singleton, ← h.budget]
      omega
    · rw [same]
      intro other parked
      exact (h.away other parked).append _

theorem atEnd (seams : Seams E) (nowMs : Nat) (start : FairScheduler) (env : E) :
    Ticking seams start nowMs (start.tickEnd seams nowMs env) := by
  refine passes_keeps (Ticking seams start nowMs) ?_ ?_ _ (atStart seams start nowMs env)
  · intro st h
    exact ⟨h.slots, h.conserved, h.dispatched, h.waits, h.budget, h.away⟩
  · intro st tenant h
    exact h.turn tenant

end Ticking

/-! ## Why a tick stops -/

/-- What a pass has settled so far, for the tenants it has looked at: the budget is spent, somebody
dispatched, or the queues are untouched and each of them with work is parked. -/
def Settled (start : TickState E) (seen : List TenantId) (st : TickState E) : Prop :=
  st.remaining = 0 ∨ (st.progressed = true ∧ st.remaining < start.remaining) ∨
    (st.remaining = start.remaining ∧ st.progressed = false ∧
      st.sched.queues = start.sched.queues ∧
      (∀ tenant ∈ start.parked, tenant ∈ st.parked) ∧
      ∀ tenant ∈ seen, st.sched.queues.queue tenant ≠ [] → tenant ∈ st.parked)

theorem Settled.park {start st' : TickState E} {seen : List TenantId} (tenant : TenantId)
    (h : Settled start seen st) (remaining : st'.remaining = st.remaining)
    (progressed : st'.progressed = st.progressed) (queues : st'.sched.queues = st.sched.queues)
    (parked : st'.parked = st.parked.insert tenant) : Settled start (seen ++ [tenant]) st' := by
  unfold Settled
  rw [remaining, progressed, queues, parked]
  rcases h with spent | moved | ⟨left, still, same, kept, away⟩
  · exact .inl spent
  · exact .inr (.inl moved)
  · refine .inr (.inr ⟨left, still, same, ?_, ?_⟩)
    · intro other before
      exact (OrdSet.mem_insert_iff _ _ _).mpr (.inr (kept other before))
    · intro other looked busy
      rw [OrdSet.mem_insert_iff]
      rcases List.mem_append.mp looked with before | now
      · exact .inr (away other before busy)
      · exact .inl (List.mem_singleton.mp now).symm

theorem Settled.turn {start : TickState E} {seen : List TenantId} (tenant : TenantId)
    (h : Settled start seen st) :
    Settled start (seen ++ [tenant]) (turn seams nowMs st tenant) := by
  rcases turn_cases seams nowMs st tenant with idle | capped | refused | ⟨item, left, took⟩
  · obtain ⟨env, same⟩ := idle.same
    rw [same]
    rcases h with spent | moved | ⟨left, still, queues, kept, parked⟩
    · exact .inl spent
    · exact .inr (.inl moved)
    · rcases idle.why with spent | nothing
      · exact .inl spent
      · refine .inr (.inr ⟨left, still, queues, kept, ?_⟩)
        intro other looked busy
        rcases List.mem_append.mp looked with before | now
        · exact parked other before busy
        · rw [List.mem_singleton.mp now] at busy ⊢
          exact nothing.resolve_right busy
  · obtain ⟨env, skipped, same⟩ := capped.same
    rw [same]
    exact h.park tenant rfl rfl rfl rfl
  · obtain ⟨env, same⟩ := refused.same
    rw [same]
    exact h.park tenant rfl rfl rfl rfl
  · obtain ⟨env, same⟩ := took.same
    have spent := took.budget
    have progressed : (FairScheduler.turn seams nowMs st tenant).progressed = true := by rw [same]
    refine .inr (.inl ⟨progressed, ?_⟩)
    rcases h with nothing | ⟨-, less⟩ | ⟨even, -⟩ <;> omega

theorem pass_settled (seams : Seams E) (nowMs : Nat) (order : List TenantId) (st : TickState E) :
    Settled st order (pass seams nowMs order st) := by
  have rest : ∀ (order seen : List TenantId) (now : TickState E), Settled st seen now →
      Settled st (seen ++ order) (order.foldl (FairScheduler.turn seams nowMs) now) := by
    intro order
    induction order with
    | nil =>
      intro seen now h
      rw [List.append_nil]
      exact h
    | cons tenant order ih =>
      intro seen now h
      rw [List.append_cons, List.foldl_cons]
      exact ih _ _ (h.turn tenant)
  exact rest order [] _ (.inr (.inr ⟨rfl, rfl, rfl, fun _ h => h, by simp⟩))

theorem mem_rotationOrder {self : FairScheduler} {parked : OrdSet TenantId} {tenant : TenantId} :
    tenant ∈ self.rotationOrder parked ↔ self.queues.queue tenant ≠ [] ∧ tenant ∉ parked := by
  unfold rotationOrder
  rw [← TenantQueues.mem_tenantsWithWork]
  cases self.cursor with
  | none =>
    simp only [List.mem_append, List.mem_filter, decide_eq_true_eq]
    tauto
  | some cursor =>
    simp only [List.mem_append, Rotation.mem_resumeAfter, List.mem_filter, decide_eq_true_eq]
    tauto

/-- **Why the outer loop stops**, given a bound on passes that covers the budget: the budget is
spent, or everybody with work is parked. -/
theorem passes_settled (seams : Seams E) (nowMs fuel : Nat) {st : TickState E}
    (enough : st.remaining ≤ fuel) : (passes seams nowMs fuel st).remaining = 0 ∨
      ∀ tenant, (passes seams nowMs fuel st).sched.queues.queue tenant ≠ [] →
        tenant ∈ (passes seams nowMs fuel st).parked := by
  induction fuel generalizing st with
  | zero => exact .inl (Nat.le_zero.mp enough)
  | succ fuel ih =>
    unfold passes
    by_cases spent : st.remaining = 0
    · rw [if_pos spent]
      exact .inl spent
    rw [if_neg spent]
    dsimp only
    by_cases nobody : (st.sched.rotationOrder st.parked).isEmpty = true
    · rw [if_pos nobody]
      refine .inr fun tenant busy => ?_
      by_contra free
      have listed := mem_rotationOrder.mpr ⟨busy, free⟩
      rw [List.isEmpty_iff.mp nobody] at listed
      exact List.not_mem_nil listed
    rw [if_neg nobody]
    rcases pass_settled seams nowMs (st.sched.rotationOrder st.parked) st
      with out | ⟨moved, less⟩ | ⟨-, still, queues, kept, parked⟩
    · split
      · exact ih (by omega)
      · exact .inl out
    · rw [if_pos moved]
      exact ih (by omega)
    · rw [still, if_neg Bool.false_ne_true]
      refine .inr fun tenant busy => ?_
      by_cases before : tenant ∈ st.parked
      · exact kept tenant before
      · refine parked tenant (mem_rotationOrder.mpr ⟨?_, before⟩) busy
        rw [← queues]
        exact busy

theorem passes_fuel {fuel : Nat} (enough : st.remaining ≤ fuel) :
    passes seams nowMs fuel st = passes seams nowMs st.remaining st := by
  have both : ∀ (fuel fuel' : Nat) (st : TickState E), st.remaining ≤ fuel →
      st.remaining ≤ fuel' → passes seams nowMs fuel st = passes seams nowMs fuel' st := by
    intro fuel
    induction fuel with
    | zero =>
      intro fuel' st h _
      cases fuel' with
      | zero => rfl
      | succ fuel' => rw [passes, passes, if_pos (Nat.le_zero.mp h)]
    | succ fuel ih =>
      intro fuel' st h h'
      by_cases spent : st.remaining = 0
      · cases fuel' with
        | zero => rw [passes, passes, if_pos spent]
        | succ fuel' => rw [passes, passes, if_pos spent, if_pos spent]
      obtain ⟨less, rfl⟩ := Nat.exists_eq_succ_of_ne_zero (n := fuel') (by omega)
      rw [passes, passes, if_neg spent, if_neg spent]
      dsimp only
      split
      · rfl
      split
      next moved =>
        have spends := pass_settled seams nowMs
          (st.sched.rotationOrder st.parked) st
        refine ih _ _ ?_ ?_ <;>
        · rcases spends with out | ⟨-, less⟩ | ⟨-, still, -⟩
          · omega
          · omega
          · rw [still] at moved
            cases moved
      · rfl
  exact both fuel st.remaining st enough le_rfl

end FairScheduler

/-! ## Runs of a scheduler -/

inductive SchedEvent (E : Type)
  | enqueue (item : WorkItem)
  | tick (nowMs : Nat) (seams : Seams E) (env : E)

structure SchedLog where
  sched : FairScheduler
  accepted : List WorkItem
  reports : List TickReport
  turns : List Turn

def TickReport.idsOf (report : TickReport) (tenant : TenantId) : List String :=
  ((report.dispatched.zip report.waitsMs).filter (·.2.1 = tenant)).map Prod.fst

namespace SchedLog

variable {E : Type}

def new (globalSlots : Nat) : SchedLog := ⟨.new globalSlots, [], [], []⟩

def step (log : SchedLog) : SchedEvent E → SchedLog
  | .enqueue item =>
    match log.sched.enqueue item with
    | (.ok (), sched) => { log with sched, accepted := log.accepted ++ [item] }
    | (.error _, sched) => { log with sched }
  | .tick nowMs seams env =>
    let (report, sched, _) := log.sched.tick seams nowMs env
    { log with
      sched
      reports := log.reports ++ [report]
      turns := log.turns ++ (log.sched.tickEnd seams nowMs env).turns }

def run (globalSlots : Nat) (events : List (SchedEvent E)) : SchedLog :=
  events.foldl step (new globalSlots)

def idsOf (log : SchedLog) (tenant : TenantId) : List String :=
  log.reports.flatMap (·.idsOf tenant)

theorem step_enqueue (log : SchedLog) (item : WorkItem) :
    log.step (.enqueue item : SchedEvent E) = log ∨
    ∃ queues : TenantQueues,
      (∀ tenant, queues.queue tenant = if item.tenant = tenant
        then log.sched.queues.queue tenant ++ [item] else log.sched.queues.queue tenant) ∧
      log.step (.enqueue item : SchedEvent E) =
        { log with sched := { log.sched with queues }, accepted := log.accepted ++ [item] } := by
  dsimp only [step, FairScheduler.enqueue]
  by_cases room : (log.sched.queues.queue item.tenant).length < maxTenantQueueDepth
  · obtain ⟨accepted, queues⟩ := TenantQueues.tryEnqueue_ok room
    rw [accepted]
    exact .inr ⟨_, queues, rfl⟩
  · rw [TenantQueues.tryEnqueue_error (Nat.not_lt.mp room)]
    exact .inl rfl

theorem turns_grow (log : SchedLog) (events : List (SchedEvent E)) :
    ∃ more, (events.foldl step log).turns = log.turns ++ more := by
  induction events generalizing log with
  | nil => exact ⟨[], (List.append_nil _).symm⟩
  | cons event events ih =>
    obtain ⟨more, later⟩ := ih (log.step event)
    cases event with
    | enqueue item =>
      rcases log.step_enqueue (E := E) item with refused | ⟨queues, -, same⟩
      · exact ⟨more, by rw [List.foldl_cons, later, refused]⟩
      · exact ⟨more, by rw [List.foldl_cons, later, same]⟩
    | tick nowMs seams env =>
      exact ⟨_ ++ more, by rw [List.foldl_cons, later, ← List.append_assoc]; rfl⟩

/-- What a run keeps: the slots, and per tenant that dispatched and queued make up accepted. -/
structure Conserved (globalSlots : Nat) (log : SchedLog) : Prop where
  slots : log.sched.globalSlots = globalSlots
  order : ∀ tenant, log.idsOf tenant ++ (log.sched.queues.queue tenant).map WorkItem.id =
    (log.accepted.filter (·.tenant = tenant)).map WorkItem.id

theorem Conserved.step {globalSlots : Nat} {log : SchedLog} (h : Conserved globalSlots log)
    (event : SchedEvent E) : Conserved globalSlots (log.step event) := by
  cases event with
  | enqueue item =>
    rcases log.step_enqueue (E := E) item with refused | ⟨queues, behind, same⟩
    · rw [refused]
      exact h
    · rw [same]
      refine ⟨h.slots, fun tenant => ?_⟩
      show log.idsOf tenant ++ (queues.queue tenant).map WorkItem.id = _
      rw [behind tenant, List.filter_append, List.map_append, ← h.order tenant]
      by_cases its : item.tenant = tenant <;> simp [its]
  | tick nowMs seams env =>
    have ticked := FairScheduler.Ticking.atEnd seams nowMs log.sched env
    refine ⟨ticked.slots.trans h.slots, fun tenant => ?_⟩
    have ids : (log.sched.tickEnd seams nowMs env).report.idsOf tenant =
        ((log.sched.tickEnd seams nowMs env).turns.filter (·.tenant = tenant)).map (·.item.id) := by
      unfold TickReport.idsOf
      rw [ticked.dispatched, ticked.waits, List.zip_map', List.filter_map, List.map_map]
      rfl
    have queued := congrArg (List.map WorkItem.id) (ticked.conserved tenant)
    rw [List.map_append, List.map_map] at queued
    show (log.reports ++ [_]).flatMap _ ++ _ = _
    rw [List.flatMap_append, List.flatMap_singleton, ids, List.append_assoc]
    refine Eq.trans ?_ (h.order tenant)
    exact congrArg (log.idsOf tenant ++ ·) queued

theorem conserved_run (globalSlots : Nat) (events : List (SchedEvent E)) :
    Conserved globalSlots (run globalSlots events) := by
  unfold run
  refine List.foldlRecOn events _ ⟨rfl, fun tenant => ?_⟩ ?_
  · simp [new, idsOf, FairScheduler.new]
  · intro log h event _
    exact h.step event

end SchedLog

/-- **The scheduler conserves its work.** After any calls: each tenant's dispatched ids, followed by
its queue, are its accepted enqueues in order; no queue is over its bound; and whichever tick comes
next hands out no more than the slots and stops either with all of them spent or with everybody who
still has work turned away in this tick, however many further passes it were allowed. -/
theorem scheduler_conserves {E : Type} (globalSlots : Nat) (events : List (SchedEvent E)) :
    (∀ tenant, (SchedLog.run globalSlots events).idsOf tenant ++
      ((SchedLog.run globalSlots events).sched.queues.queue tenant).map WorkItem.id =
      ((SchedLog.run globalSlots events).accepted.filter (·.tenant = tenant)).map WorkItem.id) ∧
    (∀ tenant, (SchedLog.run globalSlots events).sched.pending tenant ≤ maxTenantQueueDepth) ∧
    ∀ (nowMs : Nat) (seams : Seams E) (env : E),
      let start := (SchedLog.run globalSlots events).sched
      let last := start.tickEnd seams nowMs env
      (start.tick seams nowMs env).1.dispatched.length ≤ globalSlots ∧
      ((start.tick seams nowMs env).1.dispatched.length = globalSlots ∨
        ∀ tenant, 0 < (start.tick seams nowMs env).2.1.pending tenant →
          TurnedAway seams start.queues last.steps tenant) ∧
      ∀ fuel, globalSlots ≤ fuel →
        FairScheduler.passes seams nowMs fuel (start.tickStart env) = last := by
  have kept := SchedLog.conserved_run globalSlots events
  refine ⟨kept.order, fun tenant => (TenantQueues.queue_valid _ tenant).bounded, ?_⟩
  intro nowMs seams env start last
  have ticked := FairScheduler.Ticking.atEnd seams nowMs start env
  have slots : start.globalSlots = globalSlots := kept.slots
  have count : (start.tick seams nowMs env).1.dispatched.length = last.turns.length := by
    show last.report.dispatched.length = _
    rw [ticked.dispatched, List.length_map]
  have budget : last.remaining + last.turns.length = globalSlots := ticked.budget.trans slots
  refine ⟨by omega, ?_, ?_⟩
  · rcases FairScheduler.passes_settled seams nowMs start.globalSlots
      (le_refl (start.tickStart env).remaining) with spent | parked
    · have spent : last.remaining = 0 := spent
      exact .inl (by omega)
    · refine .inr fun tenant busy => ticked.away tenant (parked tenant ?_)
      exact List.length_pos_iff.mp busy
  · intro fuel enough
    have same : (start.tickStart env).remaining = start.globalSlots := rfl
    rw [FairScheduler.passes_fuel (by omega)]
    rfl

end CorelinkRunners
