import CorelinkRunners.Scheduler.Conservation

/-!
# The order of the queued acquires of a tenant

`run_admission_tick` selects under the scheduler's lock and reserves afterwards: the ledger counts
again, and a candidate that finds its tenant at the cap goes back to the scheduler. It goes to the
back of its tenant's queue, and `enqueued_at_ms`, which it keeps, orders nothing.

As long as nothing of its tenant is selected or queued behind such a candidate, the back is where it
was. But the pre-filter does not count the selected, so several of a tenant are selected for one
free slot, and then the loser falls behind the requests that came after it
(`admitted_out_of_order`). -/

namespace CorelinkRunners.Server.Requeue

open Kit

/-- The queue of an instance, what the ledger counts, and the tick that is running. -/
structure Queue where
  scheduler : FairScheduler
  active : TenantId → Nat
  tenantCap : TenantId → Nat
  candidates : List WorkItem
  /-- The requests the scheduler took, and those the ledger admitted; no branch reads them. -/
  submitted : List WorkItem
  admitted : List WorkItem

namespace Queue

variable (self : Queue)

def new (globalSlots : Nat) : Queue := ⟨.new globalSlots, fun _ => 0, fun _ => 0, [], [], []⟩

/-- The cheap pre-filter of a tick, over one reading of the ledger. -/
def underCap (active : TenantId → Nat) (tenant : TenantId) : Bool :=
  if self.tenantCap tenant = 0 then false else active tenant < self.tenantCap tenant

/-- The closures of a tick: it reads the ledger at every cap check, and accepts every dispatch. The
readings before the last one are those of a ledger that is used meanwhile. -/
def selection : Seams (List (TenantId → Nat)) where
  capCheck
    | [], tenant => (self.underCap self.active tenant, [])
    | reading :: later, tenant => (self.underCap reading tenant, later)
  dispatch readings _ := (true, readings)

/-- `try_admit` of a candidate: does the tenant have a slot? -/
def admits (item : WorkItem) : Bool := self.active item.tenant < self.tenantCap item.tenant

inductive Step
  /-- `acquire_queued` up to its wait. -/
  | enqueue (item : WorkItem)
  /-- The first half of `run_admission_tick`; the one loop runs one tick at a time. -/
  | select (nowMs : Nat) (readings : List (TenantId → Nat))
  | reserve
  /-- Leases of a tenant end, or are acquired past the queue. -/
  | ledger (tenant : TenantId) (active : Nat)
  | plan (tenant : TenantId) (cap : Nat)

def step : Step → Queue
  | .enqueue item =>
    match self.scheduler.enqueue item with
    | (.ok (), scheduler) => { self with scheduler, submitted := self.submitted ++ [item] }
    -- shed
    | (.error _, scheduler) => { self with scheduler }
  | .select nowMs readings =>
    if self.candidates.isEmpty then
      let (_, scheduler, _) := self.scheduler.tick self.selection nowMs readings
      { self with
        scheduler
        candidates := (self.scheduler.tickEnd self.selection nowMs readings).turns.map Turn.item }
    else self
  | .reserve =>
    match self.candidates with
    | [] => self
    | item :: candidates =>
      if self.admits item then
        { self with
          active := Function.update self.active item.tenant (self.active item.tenant + 1)
          candidates
          admitted := self.admitted ++ [item] }
      -- lost the cap race: to the back, and dropped if there is no room
      else { self with candidates, scheduler := (self.scheduler.enqueue item).2 }
  | .ledger tenant active => { self with active := Function.update self.active tenant active }
  | .plan tenant cap => { self with tenantCap := Function.update self.tenantCap tenant cap }

def its (tenant : TenantId) (items : List WorkItem) : List WorkItem :=
  items.filter (·.tenant = tenant)

/-- A candidate that loses is the last of its tenant: nothing else of it is selected or queued. -/
def Meets : Step → Prop
  | .reserve => ∀ item ∈ self.candidates.head?, self.admits item = true ∨
      its item.tenant self.candidates.tail = [] ∧ self.scheduler.queues.queue item.tenant = []
  | _ => True

instance (event : Step) : Decidable (self.Meets event) := by
  cases event <;> dsimp only [Meets] <;> infer_instance

/-! ## In order -/

/-- **The line of every tenant**: admitted, then selected, then queued, it is what was submitted. -/
def InLine : Prop := ∀ tenant, its tenant self.admitted ++ its tenant self.candidates ++
  self.scheduler.queues.queue tenant = its tenant self.submitted

variable {self}

theorem its_append (tenant : TenantId) (items more : List WorkItem) :
    its tenant (items ++ more) = its tenant items ++ its tenant more := List.filter_append _ _

theorem its_singleton (tenant : TenantId) (item : WorkItem) :
    its tenant [item] = if item.tenant = tenant then [item] else [] := by
  rw [its, List.filter_singleton, Bool.cond_decide]

theorem InLine.enqueue (line : self.InLine) (item : WorkItem) :
    (self.step (.enqueue item)).InLine := by
  intro tenant
  have before := line tenant
  dsimp only [step, FairScheduler.enqueue]
  by_cases room : (self.scheduler.queues.queue item.tenant).length < maxTenantQueueDepth
  · obtain ⟨accepted, queues⟩ := TenantQueues.tryEnqueue_ok room
    rw [accepted]
    dsimp only
    rw [queues, its_append, its_singleton, ← before]
    split <;> simp
  · rw [TenantQueues.tryEnqueue_error (Nat.not_lt.mp room)]
    exact before

theorem its_turns {start : FairScheduler} {nowMs : Nat} {E : Type} {seams : Seams E}
    {st : TickState E} (ticking : start.Ticking seams nowMs st) (tenant : TenantId) :
    its tenant (st.turns.map Turn.item) =
      (st.turns.filter (·.tenant = tenant)).map Turn.item := by
  rw [its, List.filter_map]
  congr 1
  refine List.filter_congr fun turn took => ?_
  have moved : turn.item ∈ start.queues.queue turn.tenant := by
    rw [← ticking.conserved turn.tenant]
    refine List.mem_append_left _ (List.mem_map_of_mem (List.mem_filter.mpr ⟨took, ?_⟩))
    exact decide_eq_true rfl
  rw [Function.comp_apply, (start.queues.queue_valid turn.tenant).owned turn.item moved]

theorem InLine.select (line : self.InLine) (nowMs : Nat) (readings : List (TenantId → Nat)) :
    (self.step (.select nowMs readings)).InLine := by
  intro tenant
  dsimp only [step]
  split
  next idle =>
    have ticking := FairScheduler.Ticking.atEnd self.selection nowMs self.scheduler readings
    have before := line tenant
    rw [List.isEmpty_iff.mp idle] at before
    rw [its_turns ticking, ← before, ← ticking.conserved tenant]
    simp only [its, List.filter_nil, List.append_nil, List.append_assoc]
    rfl
  · exact line tenant

/-- A winner leaves the front of its line; a loser goes to the back, which is where it was. -/
theorem InLine.reserve (line : self.InLine) (meets : self.Meets .reserve) :
    (self.step .reserve).InLine := by
  intro tenant
  have before := line tenant
  simp only [step]
  split
  · exact before
  next item candidates first =>
    have last := meets item (by rw [first]; rfl)
    have front : its tenant self.candidates = its tenant [item] ++ its tenant candidates := by
      rw [first, ← its_append, List.singleton_append]
    rw [front] at before
    split
    · rw [← before, its_append]
      simp only [List.append_assoc]
    next lost =>
      obtain ⟨alone, empty⟩ := last.resolve_left lost
      have room : (self.scheduler.queues.queue item.tenant).length < maxTenantQueueDepth := by
        rw [empty]
        decide
      have queues := (TenantQueues.tryEnqueue_ok room).2 tenant
      rw [first, List.tail_cons] at alone
      dsimp only [FairScheduler.enqueue]
      rw [← before, queues, its_singleton]
      split
      next same =>
        rw [← same, alone, empty]
        simp
      · simp

theorem InLine.step (line : self.InLine) {event : Step} (meets : self.Meets event) :
    (self.step event).InLine := by
  cases event with
  | enqueue item => exact line.enqueue item
  | select nowMs readings => exact line.select nowMs readings
  | reserve => exact line.reserve meets
  | ledger tenant active => exact line
  | plan tenant cap => exact line

/-- **First come, first admitted** within a tenant, in every run in which a candidate that loses its
reservation is the last of its tenant: what the ledger admitted for a tenant is, in order, the front
of what the tenant submitted. -/
theorem admitted_in_order (globalSlots : Nat) (events : List Step)
    (along : Along step Meets (new globalSlots) events) (tenant : TenantId) :
    its tenant (events.foldl step (new globalSlots)).admitted <+:
      its tenant (events.foldl step (new globalSlots)).submitted := by
  have fresh : (new globalSlots).InLine := fun tenant => TenantQueues.queue_new tenant
  have line := along.invariant InLine (fun line meets => line.step meets) fresh
  rw [← line tenant, List.append_assoc]
  exact List.prefix_append _ _

def tenantB : TenantId := ⟨"b", by decide, by decide⟩

def request (id : String) : WorkItem := ⟨id, tenantB, 0⟩

/-- Three requests of a tenant with one slot, and a tick that may select two. -/
def contended : List Step :=
  [.plan tenantB 1, .enqueue (request "x"), .enqueue (request "y"), .enqueue (request "z"),
    .select 1 [], .reserve]

theorem admitted_in_order_contended : Along step Meets (new 2) contended ∧
    its tenantB (contended.foldl step (new 2)).admitted <+:
      its tenantB (contended.foldl step (new 2)).submitted :=
  ⟨by decide +kernel, admitted_in_order 2 contended (by decide +kernel) tenantB⟩

/-- **Overtaken.** The second request is selected for a slot that the first one takes; when the slot
is free again the third is admitted before it. -/
theorem admitted_out_of_order :
    let queue := (contended ++ [Step.reserve, .ledger tenantB 0, .select 2 [], .reserve]).foldl step
      (new 2)
    queue.submitted = [request "x", request "y", request "z"] ∧
      queue.admitted = [request "x", request "z"] := by
  decide +kernel

end Queue

end CorelinkRunners.Server.Requeue
