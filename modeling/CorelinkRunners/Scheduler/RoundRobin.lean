import CorelinkRunners.Scheduler.Starvation

/-!
# Uncapped scheduling is round-robin

When the cap check and dispatch always answer yes, nobody is owed a turn and nobody is parked, and
all that passes, budgets and ticks leave of the schedule is a ring: serve the first tenant with work
after the one served last (`Ring.serve`), over and over. A pass is as many
servings as it has turns, a tick as many as its budget (`tickEnd_served`), and where a tick ends
makes no difference.
-/

namespace CorelinkRunners

open Kit

/-! ## The ring -/

/-- The queues, and the tenant that was served last. -/
structure Ring where
  queues : TenantQueues
  cursor : Option TenantId

namespace Ring

/-- The first tenant with work after the one served last, or else the smallest with work. -/
def next (ring : Ring) : Option TenantId :=
  let waiting := ring.queues.tenantsWithWork
  match ring.cursor with
  | none => waiting.head?
  | some last => (waiting.find? (last < ·)).or waiting.head?

def serve (ring : Ring) : Option (Turn × Ring) := do
  let tenant ← ring.next
  let item ← ring.queues.front tenant
  let queues := (ring.queues.popFront tenant).2
  some (⟨tenant, item, queues⟩, ⟨queues, some tenant⟩)

def serves : Nat → Ring → List Turn × Ring
  | 0, ring => ([], ring)
  | n + 1, ring =>
    match ring.serve with
    | none => ([], ring)
    | some (turn, ring) => (turn :: (serves n ring).1, (serves n ring).2)

theorem serves_none {ring : Ring} (idle : ring.serve = none) (n : Nat) :
    serves n ring = ([], ring) := by
  cases n with
  | zero => rfl
  | succ n => rw [serves, idle]

theorem serves_add (m n : Nat) (ring : Ring) : serves (m + n) ring =
    ((serves m ring).1 ++ (serves n (serves m ring).2).1, (serves n (serves m ring).2).2) := by
  induction m generalizing ring with
  | zero =>
    rw [Nat.zero_add]
    rfl
  | succ m ih =>
    rw [Nat.succ_add, serves, serves]
    cases served : ring.serve with
    | none =>
      rw [serves_none served]
      rfl
    | some answer =>
      dsimp only
      rw [ih]
      rfl

def walk (ring : Ring) : List TenantId :=
  Rotation.resumeFrom ring.cursor ring.queues.tenantsWithWork

theorem next_eq (ring : Ring) : ring.next = ring.walk.head? := by
  unfold next walk
  cases ring.cursor with
  | none => rfl
  | some last => exact (Rotation.head_resumeFrom ring.queues.tenantsWithWork_sorted).symm

theorem mem_walk {ring : Ring} {tenant : TenantId} :
    tenant ∈ ring.walk ↔ ring.queues.queue tenant ≠ [] := by
  rw [walk, Rotation.mem_resumeFrom, TenantQueues.mem_tenantsWithWork]

theorem serve_none {ring : Ring} (idle : ring.walk = []) : ring.serve = none := by
  unfold serve
  rw [next_eq, idle]
  rfl

/-- **One serving** takes the head of the walk, and the walk goes on behind it. -/
theorem serve_walk {ring : Ring} {tenant : TenantId} {rest : List TenantId}
    (walk : ring.walk = tenant :: rest) : ∃ item again, ring.queues.front tenant = some item ∧
      ring.serve = some (⟨tenant, item, (ring.queues.popFront tenant).2⟩,
        ⟨(ring.queues.popFront tenant).2, some tenant⟩) ∧
      (⟨(ring.queues.popFront tenant).2, some tenant⟩ : Ring).walk = rest ++ again := by
  have busy : ring.queues.queue tenant ≠ [] := mem_walk.mp (walk ▸ List.mem_cons_self)
  obtain ⟨item, queued, work⟩ := List.exists_cons_of_ne_nil busy
  have front : ring.queues.front tenant = some item := by
    rw [TenantQueues.front_eq, work, List.head?_cons]
  have again := Rotation.resumeAfter_next ring.queues.tenantsWithWork_sorted
    (ring.queues.popFront tenant).2.tenantsWithWork_sorted walk fun other apart => by
      rw [TenantQueues.mem_tenantsWithWork, TenantQueues.mem_tenantsWithWork,
        TenantQueues.queue_popFront, if_neg apart.symm]
  refine ⟨item, _, front, ?_, again⟩
  unfold serve
  rw [next_eq, walk, List.head?_cons]
  dsimp only [Option.bind_eq_bind, Option.bind_some]
  rw [front]
  rfl

end Ring

/-! ## A tick that caps nobody -/

def Seams.Uncapped {E : Type} (seams : Seams E) : Prop :=
  (∀ tenant, seams.Admits tenant) ∧ seams.Accepts

namespace FairScheduler

variable {E : Type} {seams : Seams E} {nowMs : Nat} {st st' st'' : TickState E}

def ring (self : FairScheduler) : Ring := ⟨self.queues, self.cursor⟩

structure Plain (st : TickState E) : Prop where
  owed : ∀ tenant, tenant ∉ st.sched.owedSkip
  parked : ∀ tenant, tenant ∉ st.parked

structure Served (n : Nat) (st st' : TickState E) : Prop where
  plain : Plain st'
  slots : st'.sched.globalSlots = st.sched.globalSlots
  ring : st'.sched.ring = (Ring.serves n st.sched.ring).2
  turns : st'.turns = st.turns ++ (Ring.serves n st.sched.ring).1

theorem Served.none (plain : Plain st) (n : Nat) (idle : n = 0 ∨ st.sched.ring.serve = none) :
    Served n st st := by
  have nothing : Ring.serves n st.sched.ring = ([], st.sched.ring) := by
    rcases idle with rfl | idle
    · rfl
    · exact Ring.serves_none idle n
  refine ⟨plain, rfl, ?_, ?_⟩
  · rw [nothing]
  · rw [nothing, List.append_nil]

theorem Served.trans {m n : Nat} (h : Served m st st') (h' : Served n st' st'') :
    Served (m + n) st st'' := by
  refine ⟨h'.plain, h'.slots.trans h.slots, ?_, ?_⟩
  · rw [Ring.serves_add, h'.ring, h.ring]
  · rw [Ring.serves_add, h'.turns, h.turns, h.ring, List.append_assoc]

theorem rotationOrder_plain (plain : Plain st) :
    st.sched.rotationOrder st.parked = st.sched.ring.walk := by
  have eligible : st.sched.queues.tenantsWithWork.filter (· ∉ st.parked) =
      st.sched.queues.tenantsWithWork :=
    List.filter_eq_self.mpr fun tenant _ => decide_eq_true (plain.parked tenant)
  have owed : st.sched.queues.tenantsWithWork.filter (· ∈ st.sched.owedSkip) = [] :=
    List.filter_eq_nil_iff.mpr fun tenant _ => by simpa using plain.owed tenant
  have rest : st.sched.queues.tenantsWithWork.filter (· ∉ st.sched.owedSkip) =
      st.sched.queues.tenantsWithWork :=
    List.filter_eq_self.mpr fun tenant _ => decide_eq_true (plain.owed tenant)
  unfold rotationOrder ring Ring.walk
  dsimp only
  rw [eligible, owed, rest]
  cases st.sched.cursor <;> rfl

/-- **One turn is one serving.** -/
theorem turn_served (yes : seams.Uncapped) (plain : Plain st) (budget : st.remaining ≠ 0)
    {tenant : TenantId} {rest : List TenantId} (walk : st.sched.ring.walk = tenant :: rest) :
    Served 1 st (turn seams nowMs st tenant) ∧
      (turn seams nowMs st tenant).remaining = st.remaining - 1 ∧
      (turn seams nowMs st tenant).progressed = true ∧
      ∃ again, (turn seams nowMs st tenant).sched.ring.walk = rest ++ again := by
  obtain ⟨item, again, front, served, later⟩ := Ring.serve_walk walk
  rcases checked : seams.capCheck st.env tenant with ⟨allowed, env⟩
  obtain rfl : allowed = true := by
    have := yes.1 tenant st.env
    rwa [checked] at this
  rcases handed : seams.dispatch env item with ⟨accepted, env'⟩
  obtain rfl : accepted = true := by
    have := yes.2 env item
    rwa [handed] at this
  have front' : st.sched.queues.front tenant = some item := front
  unfold turn
  rw [if_neg budget, if_neg (plain.parked tenant), checked]
  rw [front']
  dsimp only
  rw [handed]
  refine ⟨⟨⟨fun other => ?_, plain.parked⟩, rfl, ?_, ?_⟩, rfl, rfl, again, later⟩
  · exact fun owed => plain.owed other ((OrdSet.mem_erase_iff _ _ _).mp owed).2
  · rw [Ring.serves, served]
    rfl
  · rw [Ring.serves, served]
    dsimp only [TickState.turns]
    rw [List.filterMap_append]
    rfl

/-- **A pass is as many servings** as it has tenants to walk, or as the budget allows. -/
theorem foldl_turn_served (yes : seams.Uncapped) (order again : List TenantId) (plain : Plain st)
    (walk : st.sched.ring.walk = order ++ again) :
    Served (min order.length st.remaining) st (order.foldl (turn seams nowMs) st) ∧
      (order.foldl (turn seams nowMs) st).remaining = st.remaining - min order.length st.remaining ∧
      (st.progressed = true ∨ 0 < min order.length st.remaining →
        (order.foldl (turn seams nowMs) st).progressed = true) := by
  induction order generalizing st again with
  | nil =>
    rw [List.length_nil, Nat.zero_min]
    exact ⟨.none plain 0 (.inl rfl), rfl, fun h => h.resolve_right (Nat.lt_irrefl 0)⟩
  | cons tenant order ih =>
    by_cases spent : st.remaining = 0
    · rw [foldl_turn_spent spent, spent, Nat.min_zero]
      exact ⟨.none plain 0 (.inl rfl), rfl, fun h => h.resolve_right (Nat.lt_irrefl 0)⟩
    rw [List.foldl_cons]
    obtain ⟨served, left, progressed, more, later⟩ :
        Served 1 st (turn seams nowMs st tenant) ∧ _ := turn_served yes plain spent walk
    obtain ⟨rest, left', progressed'⟩ :=
      ih (again ++ more) served.plain (later.trans (List.append_assoc order again more))
    have count : min (tenant :: order).length st.remaining =
        1 + min order.length (turn seams nowMs st tenant).remaining := by
      rw [List.length_cons, left]
      omega
    rw [count]
    exact ⟨served.trans rest, by omega, fun _ => progressed' (.inl progressed)⟩

theorem pass_served (yes : seams.Uncapped) (nowMs : Nat) (plain : Plain st)
    (budget : st.remaining ≠ 0) (work : st.sched.ring.walk ≠ []) : ∃ n, 0 < n ∧ n ≤ st.remaining ∧
      Served n st (pass seams nowMs st.sched.ring.walk st) ∧
      (pass seams nowMs st.sched.ring.walk st).remaining = st.remaining - n ∧
      (pass seams nowMs st.sched.ring.walk st).progressed = true := by
  have some_work := List.length_pos_iff.mpr work
  obtain ⟨served, left, progressed⟩ : Served _ _ (pass seams nowMs st.sched.ring.walk st) ∧ _ :=
    foldl_turn_served yes st.sched.ring.walk [] ⟨plain.owed, plain.parked⟩ (List.append_nil _).symm
  have some_turn : 0 < min st.sched.ring.walk.length st.remaining := by omega
  refine ⟨_, some_turn, Nat.min_le_right _ _, ?_, left, progressed (.inr some_turn)⟩
  exact ⟨served.plain, served.slots, served.ring, served.turns⟩

/-- **The passes of a tick** serve as many as the budget, as long as there is work. -/
theorem passes_served (yes : seams.Uncapped) (fuel : Nat) (plain : Plain st)
    (enough : st.remaining ≤ fuel) : Served st.remaining st (passes seams nowMs fuel st) := by
  induction fuel generalizing st with
  | zero => exact .none plain _ (.inl (Nat.le_zero.mp enough))
  | succ fuel ih =>
    unfold passes
    split
    next spent => exact .none plain _ (.inl spent)
    next budget =>
      dsimp only
      rw [rotationOrder_plain plain]
      split
      next idle => exact .none plain _ (.inr (Ring.serve_none (List.isEmpty_iff.mp idle)))
      next work =>
        obtain ⟨n, some_turn, within, first, left, progressed⟩ :=
          pass_served yes nowMs plain budget fun idle => work (List.isEmpty_iff.mpr idle)
        rw [if_pos progressed]
        have rest := ih first.plain (by omega)
        rw [left] at rest
        have whole := first.trans rest
        rwa [Nat.add_sub_cancel' within] at whole

/-- **A tick serves its budget**, as long as there is work. -/
theorem tickEnd_served (yes : seams.Uncapped) (self : FairScheduler)
    (plain : ∀ tenant, tenant ∉ self.owedSkip) (env : E) :
    Served self.globalSlots (self.tickStart env) (self.tickEnd seams nowMs env) := by
  have start : Plain (self.tickStart env) := ⟨plain, fun _ => Std.ExtTreeSet.not_mem_empty⟩
  exact passes_served yes self.globalSlots start (Nat.le_refl _)

end FairScheduler

/-! ## Runs -/

def SchedEvent.Uncapped {E : Type} : SchedEvent E → Prop
  | enqueue _ => True
  | tick _ seams _ => seams.Uncapped

def SchedEvent.isTick {E : Type} : SchedEvent E → Bool
  | enqueue _ => false
  | tick .. => true

structure RingLog where
  ring : Ring
  turns : List Turn

namespace RingLog

variable {E : Type}

/-- A tick of the ring: no passes, nothing owed, so many servings. -/
def step (globalSlots : Nat) (log : RingLog) : SchedEvent E → RingLog
  | .enqueue item => { log with ring.queues := (log.ring.queues.tryEnqueue item).2 }
  | .tick .. =>
    let (turns, ring) := log.ring.serves globalSlots
    ⟨ring, log.turns ++ turns⟩

def run (globalSlots : Nat) (events : List (SchedEvent E)) : RingLog :=
  events.foldl (step globalSlots) ⟨⟨.new, none⟩, []⟩

theorem foldl_ticks (globalSlots : Nat) (log : RingLog) {ticks : List (SchedEvent E)}
    (only : ∀ event ∈ ticks, event.isTick = true) : ticks.foldl (step globalSlots) log =
      ⟨(log.ring.serves (ticks.length * globalSlots)).2,
        log.turns ++ (log.ring.serves (ticks.length * globalSlots)).1⟩ := by
  induction ticks generalizing log with
  | nil =>
    rw [List.length_nil, Nat.zero_mul, Ring.serves, List.append_nil]
    rfl
  | cons event ticks ih =>
    obtain ⟨first, others⟩ := List.forall_mem_cons.mp only
    cases event with
    | enqueue item => cases first
    | tick nowMs seams env =>
      rw [List.foldl_cons, ih _ others, List.length_cons, Nat.succ_mul, Nat.add_comm,
        Ring.serves_add, ← List.append_assoc]
      rfl

end RingLog

namespace SchedLog

variable {E : Type} {globalSlots : Nat}

structure Rings (globalSlots : Nat) (log : SchedLog) (ringLog : RingLog) : Prop where
  slots : log.sched.globalSlots = globalSlots
  plain : ∀ tenant, tenant ∉ log.sched.owedSkip
  ring : log.sched.ring = ringLog.ring
  turns : log.turns = ringLog.turns

/-- **One call of the scheduler is one step of the ring.** -/
theorem Rings.step {log : SchedLog} {ringLog : RingLog} (h : Rings globalSlots log ringLog)
    {event : SchedEvent E} (uncapped : event.Uncapped) :
    Rings globalSlots (log.step event) (ringLog.step globalSlots event) := by
  cases event with
  | enqueue item =>
    have sched : (log.step (.enqueue item : SchedEvent E)).sched =
        { log.sched with queues := (log.sched.queues.tryEnqueue item).2 } ∧
        (log.step (.enqueue item : SchedEvent E)).turns = log.turns := by
      dsimp only [SchedLog.step, FairScheduler.enqueue]
      split <;> next same => exact ⟨(Prod.mk.inj same).2.symm, rfl⟩
    refine ⟨?_, ?_, ?_, sched.2.trans h.turns⟩
    · rw [sched.1, h.slots]
    · rw [sched.1]
      exact h.plain
    · rw [sched.1, RingLog.step, ← h.ring]
      rfl
  | tick nowMs seams env =>
    have served : FairScheduler.Served _ _ (log.sched.tickEnd seams nowMs env) :=
      FairScheduler.tickEnd_served uncapped log.sched h.plain env
    have start : (log.sched.tickStart env).sched.ring = ringLog.ring := h.ring
    have ring := served.ring
    have turns := served.turns
    rw [start, h.slots] at ring turns
    refine ⟨served.slots.trans h.slots, fun tenant owed => ?_, ring, ?_⟩
    · exact served.plain.owed tenant ((OrdSet.mem_filter_iff _ _ _).mp owed).1
    · dsimp only [SchedLog.step, RingLog.step]
      rw [turns, h.turns]
      rfl

theorem Rings.tickEnd_turns {log : SchedLog} {ringLog : RingLog} (h : Rings globalSlots log ringLog)
    {seams : Seams E} (yes : seams.Uncapped) (budget nowMs : Nat) (env : E) :
    (({ log.sched with globalSlots := budget } : FairScheduler).tickEnd seams nowMs env).turns =
      (ringLog.ring.serves budget).1 := by
  have served : FairScheduler.Served budget _
      (({ log.sched with globalSlots := budget } : FairScheduler).tickEnd seams nowMs env) :=
    FairScheduler.tickEnd_served yes { log.sched with globalSlots := budget } h.plain env
  rw [served.turns, ← h.ring]
  rfl

theorem rings_run {events : List (SchedEvent E)} (uncapped : ∀ event ∈ events, event.Uncapped) :
    Rings globalSlots (run globalSlots events) (RingLog.run globalSlots events) := by
  induction events using List.reverseRecOn with
  | nil => exact ⟨rfl, fun _ => Std.ExtTreeSet.not_mem_empty, rfl, rfl⟩
  | append_singleton events event ih =>
    rw [run, RingLog.run, List.foldl_concat, List.foldl_concat]
    refine (ih fun event listed => uncapped event (List.mem_append_left _ listed)).step ?_
    exact uncapped event (List.mem_append_right _ List.mem_cons_self)

end SchedLog

/-- **Uncapped scheduling is round-robin**, and does not depend on where the ticks end: every run
serves as the ring does, and ticks with no enqueue between them dispatch what one tick with all
their budgets would. -/
theorem uncapped_round_robin {E : Type} (globalSlots : Nat) (events : List (SchedEvent E))
    (uncapped : ∀ event ∈ events, event.Uncapped) :
    (SchedLog.run globalSlots events).turns = (RingLog.run globalSlots events).turns ∧
    ∀ earlier ticks, events = earlier ++ ticks → (∀ event ∈ ticks, event.isTick = true) →
      ∀ (seams : Seams E) (nowMs : Nat) (env : E), seams.Uncapped →
        (SchedLog.run globalSlots events).turns = (SchedLog.run globalSlots earlier).turns ++
          (({ (SchedLog.run globalSlots earlier).sched with
            globalSlots := ticks.length * globalSlots } : FairScheduler).tickEnd
              seams nowMs env).turns := by
  refine ⟨(SchedLog.rings_run uncapped).turns, ?_⟩
  rintro earlier ticks rfl only seams nowMs env yes
  have before : SchedLog.Rings globalSlots (SchedLog.run globalSlots earlier)
      (RingLog.run globalSlots earlier) :=
    SchedLog.rings_run fun event listed => uncapped event (List.mem_append_left _ listed)
  rw [before.tickEnd_turns yes, before.turns, (SchedLog.rings_run uncapped).turns, RingLog.run,
    List.foldl_append, RingLog.foldl_ticks globalSlots _ only]
  rfl

open Contention in
/-- Two tenants with five items each, in two ticks of three. -/
theorem uncapped_round_robin_fiveEach :
    tenantsOf (SchedLog.run 3 (fiveEach ++ (openTick ++ openTick))).turns =
      [alpha, beta, alpha, beta, alpha, beta] := by
  have uncapped : ∀ event ∈ fiveEach ++ (openTick ++ openTick), event.Uncapped := by
    intro event listed
    simp only [fiveEach, openTick, List.mem_append, List.mem_replicate,
      List.mem_singleton] at listed
    rcases listed with (⟨-, rfl⟩ | ⟨-, rfl⟩) | rfl | rfl
    · exact trivial
    · exact trivial
    · exact ⟨fun _ _ => rfl, fun _ _ => rfl⟩
    · exact ⟨fun _ _ => rfl, fun _ _ => rfl⟩
  rw [(uncapped_round_robin 3 _ uncapped).1]
  decide +kernel

end CorelinkRunners
