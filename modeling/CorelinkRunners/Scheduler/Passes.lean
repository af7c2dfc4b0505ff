import CorelinkRunners.Scheduler.Conservation

/-!
# Passes of a tick whose dispatches are accepted

With a dispatch seam that accepts, a pass looks at a first part of its order and either caps or
dispatches everyone in it (`Passed`). A run of the scheduler is then a chain of such passes
(`Passes`): between two of them the cursor stays where it is and nobody with work loses an owed
turn. The fairness results are inductions over that chain.
-/

namespace CorelinkRunners

open Kit

def tenantsOf (turns : List Turn) : List TenantId := turns.map Turn.tenant

@[simp] theorem tenantsOf_nil : tenantsOf [] = [] := rfl

@[simp] theorem tenantsOf_cons (turn : Turn) (turns : List Turn) :
    tenantsOf (turn :: turns) = turn.tenant :: tenantsOf turns := rfl

@[simp] theorem tenantsOf_append (turns more : List Turn) :
    tenantsOf (turns ++ more) = tenantsOf turns ++ tenantsOf more := List.map_append

namespace Seams

variable {E : Type} (seams : Seams E)

def Admits (tenant : TenantId) : Prop := ∀ env, (seams.capCheck env tenant).1 = true

def Caps (tenant : TenantId) : Prop := ∀ env, (seams.capCheck env tenant).1 = false

def Accepts : Prop := ∀ env item, (seams.dispatch env item).1 = true

end Seams

namespace FairScheduler

variable {E : Type} {seams : Seams E} {nowMs : Nat} {st st' : TickState E}

/-! ## The order of a pass -/

/-- Who may go before a waiting tenant: those owed a turn, and, unless it is owed one itself, those
the walk meets before it. -/
def Rival (self : FairScheduler) (waiting tenant : TenantId) : Prop :=
  tenant ∈ self.owedSkip ∨ (waiting ∉ self.owedSkip ∧ Rotation.Ahead self.cursor waiting tenant)

variable (self : FairScheduler) (parked : OrdSet TenantId)

theorem rotationOrder_rivals :
    (self.rotationOrder parked).Pairwise fun tenant waiting => self.Rival waiting tenant := by
  have eligible : (self.queues.tenantsWithWork.filter (· ∉ parked)).Pairwise (· < ·) :=
    TenantQueues.tenantsWithWork_sorted.filter _
  have rest := eligible.filter (· ∉ self.owedSkip)
  have free : ∀ {tenant : TenantId}, tenant ∈ (self.queues.tenantsWithWork.filter
      (· ∉ parked)).filter (· ∉ self.owedSkip) → tenant ∉ self.owedSkip := by
    intro tenant listed
    simpa using (List.mem_filter.mp listed).2
  have owed : ∀ {tenant : TenantId}, tenant ∈ (self.queues.tenantsWithWork.filter
      (· ∉ parked)).filter (· ∈ self.owedSkip) → tenant ∈ self.owedSkip := by
    intro tenant listed
    simpa using (List.mem_filter.mp listed).2
  unfold rotationOrder Rival
  cases at_cursor : self.cursor with
  | none =>
    refine List.pairwise_append.mpr ⟨?_, ?_, ?_⟩
    · exact (eligible.filter _).imp_of_mem fun ha _ _ => .inl (owed ha)
    · exact rest.imp_of_mem fun _ hb h => .inr ⟨free hb, h⟩
    · exact fun a ha b _ => .inl (owed ha)
  | some cursor =>
    refine List.pairwise_append.mpr ⟨?_, ?_, ?_⟩
    · exact (eligible.filter _).imp_of_mem fun ha _ _ => .inl (owed ha)
    · exact (Rotation.resumeAfter_sorted rest).imp_of_mem fun _ hb h =>
        .inr ⟨free (Rotation.mem_resumeAfter.mp hb), h⟩
    · exact fun a ha b _ => .inl (owed ha)

theorem rotationOrder_nodup : (self.rotationOrder parked).Nodup := by
  have eligible : (self.queues.tenantsWithWork.filter (· ∉ parked)).Nodup :=
    (TenantQueues.tenantsWithWork_sorted.imp fun h => h.ne).filter _
  have apart : ((self.queues.tenantsWithWork.filter (· ∉ parked)).filter
      (· ∈ self.owedSkip)).Disjoint
      ((self.queues.tenantsWithWork.filter (· ∉ parked)).filter (· ∉ self.owedSkip)) := by
    intro tenant owed free
    have h := (List.mem_filter.mp owed).2
    have h' := (List.mem_filter.mp free).2
    simp only [decide_eq_true_eq] at h h'
    exact h' h
  unfold rotationOrder
  cases self.cursor with
  | none => exact List.nodup_append'.mpr ⟨eligible.filter _, eligible.filter _, apart⟩
  | some cursor =>
    refine List.nodup_append'.mpr ⟨eligible.filter _, ?_, ?_⟩
    · exact Rotation.nodup_resumeAfter.mpr (eligible.filter _)
    · intro tenant owed free
      exact apart owed (Rotation.mem_resumeAfter.mp free)

/-! ## What a pass does -/

/-- **A pass**: it looked at `seen`, the first part of its order, and dispatched `block`. -/
structure Passed (seams : Seams E) (st st' : TickState E) (order seen unseen : List TenantId)
    (block : List Turn) : Prop where
  split : order = seen ++ unseen
  turns : st'.turns = st.turns ++ block
  sublist : (tenantsOf block).Sublist seen
  cursor : st'.sched.cursor = (tenantsOf block).getLast?.or st.sched.cursor
  owed : ∀ tenant, tenant ∈ st'.sched.owedSkip ↔
    (tenant ∈ st.sched.owedSkip ∨ tenant ∈ seen) ∧ tenant ∉ tenantsOf block
  parked : ∀ tenant, tenant ∈ st'.parked ↔
    tenant ∈ st.parked ∨ (tenant ∈ seen ∧ tenant ∉ tenantsOf block)
  remaining : st'.remaining + block.length = st.remaining
  spent : unseen ≠ [] → st'.remaining = 0
  last : unseen ≠ [] → seen ≠ [] → (tenantsOf block).getLast? = seen.getLast?
  admitted : ∀ tenant ∈ seen, seams.Admits tenant → tenant ∈ tenantsOf block
  capped : ∀ tenant, seams.Caps tenant → tenant ∉ tenantsOf block
  kept : ∀ tenant, tenant ∉ tenantsOf block →
    st'.sched.queues.queue tenant = st.sched.queues.queue tenant
  left : ∀ before turn after, block = before ++ turn :: after →
    ∀ tenant, tenant ∉ tenantsOf after →
      turn.left.queue tenant = st'.sched.queues.queue tenant

theorem foldl_turn_spent (spent : st.remaining = 0) (order : List TenantId) :
    order.foldl (turn seams nowMs) st = st := by
  induction order with
  | nil => rfl
  | cons tenant order ih =>
    have idle : turn seams nowMs st tenant = st := by
      unfold turn
      rw [if_pos spent]
    rw [List.foldl_cons, idle, ih]

theorem Passed.nothing (split : List TenantId) (spent : split ≠ [] → st.remaining = 0) :
    Passed seams st st split [] split [] where
  split := rfl
  turns := (List.append_nil _).symm
  sublist := List.Sublist.refl _
  cursor := rfl
  owed tenant := by simp
  parked tenant := by simp
  remaining := rfl
  spent := spent
  last _ none_seen := absurd rfl none_seen
  admitted tenant h := absurd h List.not_mem_nil
  capped tenant _ := List.not_mem_nil
  kept _ _ := rfl
  left before turn after h := absurd h (by simp)

namespace Passed

variable {st1 : TickState E} {tenant : TenantId} {order seen unseen : List TenantId}
  {block : List Turn}

theorem mem_seen (h : Passed seams st st' order seen unseen block) {tenant : TenantId}
    (went : tenant ∈ tenantsOf block) : tenant ∈ seen := h.sublist.subset went

theorem cons_capped (fresh : tenant ∉ order) (first : Capped seams st st1 tenant)
    (h : Passed seams st1 st' order seen unseen block) :
    Passed seams st st' (tenant :: order) (tenant :: seen) unseen block := by
  obtain ⟨env, skipped, rfl⟩ := first.same
  have unseen_first : tenant ∉ seen := fun looked => fresh (h.split ▸ List.mem_append_left _ looked)
  have not_taken : tenant ∉ tenantsOf block := fun went => unseen_first (h.mem_seen went)
  refine ⟨?_, ?_, ?_, h.cursor, ?_, ?_, h.remaining, h.spent, ?_, ?_, h.capped, h.kept, h.left⟩
  · rw [h.split, List.cons_append]
  · rw [h.turns]
    simp [TickState.turns, TickStep.turn?]
  · exact h.sublist.cons _
  · intro other
    rw [h.owed, OrdSet.mem_insert_iff, List.mem_cons]
    tauto
  · intro other
    rw [h.parked, OrdSet.mem_insert_iff, List.mem_cons]
    constructor
    · rintro ((rfl | before) | now)
      · exact .inr ⟨.inl rfl, not_taken⟩
      · exact .inl before
      · exact .inr ⟨.inr now.1, now.2⟩
    · rintro (before | ⟨rfl | now, untaken⟩)
      · exact .inl (.inr before)
      · exact .inl (.inl rfl)
      · exact .inr ⟨now, untaken⟩
  · intro more _
    -- with the budget spent behind a capped tenant, somebody after it was looked at
    have looked : seen ≠ [] := by
      rintro rfl
      have spent := h.spent more
      have remaining := h.remaining
      have budget := first.budget
      have nobody : tenantsOf block = [] := List.sublist_nil.mp h.sublist
      rw [List.map_eq_nil_iff.mp nobody, spent] at remaining
      exact absurd remaining budget.ne
    rw [h.last more looked, List.getLast?_cons_of_ne_nil looked]
  · intro other looked admits
    rcases List.mem_cons.mp looked with rfl | later
    · have answer := first.answer
      rw [admits] at answer
      cases answer
    · exact h.admitted other later admits

theorem cons_dispatched {turn : Turn} (fresh : turn.tenant ∉ order)
    (first : Dispatched seams nowMs st st1 turn)
    (h : Passed seams st1 st' order seen unseen block) :
    Passed seams st st' (turn.tenant :: order) (turn.tenant :: seen) unseen (turn :: block) := by
  obtain ⟨env, same⟩ := first.same
  have unseen_first : turn.tenant ∉ seen :=
    fun looked => fresh (h.split ▸ List.mem_append_left _ looked)
  have later : turn.tenant ∉ tenantsOf block := fun went => unseen_first (h.mem_seen went)
  refine ⟨?_, ?_, ?_, ?_, ?_, ?_, ?_, h.spent, ?_, ?_, ?_, ?_, ?_⟩
  · rw [h.split, List.cons_append]
  · rw [h.turns, same]
    simp [TickState.turns, TickStep.turn?]
  · exact h.sublist.cons_cons _
  · rw [h.cursor, same, tenantsOf_cons, List.getLast?_cons]
    cases (tenantsOf block).getLast? <;> rfl
  · intro other
    rw [h.owed, same, tenantsOf_cons, OrdSet.mem_erase_iff, List.mem_cons, List.mem_cons]
    by_cases its : turn.tenant = other
    · subst its
      simp [unseen_first]
    · simp [its, Ne.symm its]
  · intro other
    rw [h.parked, same, tenantsOf_cons, List.mem_cons, List.mem_cons]
    by_cases its : turn.tenant = other
    · subst its
      simp [unseen_first]
    · simp [Ne.symm its]
  · rw [List.length_cons, first.budget, ← h.remaining, Nat.add_assoc]
  · intro more _
    rw [tenantsOf_cons]
    by_cases looked : seen = []
    · subst looked
      rw [List.sublist_nil.mp h.sublist]
    · have last := h.last more looked
      rw [List.getLast?_cons, List.getLast?_cons, last]
  · intro other looked admits
    rcases List.mem_cons.mp looked with rfl | behind
    · exact List.mem_cons_self
    · exact List.mem_cons_of_mem _ (h.admitted other behind admits)
  · intro other caps went
    rcases List.mem_cons.mp went with rfl | behind
    · have answer := first.answer
      rw [caps] at answer
      cases answer
    · exact h.capped other caps behind
  · intro other untaken
    obtain ⟨apart, behind⟩ := not_or.mp (mt List.mem_cons.mpr untaken)
    rw [h.kept other behind, same]
    exact first.others other (Ne.symm apart)
  · intro before its after split other gone
    cases before with
    | nil =>
      obtain ⟨rfl, rfl⟩ := List.cons.inj split
      rw [h.kept other gone, same]
    | cons head before => exact h.left before its after (List.cons.inj split).2 other gone

end Passed

/-- **A pass over tenants with work that are not parked**, with an accepting dispatch. -/
theorem foldl_turn_passed (nowMs : Nat) (st : TickState E) (accepts : seams.Accepts)
    {order : List TenantId} (nodup : order.Nodup)
    (ready : ∀ tenant ∈ order, st.sched.queues.queue tenant ≠ [] ∧ tenant ∉ st.parked) :
    ∃ seen unseen block,
      Passed seams st (order.foldl (turn seams nowMs) st) order seen unseen block := by
  induction order generalizing st with
  | nil => exact ⟨[], [], [], .nothing [] fun h => absurd rfl h⟩
  | cons tenant order ih =>
    obtain ⟨fresh, nodup⟩ := List.nodup_cons.mp nodup
    by_cases spent : st.remaining = 0
    · rw [foldl_turn_spent spent]
      exact ⟨[], tenant :: order, [], .nothing _ fun _ => spent⟩
    rw [List.foldl_cons]
    obtain ⟨busy, free⟩ := ready tenant List.mem_cons_self
    have behind : ∀ other ∈ order, tenant ≠ other := fun other listed same => fresh (same ▸ listed)
    rcases turn_cases seams nowMs st tenant with idle | capped | refused | ⟨item, left, took⟩
    · rcases idle.why with out | parked | empty
      · exact absurd out spent
      · exact absurd parked free
      · exact absurd empty busy
    · obtain ⟨env, skipped, same⟩ := capped.same
      obtain ⟨seen, unseen, block, passed⟩ := ih (turn seams nowMs st tenant) nodup (by
        intro other listed
        rw [same, OrdSet.mem_insert_iff]
        obtain ⟨busy, free⟩ := ready other (List.mem_cons_of_mem _ listed)
        exact ⟨busy, not_or.mpr ⟨behind other listed, free⟩⟩)
      exact ⟨_, _, _, passed.cons_capped fresh capped⟩
    · obtain ⟨env, item, -, no⟩ := refused.answer
      rw [accepts] at no
      cases no
    · obtain ⟨env, same⟩ := took.same
      obtain ⟨seen, unseen, block, passed⟩ := ih (turn seams nowMs st tenant) nodup (by
        intro other listed
        rw [same]
        obtain ⟨busy, free⟩ := ready other (List.mem_cons_of_mem _ listed)
        rw [← took.others other (behind other listed)] at busy
        exact ⟨busy, free⟩)
      exact ⟨_, _, _, passed.cons_dispatched fresh took⟩

/-! ## Chains of passes -/

/-- **One pass, seen by a tenant that is always admitted.** -/
structure Round (waiting : TenantId) (start after : FairScheduler)
    (order seen unseen : List TenantId) (block : List Turn) : Prop where
  rivals : order.Pairwise fun tenant waiting => start.Rival waiting tenant
  nodup : order.Nodup
  work : ∀ tenant ∈ order, start.queues.queue tenant ≠ []
  listed : start.queues.queue waiting ≠ [] → waiting ∈ order
  split : order = seen ++ unseen
  sublist : (tenantsOf block).Sublist seen
  cursor : after.cursor = (tenantsOf block).getLast?.or start.cursor
  owed : ∀ tenant, tenant ∈ after.owedSkip ↔
    (tenant ∈ start.owedSkip ∨ tenant ∈ seen) ∧ tenant ∉ tenantsOf block
  last : unseen ≠ [] → seen ≠ [] → (tenantsOf block).getLast? = seen.getLast?
  admitted : waiting ∈ seen → waiting ∈ tenantsOf block
  kept : ∀ tenant, tenant ∉ tenantsOf block →
    after.queues.queue tenant = start.queues.queue tenant
  left : ∀ earlier turn later, block = earlier ++ turn :: later →
    ∀ tenant, tenant ∉ tenantsOf later → turn.left.queue tenant = after.queues.queue tenant

/-- Between two passes: the cursor stays, and nobody with work loses its work or an owed turn. -/
structure Eased (start after : FairScheduler) : Prop where
  cursor : after.cursor = start.cursor
  owed : ∀ tenant, tenant ∈ after.owedSkip → tenant ∈ start.owedSkip
  keeps : ∀ tenant ∈ start.owedSkip, start.queues.queue tenant ≠ [] → tenant ∈ after.owedSkip
  work : ∀ tenant, start.queues.queue tenant ≠ [] → after.queues.queue tenant ≠ []

/-- A run of the scheduler as a chain of passes, with the dispatches of each. -/
inductive Chain (R : FairScheduler → FairScheduler → List Turn → Prop) :
    FairScheduler → FairScheduler → List (List Turn) → Prop
  | done (self : FairScheduler) : Chain R self self []
  | ease {self between after : FairScheduler} {blocks : List (List Turn)} :
      Eased self between → Chain R between after blocks → Chain R self after blocks
  | round {self between after : FairScheduler} {block : List Turn} {blocks : List (List Turn)} :
      R self between block → Chain R between after blocks → Chain R self after (block :: blocks)

variable {R : FairScheduler → FairScheduler → List Turn → Prop}

theorem Chain.append {self between after : FairScheduler} {blocks more : List (List Turn)}
    (h : Chain R self between blocks) (h' : Chain R between after more) :
    Chain R self after (blocks ++ more) := by
  induction h with
  | done => exact h'
  | ease eased _ ih => exact .ease eased (ih h')
  | round first _ ih => exact .round first (ih h')

theorem pass_round (nowMs : Nat) {waiting : TenantId} (accepts : seams.Accepts)
    (admits : seams.Admits waiting) (free : waiting ∉ st.parked) : ∃ seen unseen block,
      Passed seams st (pass seams nowMs (st.sched.rotationOrder st.parked) st)
        (st.sched.rotationOrder st.parked) seen unseen block ∧
      Round waiting st.sched (pass seams nowMs (st.sched.rotationOrder st.parked) st).sched
        (st.sched.rotationOrder st.parked) seen unseen block := by
  obtain ⟨seen, unseen, block, passed⟩ := foldl_turn_passed nowMs
    { st with progressed := false } accepts (rotationOrder_nodup st.sched st.parked)
    (fun tenant listed => mem_rotationOrder.mp listed)
  refine ⟨seen, unseen, block, ?_, ?_⟩
  · exact ⟨passed.split, passed.turns, passed.sublist, passed.cursor, passed.owed, passed.parked,
      passed.remaining, passed.spent, passed.last, passed.admitted, passed.capped, passed.kept,
      passed.left⟩
  · exact {
      rivals := rotationOrder_rivals _ _
      nodup := rotationOrder_nodup _ _
      work := fun tenant listed => (mem_rotationOrder.mp listed).1
      listed := fun busy => mem_rotationOrder.mpr ⟨busy, free⟩
      split := passed.split
      sublist := passed.sublist
      cursor := passed.cursor
      owed := passed.owed
      last := passed.last
      admitted := fun looked => passed.admitted waiting looked admits
      kept := passed.kept
      left := passed.left }

theorem passes_chain (Inv : TickState E → Prop) (link : ∀ st, Inv st →
      Inv (pass seams nowMs (st.sched.rotationOrder st.parked) st) ∧
      ∃ block, R st.sched (pass seams nowMs (st.sched.rotationOrder st.parked) st).sched block ∧
        (pass seams nowMs (st.sched.rotationOrder st.parked) st).turns = st.turns ++ block)
    (fuel : Nat) (h : Inv st) :
    ∃ blocks, Chain R st.sched (passes seams nowMs fuel st).sched blocks ∧
      (passes seams nowMs fuel st).turns = st.turns ++ blocks.flatten := by
  have stop : ∀ st : TickState E, ∃ blocks, Chain R st.sched st.sched blocks ∧
      st.turns = st.turns ++ blocks.flatten :=
    fun st => ⟨[], .done _, (List.append_nil _).symm⟩
  induction fuel generalizing st with
  | zero => exact stop st
  | succ fuel ih =>
    unfold passes
    by_cases spent : st.remaining = 0
    · rw [if_pos spent]
      exact stop st
    rw [if_neg spent]
    dsimp only
    by_cases nobody : (st.sched.rotationOrder st.parked).isEmpty = true
    · rw [if_pos nobody]
      exact stop st
    rw [if_neg nobody]
    obtain ⟨kept, block, linked, turns⟩ := link st h
    split
    · obtain ⟨blocks, chain, rest⟩ := ih kept
      refine ⟨block :: blocks, .round linked chain, ?_⟩
      rw [rest, turns, List.flatten_cons, List.append_assoc]
    · refine ⟨[block], .round linked (.done _), ?_⟩
      rw [turns, List.flatten_singleton]

theorem tick_chain (Inv : TickState E → Prop) (link : ∀ st, Inv st →
      Inv (pass seams nowMs (st.sched.rotationOrder st.parked) st) ∧
      ∃ block, R st.sched (pass seams nowMs (st.sched.rotationOrder st.parked) st).sched block ∧
        (pass seams nowMs (st.sched.rotationOrder st.parked) st).turns = st.turns ++ block)
    {self : FairScheduler} {env : E} (h : Inv (self.tickStart env)) :
    ∃ blocks, Chain R self (self.tick seams nowMs env).2.1 blocks ∧
      (self.tickEnd seams nowMs env).turns = blocks.flatten := by
  obtain ⟨blocks, chain, turns⟩ := passes_chain Inv link self.globalSlots h
  refine ⟨blocks, ?_, turns⟩
  have eased : Eased (self.tickEnd seams nowMs env).sched (self.tick seams nowMs env).2.1 := by
    refine ⟨rfl, ?_, ?_, fun tenant busy => busy⟩
    · intro tenant owed
      exact ((OrdSet.mem_filter_iff _ _ _).mp owed).1
    · intro tenant owed busy
      refine (OrdSet.mem_filter_iff _ _ _).mpr ⟨owed, ?_⟩
      exact decide_eq_true (List.length_pos_iff.mpr busy)
  have ended := chain.append (.ease eased (.done _))
  rw [List.append_nil] at ended
  exact ended

end FairScheduler

theorem SchedLog.run_chain {E : Type} {R : FairScheduler → FairScheduler → List Turn → Prop}
    {P : SchedLog → SchedEvent E → Prop} {log : SchedLog} {events : List (SchedEvent E)}
    (ticks : ∀ (log : SchedLog) nowMs seams env, P log (.tick nowMs seams env) →
      ∃ blocks, FairScheduler.Chain R log.sched (log.sched.tick seams nowMs env).2.1 blocks ∧
        (log.sched.tickEnd seams nowMs env).turns = blocks.flatten)
    (along : Along step P log events) :
    ∃ blocks, FairScheduler.Chain R log.sched (events.foldl step log).sched blocks ∧
      (events.foldl step log).turns = log.turns ++ blocks.flatten := by
  induction events generalizing log with
  | nil => exact ⟨[], .done _, (List.append_nil _).symm⟩
  | cons event events ih =>
    obtain ⟨now, later⟩ := along
    obtain ⟨blocks, chain, turns⟩ := ih later
    rw [List.foldl_cons]
    cases event with
    | enqueue item =>
      rcases log.step_enqueue (E := E) item with refused | ⟨queues, behind, same⟩
      · rw [refused] at chain turns ⊢
        exact ⟨blocks, chain, turns⟩
      · have eased :
            FairScheduler.Eased log.sched (log.step (.enqueue item : SchedEvent E)).sched := by
          rw [same]
          refine ⟨rfl, fun _ owed => owed, fun _ owed _ => owed, ?_⟩
          intro tenant busy
          rw [behind tenant]
          split
          · simp
          · exact busy
        refine ⟨blocks, .ease eased chain, ?_⟩
        rw [turns, same]
    | tick nowMs seams env =>
      obtain ⟨first, ticked, its⟩ := ticks log nowMs seams env now
      refine ⟨first ++ blocks, ticked.append chain, ?_⟩
      rw [turns, List.flatten_append, ← its, ← List.append_assoc]
      rfl

end CorelinkRunners
