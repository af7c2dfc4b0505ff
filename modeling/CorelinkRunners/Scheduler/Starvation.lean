import CorelinkRunners.Scheduler.Passes

/-!
# Nobody starves

A tenant that keeps work and always passes its cap check waits for a bounded number of dispatches.
Redeeming an owed turn can move the cursor back, so the rotation alone gives no bound. What runs
down is `pressure`, the weighed set of those that may still go before the waiting tenant.
-/

namespace CorelinkRunners

open Kit

namespace FairScheduler

variable {tenants : Finset TenantId} {waiting : TenantId} {self after : FairScheduler}
  {order seen unseen : List TenantId} {block : List Turn}

open Classical in
/-- The weight of everyone that may go before the waiting tenant. -/
noncomputable def pressure (tenants : Finset TenantId) (waiting : TenantId)
    (self : FairScheduler) : Nat :=
  ∑ tenant ∈ tenants.filter fun tenant => tenant ≠ waiting ∧ self.Rival waiting tenant,
    Rotation.weight tenants (Rotation.lap waiting) tenant

open Classical in
theorem pressure_lt (tenants : Finset TenantId) (waiting : TenantId) (self : FairScheduler) :
    pressure tenants waiting self < 2 ^ tenants.card := by
  have whole := Rotation.sum_weight (U := tenants) (Rotation.lap_injective (t := waiting))
  have part : pressure tenants waiting self ≤
      ∑ tenant ∈ tenants, Rotation.weight tenants (Rotation.lap waiting) tenant :=
    Finset.sum_le_sum_of_subset (Finset.filter_subset _ _)
  omega

namespace Round

variable (h : Round waiting self after order seen unseen block)
include h

theorem block_nodup : (tenantsOf block).Nodup := by
  have seen_nodup : seen.Nodup := (List.nodup_append.mp (h.split ▸ h.nodup)).1
  exact h.sublist.nodup seen_nodup

theorem mem_order {tenant : TenantId} (looked : tenant ∈ seen) : tenant ∈ order := by
  rw [h.split]
  exact List.mem_append_left _ looked

theorem block_length_le (within : ∀ tenant, self.queues.queue tenant ≠ [] → tenant ∈ tenants) :
    block.length ≤ tenants.card := by
  have length : block.length = (tenantsOf block).length := (List.length_map _).symm
  rw [length, ← List.toFinset_card_of_nodup h.block_nodup]
  refine Finset.card_le_card fun tenant went => within tenant (h.work tenant ?_)
  exact h.mem_order (h.sublist.subset (List.mem_toFinset.mp went))

theorem unseen_of_skipped (busy : self.queues.queue waiting ≠ [])
    (skipped : waiting ∉ tenantsOf block) : waiting ∉ seen ∧ waiting ∈ unseen := by
  have not_seen : waiting ∉ seen := fun looked => skipped (h.admitted looked)
  have listed := h.listed busy
  rw [h.split] at listed
  exact ⟨not_seen, (List.mem_append.mp listed).resolve_left not_seen⟩

theorem seen_rivals (behind : waiting ∈ unseen) {tenant : TenantId} (looked : tenant ∈ seen) :
    self.Rival waiting tenant := by
  have pairs := h.rivals
  rw [h.split, List.pairwise_append] at pairs
  exact pairs.2.2 tenant looked waiting behind

theorem owed_waiting_iff (not_seen : waiting ∉ seen) (skipped : waiting ∉ tenantsOf block) :
    waiting ∈ after.owedSkip ↔ waiting ∈ self.owedSkip := by
  rw [h.owed]
  simp [not_seen, skipped]

/-- **A pass that does not reach the waiting tenant pays for its dispatches.** -/
theorem pressure_add_le (within : ∀ tenant, self.queues.queue tenant ≠ [] → tenant ∈ tenants)
    (busy : self.queues.queue waiting ≠ []) (skipped : waiting ∉ tenantsOf block) :
    pressure tenants waiting after + block.length ≤ pressure tenants waiting self := by
  classical
  obtain ⟨not_seen, behind⟩ := h.unseen_of_skipped busy skipped
  have more : unseen ≠ [] := List.ne_nil_of_mem behind
  have still_owed := h.owed_waiting_iff not_seen skipped
  have rival : ∀ {tenant}, tenant ∈ seen → tenant ∈ tenants.filter fun tenant =>
      tenant ≠ waiting ∧ self.Rival waiting tenant := by
    intro tenant looked
    refine Finset.mem_filter.mpr ⟨within tenant (h.work tenant (h.mem_order looked)), ?_, ?_⟩
    · rintro rfl
      exact not_seen looked
    · exact h.seen_rivals behind looked
  cases last : (tenantsOf block).getLast? with
  | none =>
    -- nobody was looked at, so nothing changed
    have none_went : tenantsOf block = [] := List.getLast?_eq_none_iff.mp last
    have none_seen : seen = [] := by
      by_contra looked
      have := h.last more looked
      rw [last] at this
      exact looked (List.getLast?_eq_none_iff.mp this.symm)
    have same : ∀ tenant, after.Rival waiting tenant ↔ self.Rival waiting tenant := by
      intro tenant
      unfold Rival
      rw [h.owed, h.owed, h.cursor, none_went, none_seen]
      simp
    have empty : block.length = 0 := by
      rw [List.map_eq_nil_iff.mp none_went]
      rfl
    rw [empty, Nat.add_zero]
    unfold pressure
    simp only [same, le_refl]
  | some final =>
    have final_went : final ∈ tenantsOf block := List.mem_of_getLast? last
    have length : (tenantsOf block).toFinset.card = block.length := by
      rw [List.toFinset_card_of_nodup h.block_nodup]
      exact List.length_map _
    rw [← length]
    refine Rotation.countdown Rotation.lap_injective (Finset.filter_subset _ _) ?_
      (List.mem_toFinset.mpr final_went) ?_
    · intro tenant went
      exact rival (h.sublist.subset (List.mem_toFinset.mp went))
    · intro tenant left
      obtain ⟨known, apart, ahead⟩ := Finset.mem_filter.mp left
      rw [List.mem_toFinset]
      unfold Rival at ahead
      rw [h.owed, still_owed, h.cursor, last] at ahead
      rcases ahead with ⟨owed, untaken⟩ | ⟨not_owed, met⟩
      · refine .inl ⟨?_, untaken⟩
        rcases owed with before | now
        · exact Finset.mem_filter.mpr ⟨known, apart, .inl before⟩
        · exact rival now
      · refine .inr (met.above_cursor ?_)
        rintro rfl
        exact skipped final_went

end Round

theorem Eased.pressure_le (tenants : Finset TenantId) (h : Eased self after)
    (busy : self.queues.queue waiting ≠ []) :
    pressure tenants waiting after ≤ pressure tenants waiting self := by
  classical
  refine Finset.sum_le_sum_of_subset ?_
  intro tenant
  rw [Finset.mem_filter, Finset.mem_filter]
  rintro ⟨known, apart, rival⟩
  refine ⟨known, apart, ?_⟩
  unfold Rival at rival ⊢
  rcases rival with owed | ⟨free, ahead⟩
  · exact .inl (h.owed tenant owed)
  · refine .inr ⟨fun owed => free (h.keeps waiting owed busy), ?_⟩
    rw [← h.cursor]
    exact ahead

/-! ## Along a chain of passes -/

def KnownRound (tenants : Finset TenantId) (waiting : TenantId) (self after : FairScheduler)
    (block : List Turn) : Prop :=
  (∀ tenant, self.queues.queue tenant ≠ [] → tenant ∈ tenants) ∧
    ∃ order seen unseen, Round waiting self after order seen unseen block

variable {blocks : List (List Turn)} {mid later : List Turn}

/-- From a moment at which the waiting tenant has work, the dispatches before its own are paid for
by the pressure on it; the pass that reaches it adds at most one for each tenant. -/
theorem Chain.length_le (chain : Chain (KnownRound tenants waiting) self after blocks)
    (busy : self.queues.queue waiting ≠ []) (split : blocks.flatten = mid ++ later)
    (skipped : waiting ∉ tenantsOf mid) :
    mid.length ≤ pressure tenants waiting self + tenants.card := by
  induction chain generalizing mid with
  | done =>
    have empty : mid = [] := (List.append_eq_nil_iff.mp split.symm).1
    rw [empty]
    exact Nat.zero_le _
  | ease eased _ ih =>
    have := ih (eased.work waiting busy) split skipped
    have := eased.pressure_le tenants busy
    omega
  | round first _ ih =>
    obtain ⟨within, order, seen, unseen, round⟩ := first
    have short := round.block_length_le within
    rw [List.flatten_cons] at split
    rcases List.append_eq_append_iff.mp split with ⟨rest, rfl, more⟩ | ⟨rest, whole, -⟩
    · -- the whole pass lies before the waiting tenant's turn
      rw [tenantsOf_append, List.mem_append, not_or] at skipped
      have paid := round.pressure_add_le within busy skipped.1
      have kept := round.kept waiting skipped.1
      have := ih (kept ▸ busy) more skipped.2
      rw [List.length_append]
      omega
    · have := congrArg List.length whole
      rw [List.length_append] at this
      omega

theorem Chain.gap_lt (chain : Chain (KnownRound tenants waiting) self after blocks)
    {earlier : List Turn} (split : blocks.flatten = earlier ++ (mid ++ later))
    (busy : ∀ turn ∈ mid, turn.left.queue waiting ≠ []) (skipped : waiting ∉ tenantsOf mid) :
    mid.length < 2 ^ tenants.card + 2 * tenants.card := by
  have power : 0 < 2 ^ tenants.card := Nat.two_pow_pos _
  induction chain generalizing earlier with
  | done =>
    have empty : mid = [] :=
      (List.append_eq_nil_iff.mp (List.append_eq_nil_iff.mp split.symm).2).1
    rw [empty]
    exact Nat.add_pos_left power _
  | ease _ _ ih => exact ih split
  | @round _ between _ block blocks first rest_chain ih =>
    obtain ⟨within, order, seen, unseen, round⟩ := first
    have short := round.block_length_le within
    rw [List.flatten_cons] at split
    rcases List.append_eq_append_iff.mp split with ⟨rest, rfl, more⟩ | ⟨part, whole, more⟩
    · exact ih more
    by_cases begun : part = []
    · subst begun
      have next_pass : blocks.flatten = [] ++ (mid ++ later) := more.symm
      exact ih next_pass
    -- the stretch starts within this pass
    have sizes := congrArg List.length whole
    rw [List.length_append] at sizes
    rcases List.append_eq_append_iff.mp more with ⟨rest, inside, -⟩ | ⟨rest, rfl, last⟩
    · have := congrArg List.length inside
      rw [List.length_append] at this
      omega
    · -- after the last dispatch of this pass the tenant still has work
      rw [tenantsOf_append, List.mem_append, not_or] at skipped
      obtain ⟨front, final, rfl⟩ := List.eq_nil_or_concat part |>.resolve_left begun
      have work := busy final (by simp)
      rw [round.left (earlier ++ front) final [] (by rw [whole]; simp) waiting (by simp)] at work
      have rest_le := rest_chain.length_le work last skipped.2
      have := pressure_lt tenants waiting between
      rw [List.length_append]
      omega

/-! ## Ticks and runs -/

def Known (tenants : Finset TenantId) (self : FairScheduler) : Prop :=
  ∀ tenant, self.queues.queue tenant ≠ [] → tenant ∈ tenants

variable {E : Type} {seams : Seams E} {nowMs : Nat} {env : E}

theorem Known.tick (h : Known tenants self) : Known tenants (self.tick seams nowMs env).2.1 := by
  intro tenant busy
  refine h tenant fun empty => busy ?_
  have conserved := (Ticking.atEnd seams nowMs self env).conserved tenant
  rw [empty] at conserved
  exact (List.append_eq_nil_iff.mp conserved).2

theorem known_chain (accepts : seams.Accepts) (admits : seams.Admits waiting)
    (known : Known tenants self) :
    ∃ blocks, Chain (KnownRound tenants waiting) self (self.tick seams nowMs env).2.1 blocks ∧
      (self.tickEnd seams nowMs env).turns = blocks.flatten := by
  refine tick_chain (fun st => waiting ∉ st.parked ∧ Known tenants st.sched) ?_
    ⟨by simp [tickStart], known⟩
  rintro st ⟨free, known⟩
  obtain ⟨seen, unseen, block, passed, round⟩ := pass_round nowMs accepts admits free
  refine ⟨⟨?_, ?_⟩, block, ⟨known, _, seen, unseen, round⟩, passed.turns⟩
  · rw [passed.parked]
    rintro (before | ⟨looked, skipped⟩)
    · exact free before
    · exact skipped (round.admitted looked)
  · intro tenant busy
    by_cases went : tenant ∈ tenantsOf block
    · exact known tenant (round.work tenant (round.mem_order (round.sublist.subset went)))
    · rw [round.kept tenant went] at busy
      exact known tenant busy

end FairScheduler

namespace SchedEvent

variable {E : Type}

def Within (tenants : Finset TenantId) : SchedEvent E → Prop
  | enqueue item => item.tenant ∈ tenants
  | tick _ _ _ => True

/-- The tick's cap check lets the tenant through, and its dispatch accepts. -/
def Favours (waiting : TenantId) : SchedEvent E → Prop
  | enqueue _ => True
  | tick _ seams _ => seams.Admits waiting ∧ seams.Accepts

end SchedEvent

theorem SchedLog.step_known {E : Type} {tenants : Finset TenantId} {log : SchedLog}
    {event : SchedEvent E} (h : log.sched.Known tenants) (within : event.Within tenants) :
    (log.step event).sched.Known tenants := by
  cases event with
  | enqueue item =>
    rcases log.step_enqueue (E := E) item with refused | ⟨queues, behind, same⟩
    · rw [refused]
      exact h
    · rw [same]
      intro tenant busy
      rw [behind tenant] at busy
      split at busy
      next its => exact its ▸ within
      · exact h tenant busy
  | tick nowMs seams env => exact h.tick

/-- How many dispatches can pass by one of `count` tenants. -/
def starvationBound (count : Nat) : Nat := 2 ^ count + 2 * count

/-- **Nobody starves.** Over at most `count` tenants, a tenant that has work throughout a stretch of
dispatches and passes the cap check of its ticks is dispatched in it, as soon as the stretch is
`starvationBound count` long. -/
theorem starvation_free {E : Type} (globalSlots count : Nat) (tenants : Finset TenantId)
    (few : tenants.card ≤ count) (earlier later : List (SchedEvent E))
    (known : ∀ event ∈ earlier ++ later, event.Within tenants) (waiting : TenantId)
    (favoured : ∀ event ∈ later, event.Favours waiting) (before mid after : List Turn)
    (stretch : (SchedLog.run globalSlots (earlier ++ later)).turns =
      (SchedLog.run globalSlots earlier).turns ++ (before ++ (mid ++ after)))
    (busy : ∀ turn ∈ mid, 0 < turn.left.pending waiting)
    (long : starvationBound count ≤ mid.length) : waiting ∈ tenantsOf mid := by
  have start : (SchedLog.run globalSlots earlier).sched.Known tenants := by
    refine List.foldlRecOn (motive := fun log : SchedLog => log.sched.Known tenants) earlier _ ?_ ?_
    · intro tenant work
      exact absurd (TenantQueues.queue_new tenant) work
    · intro log h event listed
      exact SchedLog.step_known h (known event (List.mem_append_left _ listed))
  have along : Along SchedLog.step (fun log event =>
      log.sched.Known tenants ∧ event.Within tenants ∧ event.Favours waiting)
      (SchedLog.run globalSlots earlier) later := by
    refine Along.of_invariant (fun log : SchedLog => log.sched.Known tenants) ?_ ?_ start
    · intro log event h each
      exact SchedLog.step_known h each.1
    · intro event listed
      exact ⟨known event (List.mem_append_right _ listed), favoured event listed⟩
  obtain ⟨blocks, chain, turns⟩ :=
    SchedLog.run_chain (R := FairScheduler.KnownRound tenants waiting)
    (fun log nowMs seams env ⟨known, _, admits, accepts⟩ =>
      FairScheduler.known_chain accepts admits known) along
  have same : SchedLog.run globalSlots (earlier ++ later) =
      later.foldl SchedLog.step (SchedLog.run globalSlots earlier) := List.foldl_append
  rw [same, turns] at stretch
  by_contra skipped
  have gap := chain.gap_lt (List.append_cancel_left stretch)
    (fun turn listed => List.length_pos_iff.mp (busy turn listed)) skipped
  have power : 2 ^ tenants.card ≤ 2 ^ count := Nat.pow_le_pow_right (by norm_num) few
  unfold starvationBound at long
  omega

namespace Contention

def alpha : TenantId := ⟨"alpha", by decide, by decide⟩

def beta : TenantId := ⟨"beta", by decide, by decide⟩

/-- Closures that cap the listed tenants and accept every dispatch. -/
def capping (closed : List TenantId) : Seams Unit where
  capCheck env tenant := (decide (tenant ∉ closed), env)
  dispatch env _ := (true, env)

def fiveEach : List (SchedEvent Unit) :=
  List.replicate 5 (.enqueue ⟨"a", alpha, 0⟩) ++ List.replicate 5 (.enqueue ⟨"b", beta, 0⟩)

def openTick : List (SchedEvent Unit) := [.tick 1000 (capping []) ()]

/-- Nine dispatches between two tenants with five items each: the first eight reach `alpha`. -/
theorem starvation_free_fiveEach :
    alpha ∈ tenantsOf ((SchedLog.run 9 (fiveEach ++ openTick)).turns.take (starvationBound 2)) := by
  refine starvation_free 9 2 {alpha, beta} (by decide) fiveEach openTick ?_ alpha ?_ [] _
    ((SchedLog.run 9 (fiveEach ++ openTick)).turns.drop (starvationBound 2)) ?_ ?_ ?_
  · intro event listed
    simp only [fiveEach, openTick, List.mem_append, List.mem_replicate,
      List.mem_singleton] at listed
    rcases listed with (⟨-, rfl⟩ | ⟨-, rfl⟩) | rfl
    · exact Finset.mem_insert_self _ _
    · exact Finset.mem_insert_of_mem (Finset.mem_singleton_self _)
    · exact trivial
  · intro event listed
    rw [List.mem_singleton.mp listed]
    exact ⟨fun _ => rfl, fun _ _ => rfl⟩
  · have none_yet : (SchedLog.run 9 fiveEach).turns = [] := by rfl
    rw [none_yet]
    exact (List.take_append_drop _ _).symm
  · decide +kernel
  · decide +kernel

end Contention

end CorelinkRunners
