import CorelinkRunners.Scheduler.Starvation

/-!
# One turn each

As long as no owed turn is redeemed, the rotation is strict: between two dispatches of a tenant with
work every other tenant goes at most once. `Climbing` is the state of such a wait: the dispatches
since the tenant's own go up along the walk that ends at it.

A redeemed turn breaks this. It is taken ahead of the rotation and still moves the cursor, so the
next order starts from the wrong place (`redeemed_turn_doubles`).
-/

namespace CorelinkRunners

open Kit

namespace FairScheduler

variable {waiting : TenantId} {self after : FairScheduler} {order seen unseen : List TenantId}
  {block : List Turn} {since went : List TenantId}

/-- Since its last turn the tenant has had work, and the others went up along its walk. -/
structure Climbing (waiting : TenantId) (sched : FairScheduler) (since : List TenantId) :
    Prop where
  busy : sched.queues.queue waiting ≠ []
  not_owed : waiting ∉ sched.owedSkip
  climbing : since.Pairwise fun x y => Rotation.lap waiting x < Rotation.lap waiting y
  others : waiting ∉ since
  cursor : sched.cursor = some (since.getLast?.getD waiting)

theorem Rival.ahead {tenant : TenantId} (h : self.Rival waiting tenant)
    (free : tenant ∉ self.owedSkip) : Rotation.Ahead self.cursor waiting tenant :=
  (h.resolve_left free).2

theorem Climbing.further (h : Climbing waiting self since)
    (order : went.Pairwise fun tenant next => self.Rival next tenant)
    (ahead : ∀ tenant ∈ went, self.Rival waiting tenant)
    (free : ∀ tenant ∈ went, tenant ∉ self.owedSkip) :
    (since ++ went).Pairwise fun x y => Rotation.lap waiting x < Rotation.lap waiting y := by
  refine List.pairwise_append.mpr ⟨h.climbing, ?_, ?_⟩
  · refine order.imp_of_mem ?_
    intro x y hx hy rival
    exact ((ahead y hy).ahead (free y hy)).before (rival.ahead (free x hx))
  · intro x hx y hy
    -- the cursor stands at the last of those who went
    obtain ⟨front, last, rfl⟩ :=
      (List.eq_nil_or_concat since).resolve_left (List.ne_nil_of_mem hx)
    have met := (ahead y hy).ahead (free y hy)
    rw [h.cursor, List.concat_eq_append, List.getLast?_concat, Option.getD_some] at met
    have above : Rotation.lap waiting last < Rotation.lap waiting y := by
      refine met.above_cursor ?_
      rintro rfl
      exact h.others (by simp)
    rw [List.concat_eq_append] at hx
    rcases List.mem_append.mp hx with before | now
    · have climbing := h.climbing
      rw [List.concat_eq_append, List.pairwise_append] at climbing
      exact (climbing.2.2 x before last (List.mem_singleton_self _)).trans above
    · rw [List.mem_singleton.mp now]
      exact above

namespace Round

variable (h : Round waiting self after order seen unseen block)
  (none_redeemed : ∀ tenant ∈ self.owedSkip, tenant ∉ tenantsOf block)
include h none_redeemed

omit none_redeemed in
theorem block_rivals : (tenantsOf block).Pairwise fun tenant next => self.Rival next tenant := by
  have pairs := h.rivals
  rw [h.split, List.pairwise_append] at pairs
  exact pairs.1.sublist h.sublist

theorem climbing (now : Climbing waiting self since) (skipped : waiting ∉ tenantsOf block) :
    Climbing waiting after (since ++ tenantsOf block) := by
  obtain ⟨not_seen, behind⟩ := h.unseen_of_skipped now.busy skipped
  refine ⟨?_, ?_, ?_, ?_, ?_⟩
  · rw [h.kept waiting skipped]
    exact now.busy
  · rw [h.owed_waiting_iff not_seen skipped]
    exact now.not_owed
  · exact now.further h.block_rivals
      (fun tenant went => h.seen_rivals behind (h.sublist.subset went))
      (fun tenant went owed => none_redeemed tenant owed went)
  · rw [List.mem_append, not_or]
    exact ⟨now.others, skipped⟩
  · rw [h.cursor, now.cursor, List.getLast?_append]
    cases (tenantsOf block).getLast? <;> rfl

theorem climbed (now : Climbing waiting self since) {rest : List TenantId}
    (reached : tenantsOf block = went ++ waiting :: rest) :
    (since ++ went).Pairwise fun x y => Rotation.lap waiting x < Rotation.lap waiting y := by
  have rivals := h.block_rivals
  rw [reached] at rivals none_redeemed
  obtain ⟨order, -, across⟩ := List.pairwise_append.mp rivals
  refine now.further order ?_ ?_
  · exact fun tenant gone => across tenant gone waiting List.mem_cons_self
  · exact fun tenant gone owed => none_redeemed tenant owed (List.mem_append_left _ gone)

theorem climbs_after {earlier later : List Turn} {own : Turn} (its : own.tenant = waiting)
    (split : block = earlier ++ own :: later) (busy : own.left.queue waiting ≠ []) :
    Climbing waiting after (tenantsOf later) := by
  have nodup := h.block_nodup
  have rivals := h.block_rivals
  have taken : waiting ∈ tenantsOf block := by rw [split, ← its]; simp
  have cursor := h.cursor
  rw [split, tenantsOf_append, tenantsOf_cons, its] at nodup rivals none_redeemed cursor
  have gone : waiting ∉ tenantsOf later :=
    (List.nodup_cons.mp (List.nodup_append.mp nodup).2.1).1
  obtain ⟨-, behind, -⟩ := List.pairwise_append.mp rivals
  obtain ⟨after_own, order⟩ := List.pairwise_cons.mp behind
  have own_free : waiting ∉ self.owedSkip := fun owed => none_redeemed waiting owed (by simp)
  refine ⟨?_, ?_, ?_, gone, ?_⟩
  · rw [← h.left earlier own later split waiting gone]
    exact busy
  · rw [h.owed]
    exact fun owed => owed.2 taken
  · refine order.imp_of_mem ?_
    intro x y hx hy rival
    have x_free : x ∉ self.owedSkip := fun owed => none_redeemed x owed (by simp [hx])
    exact ((after_own x hx).ahead own_free).behind (rival.ahead x_free)
  · rw [cursor, List.getLast?_append, List.getLast?_cons]
    rfl

end Round

theorem Eased.climbing (h : Eased self after) (now : Climbing waiting self since) :
    Climbing waiting after since :=
  ⟨h.work waiting now.busy, fun owed => now.not_owed (h.owed waiting owed), now.climbing,
    now.others, h.cursor.trans now.cursor⟩

/-! ## Along a chain of passes -/

def StrictRound (waiting : TenantId) (self after : FairScheduler) (block : List Turn) : Prop :=
  (∀ tenant ∈ self.owedSkip, tenant ∉ tenantsOf block) ∧
    ∃ order seen unseen, Round waiting self after order seen unseen block

theorem split_first {waiting : TenantId} {a b c d : List Turn} {x y : Turn}
    (same : a ++ x :: b = c ++ y :: d) (hx : x.tenant = waiting) (hy : y.tenant = waiting)
    (ha : waiting ∉ tenantsOf a) (hc : waiting ∉ tenantsOf c) : a = c := by
  rcases List.append_eq_append_iff.mp same with ⟨rest, rfl, more⟩ | ⟨rest, rfl, more⟩
  · cases rest with
    | nil => exact (List.append_nil a).symm
    | cons first rest =>
      obtain ⟨rfl, -⟩ := List.cons.inj more
      exact absurd (by simp [hx]) hc
  · cases rest with
    | nil => exact List.append_nil c
    | cons first rest =>
      obtain ⟨rfl, -⟩ := List.cons.inj more
      exact absurd (by simp [hy]) ha

theorem split_behind {waiting : TenantId} {a rest mid later : List Turn} {next : Turn}
    (same : a ++ rest = mid ++ next :: later) (its : next.tenant = waiting)
    (ha : waiting ∉ tenantsOf a) : ∃ more, mid = a ++ more ∧ rest = more ++ next :: later := by
  rcases List.append_eq_append_iff.mp same with ⟨more, rfl, behind⟩ | ⟨extra, rfl, behind⟩
  · exact ⟨more, rfl, behind⟩
  · cases extra with
    | nil => exact ⟨[], by simp, behind.symm⟩
    | cons head extra =>
      obtain ⟨rfl, -⟩ := List.cons.inj behind
      exact absurd (by simp [its]) ha

theorem Chain.climbed {blocks : List (List Turn)}
    (chain : Chain (StrictRound waiting) self after blocks)
    (now : Climbing waiting self since) {mid later : List Turn} {next : Turn}
    (its : next.tenant = waiting) (split : blocks.flatten = mid ++ next :: later)
    (between : waiting ∉ tenantsOf mid) : (since ++ tenantsOf mid).Pairwise fun x y =>
      Rotation.lap waiting x < Rotation.lap waiting y := by
  induction chain generalizing since mid with
  | done => exact absurd split (by simp)
  | ease eased _ ih => exact ih (eased.climbing now) split between
  | @round _ _ _ block _ first _ ih =>
    obtain ⟨strict, order, seen, unseen, round⟩ := first
    rw [List.flatten_cons] at split
    by_cases reached : waiting ∈ tenantsOf block
    · obtain ⟨own, listed, own_its⟩ := List.mem_map.mp reached
      obtain ⟨went, rest, rfl⟩ := List.append_of_mem listed
      have nodup := round.block_nodup
      rw [tenantsOf_append, tenantsOf_cons, own_its] at nodup
      have fresh : waiting ∉ tenantsOf went := fun gone =>
        (List.nodup_append.mp nodup).2.2 waiting gone waiting List.mem_cons_self rfl
      rw [List.append_assoc, List.cons_append] at split
      rw [← split_first split own_its its fresh between]
      exact round.climbed strict now (by rw [tenantsOf_append, tenantsOf_cons, own_its])
    · have whole := round.climbing strict now reached
      obtain ⟨rest, rfl, more⟩ := split_behind split its reached
      rw [tenantsOf_append, ← List.append_assoc]
      rw [tenantsOf_append, List.mem_append, not_or] at between
      exact ih whole more between.2

theorem Chain.nodup_between {blocks : List (List Turn)}
    (chain : Chain (StrictRound waiting) self after blocks) {earlier mid later : List Turn}
    {own next : Turn} (own_its : own.tenant = waiting) (its : next.tenant = waiting)
    (split : blocks.flatten = earlier ++ own :: (mid ++ next :: later))
    (busy : own.left.queue waiting ≠ []) (between : waiting ∉ tenantsOf mid) :
    (tenantsOf mid).Nodup := by
  induction chain generalizing earlier with
  | done => exact absurd split (by simp)
  | ease _ _ ih => exact ih split
  | @round _ _ _ _ blocks first rest ih =>
    obtain ⟨strict, order, seen, unseen, round⟩ := first
    rw [List.flatten_cons] at split
    rcases List.append_eq_append_iff.mp split with ⟨_, rfl, more⟩ | ⟨part, whole, more⟩
    · exact ih more
    cases part with
    | nil =>
      have next_pass : blocks.flatten = [] ++ own :: (mid ++ next :: later) := more.symm
      exact ih next_pass
    | cons head part =>
      obtain ⟨rfl, rest_same⟩ := List.cons.inj more
      have climbs := round.climbs_after strict own_its whole busy
      obtain ⟨behind, rfl, last⟩ := split_behind rest_same.symm its climbs.others
      rw [tenantsOf_append] at between ⊢
      rw [List.mem_append, not_or] at between
      exact (rest.climbed climbs its last between.2).imp fun lt same => (same ▸ lt).false

/-! ## Ticks and runs -/

variable {E : Type} {seams : Seams E} {nowMs : Nat}

theorem strict_chain {env : E} (accepts : seams.Accepts) (admits : seams.Admits waiting)
    (held : ∀ tenant ∈ self.owedSkip, seams.Caps tenant) :
    ∃ blocks, Chain (StrictRound waiting) self (self.tick seams nowMs env).2.1 blocks ∧
      (self.tickEnd seams nowMs env).turns = blocks.flatten := by
  refine tick_chain (fun st => waiting ∉ st.parked ∧
    ∀ tenant ∈ st.sched.owedSkip, tenant ∈ st.parked ∨ seams.Caps tenant) ?_
    ⟨by simp [tickStart], fun tenant owed => .inr (held tenant owed)⟩
  rintro st ⟨free, held⟩
  obtain ⟨seen, unseen, block, passed, round⟩ := pass_round nowMs accepts admits free
  have strict : ∀ tenant ∈ st.sched.owedSkip, tenant ∉ tenantsOf block := by
    intro tenant owed went
    rcases held tenant owed with parked | caps
    · exact (mem_rotationOrder.mp (round.mem_order (round.sublist.subset went))).2 parked
    · exact passed.capped tenant caps went
  refine ⟨⟨?_, ?_⟩, block, ⟨strict, _, seen, unseen, round⟩, passed.turns⟩
  · rw [passed.parked]
    rintro (before | ⟨looked, skipped⟩)
    · exact free before
    · exact skipped (round.admitted looked)
  · intro tenant owed
    rw [passed.parked]
    obtain ⟨before | looked, untaken⟩ := (passed.owed tenant).mp owed
    · exact (held tenant before).imp .inl id
    · exact .inl (.inr ⟨looked, untaken⟩)

end FairScheduler

/-- **No turn is redeemed**: the cap check of the tick holds back everyone that is owed one. -/
def SchedEvent.RedeemsNone {E : Type} (log : SchedLog) : SchedEvent E → Prop
  | enqueue _ => True
  | tick _ seams _ => ∀ tenant ∈ log.sched.owedSkip, seams.Caps tenant

/-- **One turn each.** While no owed turn is redeemed, between two dispatches of a tenant with work
that passes its cap checks no other tenant goes twice. -/
theorem one_turn_each {E : Type} (globalSlots : Nat) (earlier later : List (SchedEvent E))
    (waiting : TenantId) (along : Along SchedLog.step
      (fun log event => event.Favours waiting ∧ event.RedeemsNone log)
      (SchedLog.run globalSlots earlier) later)
    (before mid after : List Turn) (own next : Turn) (own_its : own.tenant = waiting)
    (its : next.tenant = waiting) (stretch : (SchedLog.run globalSlots (earlier ++ later)).turns =
      (SchedLog.run globalSlots earlier).turns ++ (before ++ own :: (mid ++ next :: after)))
    (busy : 0 < own.left.pending waiting) (between : waiting ∉ tenantsOf mid) :
    (tenantsOf mid).Nodup := by
  obtain ⟨blocks, chain, turns⟩ := SchedLog.run_chain (R := FairScheduler.StrictRound waiting)
    (fun log nowMs seams env ⟨⟨admits, accepts⟩, held⟩ =>
      FairScheduler.strict_chain accepts admits held) along
  have same : SchedLog.run globalSlots (earlier ++ later) =
      later.foldl SchedLog.step (SchedLog.run globalSlots earlier) := List.foldl_append
  rw [same, turns] at stretch
  exact chain.nodup_between own_its its (List.append_cancel_left stretch)
    (List.length_pos_iff.mp busy) between

namespace Contention

def gamma : TenantId := ⟨"gamma", by decide, by decide⟩

def delta : TenantId := ⟨"delta", by decide, by decide⟩

def items (count : Nat) (tenant : TenantId) : List (SchedEvent Unit) :=
  List.replicate count (.enqueue ⟨tenant.raw, tenant, 0⟩)

/-- Three tenants with work, and a tick in which `gamma` is over its cap. -/
def gammaSkipped : List (SchedEvent Unit) :=
  items 6 alpha ++ items 6 beta ++ items 6 gamma ++ [.tick 1000 (capping [gamma]) ()]

def gammaHeld : List (SchedEvent Unit) :=
  [.tick 2000 (capping [gamma]) (), .tick 3000 (capping [gamma]) ()]

def heldTurns : List Turn :=
  (SchedLog.run 3 (gammaSkipped ++ gammaHeld)).turns.drop (SchedLog.run 3 gammaSkipped).turns.length

theorem capping_favours {tenant : TenantId} {closed : List TenantId} (out : tenant ∉ closed) :
    (capping closed).Admits tenant ∧ (capping closed).Accepts :=
  ⟨fun _ => decide_eq_true out, fun _ _ => rfl⟩

theorem redeemsNone_of_owed {log : SchedLog} (nowMs : Nat)
    (owed : log.sched.owedSkip.toList = [gamma]) :
    (SchedEvent.tick nowMs (capping [gamma]) ()).RedeemsNone log := by
  intro tenant listed env
  rw [← Std.ExtTreeSet.mem_toList, owed] at listed
  simp only [capping, listed, not_true_eq_false, decide_false]

/-- While `gamma`, owed a turn, stays capped, `beta` goes once between two turns of `alpha`. -/
theorem one_turn_each_gammaHeld : ∃ before own mid next after,
    heldTurns = before ++ own :: (mid ++ next :: after) ∧ own.tenant = alpha ∧
    next.tenant = alpha ∧ tenantsOf mid = [beta] ∧ (tenantsOf mid).Nodup := by
  have tenants : heldTurns.map Turn.tenant = [beta, alpha, beta, alpha, beta, alpha] := by
    decide +kernel
  have work : ∀ turn ∈ heldTurns, 0 < turn.left.pending alpha := by decide +kernel
  obtain ⟨first, _, split0, -, tenants⟩ := List.map_eq_cons_iff.mp tenants
  obtain ⟨own, _, rfl, own_its, tenants⟩ := List.map_eq_cons_iff.mp tenants
  obtain ⟨other, _, rfl, other_its, tenants⟩ := List.map_eq_cons_iff.mp tenants
  obtain ⟨next, after, rfl, its, -⟩ := List.map_eq_cons_iff.mp tenants
  have middle : tenantsOf [other] = [beta] := by rw [tenantsOf_cons, other_its, tenantsOf_nil]
  refine ⟨[first], own, [other], next, after, split0, own_its, its, middle, ?_⟩
  refine one_turn_each 3 gammaSkipped gammaHeld alpha ?_ [first] [other] after own next own_its its
    ?_ (work own (by rw [split0]; simp)) (by rw [middle]; decide)
  · have open_seams : (capping [gamma]).Admits alpha ∧ (capping [gamma]).Accepts :=
      capping_favours (by decide)
    exact ⟨⟨open_seams, redeemsNone_of_owed 2000 (by decide +kernel)⟩,
      ⟨open_seams, redeemsNone_of_owed 3000 (by decide +kernel)⟩, trivial⟩
  · obtain ⟨more, grown⟩ := SchedLog.turns_grow (SchedLog.run 3 gammaSkipped) gammaHeld
    have whole : (SchedLog.run 3 (gammaSkipped ++ gammaHeld)).turns =
        (SchedLog.run 3 gammaSkipped).turns ++ more := by
      unfold SchedLog.run
      rw [List.foldl_append]
      exact grown
    have its_turns : heldTurns = more := by
      unfold heldTurns
      rw [whole, List.drop_left]
    rw [whole, ← its_turns, split0]
    rfl

/-- Four tenants, of which `alpha` enters late and `delta` is never capped: `beta` is skipped once,
redeems its turn ahead of `alpha`, and goes again since the cursor stands at `alpha`. -/
def betaRedeems : List (SchedEvent Unit) :=
  items 4 delta ++ items 4 gamma ++ [.tick 1000 (capping []) ()] ++
  items 2 beta ++ [.tick 2000 (capping [beta]) ()] ++
  items 1 alpha ++ [.tick 3000 (capping []) (), .tick 4000 (capping []) (),
    .tick 5000 (capping []) ()]

/-- **A redeemed turn comes on top.** Between two turns of `gamma`, which has work and passes every
cap check, `beta` is dispatched twice. -/
theorem redeemed_turn_doubles : (∀ event ∈ betaRedeems, event.Favours gamma) ∧
    (∀ turn ∈ (SchedLog.run 2 betaRedeems).turns, 0 < turn.left.pending gamma) ∧
    tenantsOf (SchedLog.run 2 betaRedeems).turns =
      [delta, gamma, delta] ++ gamma :: ([beta, alpha, beta, delta] ++ gamma :: [delta]) ∧
    ¬ [beta, alpha, beta, delta].Nodup := by
  refine ⟨?_, by decide +kernel, by decide +kernel, by decide⟩
  have quiet : ∀ count tenant, ∀ event ∈ items count tenant, event.Favours gamma := by
    intro count tenant event listed
    rw [List.eq_of_mem_replicate listed]
    exact trivial
  intro event listed
  simp only [betaRedeems, List.mem_append, List.mem_cons, List.not_mem_nil, or_false] at listed
  rcases listed with (((((item | item) | rfl) | item) | rfl) | item) | rfl | rfl | rfl
  · exact quiet _ _ event item
  · exact quiet _ _ event item
  · exact capping_favours (by decide)
  · exact quiet _ _ event item
  · exact capping_favours (by decide)
  · exact quiet _ _ event item
  · exact capping_favours (by decide)
  · exact capping_favours (by decide)
  · exact capping_favours (by decide)

end Contention

end CorelinkRunners
