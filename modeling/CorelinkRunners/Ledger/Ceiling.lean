import CorelinkRunners.Ledger.Replay

/-!
# The compute ceiling over whole runs

What a tenant has committed in a period is its accrued total plus what its Pending and Held leases
still reserve there. The gate compares a saturating estimate of that sum with the ceiling, so the
sum stays at or below the ceiling as long as the ceiling lies strictly below the largest word: at
the largest word the saturated estimate can never exceed it, and `ceiling_unbounded_at_maxU64`
shows two admits that together reserve twice the ceiling.
-/

namespace CorelinkRunners

open Kit InMemoryInner

/-- What one record adds to its tenant's reservations in a period. -/
def weight (reservations : OrdMap String LeaseReservation) (T : TenantId) (P : Nat)
    (r : LeaseRecord) : Nat :=
  if r.tenant = T ∧ r.state.isActive = true then
    match reservations[r.leaseId]? with
    | some res => if res.accrualPeriodKey = P then res.reservedVcpuMs else 0
    | none => 0
  else 0

namespace InMemoryInner

/-- Accrued and still reserved, as true numbers. -/
def committed (s : InMemoryInner) (T : TenantId) (P : Nat) : Nat :=
  s.computeAccrued T P + (s.reservedInPeriod T P).sum

variable {s : InMemoryInner} {T : TenantId} {P : Nat}

theorem reservedInPeriod_sum :
    (s.reservedInPeriod T P).sum = s.records.sumBy fun _ r => weight s.reservations T P r := by
  simp only [reservedInPeriod, active, OrdMap.sumBy, OrdMap.vals]
  induction s.records.toList with
  | nil => rfl
  | cons e es ih =>
    simp only [List.map_cons, List.sum_cons, List.filter_cons, ← ih]
    simp only [weight]
    by_cases hact : e.2.tenant = T ∧ e.2.state.isActive = true
    · cases hres : s.reservations[e.2.leaseId]? with
      | none => simp [hact, hres]
      | some res => by_cases hP : res.accrualPeriodKey = P <;> simp [hact, hres, hP]
    · rw [if_neg (by simpa using hact), if_neg hact, Nat.zero_add]

variable {m : OrdMap String LeaseReservation} {r : LeaseRecord}

theorem weight_of_not_active (h : r.state.isActive = false) : weight m T P r = 0 := by
  simp only [weight, h, Bool.false_eq_true, and_false, ↓reduceIte]

variable {leaseId : String}

theorem sumBy_weight_erase (wf : s.WellFormed)
    (h : ∀ k : String, leaseId ≠ k → m[k]? = s.reservations[k]?) :
    OrdMap.sumBy (fun _ r => weight m T P r) (s.records.erase leaseId) =
      OrdMap.sumBy (fun _ r => weight s.reservations T P r) (s.records.erase leaseId) := by
  apply OrdMap.sumBy_congr
  intro k r hr
  rw [OrdMap.get_erase] at hr
  split at hr
  · nomatch hr
  next hk =>
    have same := h r.leaseId (by rw [wf.keyed k r hr]; exact hk)
    simp only [weight, same]

theorem committed_eq : s.committed T P =
    s.computeAccrued T P + s.records.sumBy fun _ r => weight s.reservations T P r := by
  rw [committed, reservedInPeriod_sum]

variable {rec : LeaseRecord}

theorem committed_finish_le (wf : s.WellFormed) (leaseId : String) :
    (s.finish leaseId).committed T P ≤ s.committed T P := by
  have herase : ∀ k : String, leaseId ≠ k →
      (s.reservations.erase leaseId)[k]? = s.reservations[k]? := by
    intro k hk
    rw [OrdMap.get_erase, if_neg hk]
  rw [committed_eq, committed_eq]
  simp only [finish, forget, sumBy_weight_erase wf herase]
  exact Nat.add_le_add_left OrdMap.sumBy_erase_le _

theorem committed_insert_le {r' : LeaseRecord} (found : s.records[leaseId]? = some r)
    (h : weight s.reservations T P r' ≤ weight s.reservations T P r) :
    { s with records := s.records.insert leaseId r' }.committed T P ≤ s.committed T P := by
  rw [committed_eq, committed_eq]
  exact Nat.add_le_add_left (OrdMap.sumBy_insert_le found h) _

theorem committed_admit_le (wf : s.WellFormed) {res : LeaseReservation}
    (fresh : s.records[rec.leaseId]? = none) : { s with
      records := s.records.insert rec.leaseId rec
      reservations := s.reservations.insert rec.leaseId res }.committed T P ≤
      s.committed T P +
        if rec.tenant = T ∧ res.accrualPeriodKey = P then res.reservedVcpuMs else 0 := by
  have hother : ∀ k : String, rec.leaseId ≠ k →
      (s.reservations.insert rec.leaseId res)[k]? = s.reservations[k]? := by
    intro k hk
    rw [OrdMap.get_insert, if_neg hk]
  have hnew : weight (s.reservations.insert rec.leaseId res) T P rec ≤
      if rec.tenant = T ∧ res.accrualPeriodKey = P then res.reservedVcpuMs else 0 := by
    simp only [weight, OrdMap.get_insert_self]
    by_cases hT : rec.tenant = T <;> by_cases hP : res.accrualPeriodKey = P <;>
      simp [hT, hP]
    split <;> omega
  rw [committed_eq, committed_eq]
  simp only [OrdMap.sumBy_insert, sumBy_weight_erase wf hother]
  simp only [OrdMap.erase_of_get_none fresh, computeAccrued]
  omega

end InMemoryInner

variable {target : RunnerState}

theorem LeaseRecord.stamped_not_active (rec : LeaseRecord) (nowMs : Nat)
    (terminal : target.isTerminal = true) : (rec.stamped target nowMs).state.isActive = false := by
  rw [LeaseRecord.stamped_state]
  cases target <;> first | rfl | nomatch terminal

variable {T : TenantId} {P nowMs : Nat} {rec : LeaseRecord}

theorem weight_stamped_le {m : OrdMap String LeaseReservation}
    (legal : transitionIsLegal rec.state target = true) :
    weight m T P (rec.stamped target nowMs) ≤ weight m T P rec := by
  rcases transitionIsLegal_iff.mp legal with ⟨hp, rfl⟩ | ⟨_, ht⟩
  · simp only [weight, LeaseRecord.stamped_tenant, LeaseRecord.stamped_state,
      LeaseRecord.stamped_leaseId, hp, LeaseState.isActive, LeaseState.isPending, LeaseState.isHeld,
      Bool.or_false, Bool.or_true]
    rfl
  · rw [weight_of_not_active (rec.stamped_not_active nowMs ht)]
    exact Nat.zero_le _

/-- The terminal hand-off: the lease's reservation leaves the sum, and at most that much enters the
accrued total. -/
theorem InMemoryInner.committed_accrue_le {s : InMemoryInner} (wf : s.WellFormed) {leaseId : String}
    {res : LeaseReservation} (found : s.records[leaseId]? = some rec)
    (legal : transitionIsLegal rec.state target = true) (terminal : target.isTerminal = true)
    (reserved : s.reservations[leaseId]? = some res) : { s with
      records := s.records.insert leaseId (rec.stamped target nowMs)
      reservations := s.reservations.insert leaseId { res with accruedAtMs := some nowMs }
      accruals := s.accruals.insert (rec.tenant, res.accrualPeriodKey)
        (s.accruedTotal rec res nowMs) }.committed T P ≤ s.committed T P := by
  have hother : ∀ k : String, leaseId ≠ k →
      (s.reservations.insert leaseId { res with accruedAtMs := some nowMs })[k]? =
        s.reservations[k]? := by
    intro k hk
    rw [OrdMap.get_insert, if_neg hk]
  have hbefore : weight s.reservations T P rec =
      if rec.tenant = T ∧ res.accrualPeriodKey = P then res.reservedVcpuMs else 0 := by
    have hactive : rec.state.isActive = true := by
      rcases transitionIsLegal_iff.mp legal with ⟨hp, rfl⟩ | ⟨hh, _⟩
      · nomatch terminal
      · rw [hh]
        rfl
    simp only [weight, hactive, wf.keyed _ _ found, reserved]
    by_cases hT : rec.tenant = T <;> simp [hT]
  have htotal : s.accruedTotal rec res nowMs ≤
      s.computeAccrued rec.tenant res.accrualPeriodKey + res.reservedVcpuMs := by
    simp only [accruedTotal, Word.satAdd, LeaseReservation.actual]
    omega
  rw [committed_eq, committed_eq, OrdMap.sumBy_of_get found, hbefore]
  simp only [OrdMap.sumBy_insert, sumBy_weight_erase wf hother,
    weight_of_not_active (rec.stamped_not_active nowMs terminal)]
  simp only [computeAccrued, OrdMap.get_insert, Prod.mk.injEq] at htotal ⊢
  split
  next hTP =>
    obtain ⟨rfl, rfl⟩ := hTP
    simp only [Option.getD_some]
    omega
  · omega

namespace Step

variable {s s' : InMemoryInner} {m : Move} {l : JournalLine} {T : TenantId} {P C : Nat}

/-- **One step keeps the ceiling**: an admit has room, and every other step commits no more. -/
theorem committed_le (hC : C < Word.maxU64) (wf : s.WellFormed) (hs : s.committed T P ≤ C)
    (gated : ∀ rec gate, m = .reserve rec gate → gate.ceilingVcpuMs ≠ 0 → rec.tenant = T →
      gate.periodKey = P → gate.ceilingVcpuMs = C)
    (step : Step s m l s') : s'.committed T P ≤ C := by
  cases step with
  | @insert rec fresh =>
    refine le_trans (le_of_eq ?_) hs
    rw [committed_eq, committed_eq]
    simp only [OrdMap.sumBy_insert_of_none fresh]
    have hz : weight s.reservations T P rec = 0 := by
      simp only [weight, (wf.fresh fresh).1, ite_self]
    rw [hz, Nat.zero_add]
    rfl
  | @reserve rec cap gate fresh nonzero decided =>
    refine le_trans (committed_admit_le wf fresh) ?_
    split
    next hTP =>
      obtain ⟨rfl, rfl⟩ := hTP
      obtain rfl := gated rec gate rfl nonzero rfl rfl
      -- the gate had room for the new reservation over everything committed
      change s.committed rec.tenant gate.periodKey + gate.newReservedVcpuMs ≤ gate.ceilingVcpuMs
      simp only [admitDecision] at decided
      split at decided
      · cases decided
      next hroom =>
        rw [Word.foldl_satAdd _ (Nat.zero_le _)] at hroom
        simp only [Word.satAdd, Nat.zero_add, gt_iff_lt, not_lt, committed] at hroom ⊢
        omega
    · exact hs
  | rebind found pending unclaimed => exact le_trans (committed_insert_le found (le_of_eq rfl)) hs
  | transition unclaimed found legal =>
    exact le_trans (committed_insert_le found (weight_stamped_le legal)) hs
  | accrue unclaimed found legal terminal reserved unlatched =>
    exact le_trans (committed_accrue_le wf found legal terminal reserved) hs
  | claim pending => exact hs
  | checkpoint found => exact hs
  | remove found unclaimed free =>
    rw [forget_eq_finish unclaimed]
    exact le_trans (committed_finish_le wf _) hs
  | finish claimed => exact le_trans (committed_finish_le wf _) hs

end Step

/-! ## Whole runs -/

def LedgerOp.GatedAt (T : TenantId) (P C : Nat) : LedgerOp → Prop
  | .tryAdmitWithCompute rec _ (some gate) =>
    gate.ceilingVcpuMs ≠ 0 → rec.tenant = T → gate.periodKey = P → gate.ceilingVcpuMs = C
  | _ => True

theorem LedgerOp.GatedAt.ceiling {C : Nat} {op : LedgerOp} {gate : ComputeGate}
    (h : op.GatedAt T P C) (allowed : op.Allows (.reserve rec gate))
    (nonzero : gate.ceilingVcpuMs ≠ 0) (hT : rec.tenant = T) (hP : gate.periodKey = P) :
    gate.ceilingVcpuMs = C := by
  cases op with
  | tryAdmitWithCompute rec' cap gate' =>
    rcases allowed with hm | ⟨g, rfl, hm⟩
    · nomatch hm
    · cases hm
      exact h nonzero hT hP
  | claimStalePendingCleanup nowMs maxAgeMs =>
    obtain ⟨id, hm⟩ := allowed
    nomatch hm
  | _ => nomatch allowed

/-- **The ceiling holds in every reachable state**, for every ceiling below the largest word and
whatever the arguments and clocks of the calls. -/
theorem compute_ceiling [SerdeJson] (T : TenantId) (P C : Nat) (hC : C < Word.maxU64)
    (ops : List LedgerOp) (gated : ∀ op ∈ ops, op.GatedAt T P C) :
    (InMemoryInner.after ops).computeAccrued T P +
      ((InMemoryInner.after ops).reservedInPeriod T P).sum ≤ C := by
  refine (foldl_invariant (fun s => s.committed T P ≤ C) ops ?_
    empty_wellFormed (Nat.zero_le C)).2
  rintro s m l s' wf hs ⟨op, hmem, allowed⟩ step
  refine step.committed_le hC wf hs ?_
  rintro rec gate rfl nonzero hT hP
  exact (gated op hmem).ceiling allowed nonzero hT hP

/-! ## Concrete runs -/

section Concrete

attribute [local instance] refuseJson

theorem acme_nonEmpty : "acme" ≠ "" := by decide

theorem acme_shaped : "acme".toList.all tenantChar = true := by decide

def acme : TenantId := ⟨"acme", acme_nonEmpty, acme_shaped⟩

def acmeLease (leaseId : String) : LeaseRecord :=
  ⟨leaseId, acme, .pending, "box:" ++ leaseId, 1000, 1000, none, none⟩

/-- Admit, hold, release long after the reserved time, and admit again. -/
def lateRelease : List LedgerOp :=
  [.tryAdmitWithCompute (acmeLease "l1") 2 (some ⟨202401, 100, 2, 60⟩),
    .transition "l1" .held 1001, .transition "l1" .released 9000,
    .tryAdmitWithCompute (acmeLease "l2") 2 (some ⟨202401, 100, 2, 40⟩)]

theorem compute_ceiling_lateRelease : (InMemoryInner.after lateRelease).computeAccrued acme 202401 +
      ((InMemoryInner.after lateRelease).reservedInPeriod acme 202401).sum ≤ 100 := by
  refine compute_ceiling acme 202401 100 (by decide) lateRelease ?_
  simp [lateRelease, LedgerOp.GatedAt]

/-- Two admits under the ceiling `2^64 - 1`, each reserving all of it. -/
def wordCeiling : List LedgerOp :=
  [.tryAdmitWithCompute (acmeLease "l1") 2 (some ⟨202401, Word.maxU64, 1, Word.maxU64⟩),
    .tryAdmitWithCompute (acmeLease "l2") 2 (some ⟨202401, Word.maxU64, 1, Word.maxU64⟩)]

/-- **At the largest word the gate never closes**: both are admitted, and together they commit
twice the ceiling. -/
theorem ceiling_unbounded_at_maxU64 : (∀ op ∈ wordCeiling, op.GatedAt acme 202401 Word.maxU64) ∧
    ¬ (InMemoryInner.after wordCeiling).computeAccrued acme 202401 +
      ((InMemoryInner.after wordCeiling).reservedInPeriod acme 202401).sum ≤ Word.maxU64 := by
  refine ⟨?_, by decide⟩
  simp [wordCeiling, LedgerOp.GatedAt]

end Concrete

end CorelinkRunners
