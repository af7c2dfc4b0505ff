import CorelinkRunners.Ledger.InMemory

/-!
# Journal lines and the moves they stand for

The durable ledger journals one line for every change it makes. This module holds the lines, what
replaying one does to an index, and the changes themselves: a `Move` is one atomic change of the
ledger, and `Step s m l s'` says that the move `m` is open in `s`, leads to `s'`, and is journaled
by the line `l`.

Every operation of either ledger is a sequence of such steps, so an invariant is proved once per
move.
-/

namespace CorelinkRunners

open Kit

/-! ## Lines and their replay -/

inductive JournalLine
  | record (rec : LeaseRecord)
  | tombstone (leaseId : String)
  | pendingCleanupClaim (leaseId : String)
  | checkpoint (leaseId checkpoint : String)
  | reservation (leaseId : String) (reservation : LeaseReservation)
  | accrual (tenant : TenantId) (periodKey total : Nat)
  | admitCommit (record : LeaseRecord) (reservation : LeaseReservation)
  | terminalTransition (record : LeaseRecord) (accrual : Option (TenantId × Nat × Nat))
      (reservation : Option LeaseReservation)

namespace InMemoryInner

/-- Replay one line: the last write per key wins, a tombstone erases the lease and its side state,
a claim is taken only over a Pending record. -/
def replayLine (index : InMemoryInner) : JournalLine → InMemoryInner
  | .record rec => { index with records := index.records.insert rec.leaseId rec }
  | .tombstone leaseId => index.finish leaseId
  | .pendingCleanupClaim leaseId => if index.isPendingAt leaseId then index.claim leaseId else index
  | .checkpoint leaseId checkpoint =>
    { index with checkpoints := index.checkpoints.insert leaseId checkpoint }
  | .reservation leaseId reservation =>
    { index with reservations := index.reservations.insert leaseId reservation }
  | .accrual tenant periodKey total =>
    { index with accruals := index.accruals.insert (tenant, periodKey) total }
  | .admitCommit record reservation =>
    { index with
      records := index.records.insert record.leaseId record
      reservations := index.reservations.insert record.leaseId reservation }
  | .terminalTransition record accrual reservation =>
    { index with
      records := index.records.insert record.leaseId record
      accruals := match accrual with
        | some (tenant, periodKey, total) => index.accruals.insert (tenant, periodKey) total
        | none => index.accruals
      reservations := match reservation with
        | some res => index.reservations.insert record.leaseId res
        | none => index.reservations }

def replay (index : InMemoryInner) (lines : List JournalLine) : InMemoryInner :=
  lines.foldl replayLine index

variable (index : InMemoryInner)

@[simp] theorem replay_cons (l : JournalLine) (ls : List JournalLine) :
    index.replay (l :: ls) = (index.replayLine l).replay ls := rfl

@[simp] theorem replay_append (ls ms : List JournalLine) :
    index.replay (ls ++ ms) = (index.replay ls).replay ms := List.foldl_append

end InMemoryInner

/-! ## Moves -/

inductive Move
  | insert (rec : LeaseRecord)
  | reserve (rec : LeaseRecord) (gate : ComputeGate)
  | rebind (leaseId providerRef : String)
  | transition (leaseId : String) (target : RunnerState) (nowMs : Nat)
  | claim (leaseId : String)
  | checkpoint (leaseId checkpoint : String)
  | remove (leaseId : String)
  | finish (leaseId : String)

def InMemoryInner.accruedTotal (s : InMemoryInner) (rec : LeaseRecord) (res : LeaseReservation)
    (nowMs : Nat) : Nat :=
  min (Word.satAdd (s.computeAccrued rec.tenant res.accrualPeriodKey)
    (res.actual rec.createdAtMs nowMs)) maxLedgerVcpuMs

/-- The move `m` is open in a state, leads to another, and is journaled by a line. A transition
that folds no accrual journals its bare record. -/
inductive Step : InMemoryInner → Move → JournalLine → InMemoryInner → Prop
  | insert {s : InMemoryInner} {rec : LeaseRecord} (fresh : s.records[rec.leaseId]? = none) :
      Step s (.insert rec) (.record rec) { s with records := s.records.insert rec.leaseId rec }
  | reserve {s : InMemoryInner} {rec : LeaseRecord} {maxConcurrency : Nat} {gate : ComputeGate}
      (fresh : s.records[rec.leaseId]? = none) (gated : gate.ceilingVcpuMs ≠ 0)
      (decided : (s.admitDecision rec maxConcurrency gate).1 = .admitted) :
      Step s (.reserve rec gate) (.admitCommit rec gate.reservation)
        { s with
          records := s.records.insert rec.leaseId rec
          reservations := s.reservations.insert rec.leaseId gate.reservation }
  | rebind {s : InMemoryInner} {leaseId providerRef : String} {current : LeaseRecord}
      (found : s.records[leaseId]? = some current) (pending : current.state = .pending)
      (unclaimed : leaseId ∉ s.pendingCleanupClaims) :
      Step s (.rebind leaseId providerRef) (.record { current with boxRef := providerRef })
        { s with records := s.records.insert leaseId { current with boxRef := providerRef } }
  | transition {s : InMemoryInner} {leaseId : String} {target : RunnerState} {nowMs : Nat}
      {rec : LeaseRecord} (unclaimed : leaseId ∉ s.pendingCleanupClaims)
      (found : s.records[leaseId]? = some rec) (legal : transitionIsLegal rec.state target = true) :
      Step s (.transition leaseId target nowMs) (.record (rec.stamped target nowMs))
        { s with records := s.records.insert leaseId (rec.stamped target nowMs) }
  | accrue {s : InMemoryInner} {leaseId : String} {target : RunnerState} {nowMs : Nat}
      {rec : LeaseRecord} {res : LeaseReservation} (unclaimed : leaseId ∉ s.pendingCleanupClaims)
      (found : s.records[leaseId]? = some rec) (legal : transitionIsLegal rec.state target = true)
      (terminal : target.isTerminal = true) (reserved : s.reservations[leaseId]? = some res)
      (unlatched : res.accruedAtMs = none) :
      Step s (.transition leaseId target nowMs)
        (.terminalTransition (rec.stamped target nowMs)
          (some (rec.tenant, res.accrualPeriodKey, s.accruedTotal rec res nowMs))
          (some { res with accruedAtMs := some nowMs }))
        { s with
          records := s.records.insert leaseId (rec.stamped target nowMs)
          reservations := s.reservations.insert leaseId { res with accruedAtMs := some nowMs }
          accruals := s.accruals.insert (rec.tenant, res.accrualPeriodKey)
            (s.accruedTotal rec res nowMs) }
  | claim {s : InMemoryInner} {leaseId : String} (pending : s.isPendingAt leaseId = true) :
      Step s (.claim leaseId) (.pendingCleanupClaim leaseId) (s.claim leaseId)
  | checkpoint {s : InMemoryInner} {leaseId checkpoint : String} {rec : LeaseRecord}
      (found : s.records[leaseId]? = some rec) :
      Step s (.checkpoint leaseId checkpoint) (.checkpoint leaseId checkpoint)
        { s with checkpoints := s.checkpoints.insert leaseId checkpoint }
  | remove {s : InMemoryInner} {leaseId : String} {rec : LeaseRecord}
      (found : s.records[leaseId]? = some rec) (unclaimed : leaseId ∉ s.pendingCleanupClaims)
      (free : s.heldWithReservation leaseId = false) :
      Step s (.remove leaseId) (.tombstone leaseId) (s.forget leaseId)
  | finish {s : InMemoryInner} {leaseId : String} (claimed : s.claimedPending leaseId = true) :
      Step s (.finish leaseId) (.tombstone leaseId) (s.finish leaseId)

/-- A transition is refused with nothing changed, moves the record alone, or moves the record and
folds the accrual of its unlatched reservation. -/
theorem InMemoryInner.transitionCapturing_cases (s : InMemoryInner) (leaseId : String)
    (target : RunnerState) (nowMs : Nat) :
    ((¬ ∃ rec, s.records[leaseId]? = some rec ∧ transitionIsLegal rec.state target = true) ∧
      ∃ e, s.transitionCapturing leaseId target nowMs = (.error e, s)) ∨
    (∃ rec, s.records[leaseId]? = some rec ∧ transitionIsLegal rec.state target = true ∧
      s.transitionCapturing leaseId target nowMs = (.ok (rec.stamped target nowMs, none),
        { s with records := s.records.insert leaseId (rec.stamped target nowMs) })) ∨
    (∃ rec res, s.records[leaseId]? = some rec ∧ transitionIsLegal rec.state target = true ∧
      target.isTerminal = true ∧ s.reservations[leaseId]? = some res ∧ res.accruedAtMs = none ∧
      s.transitionCapturing leaseId target nowMs = (.ok (rec.stamped target nowMs,
          some ⟨leaseId, rec.tenant, res.accrualPeriodKey, s.accruedTotal rec res nowMs⟩),
        { s with
          records := s.records.insert leaseId (rec.stamped target nowMs)
          reservations := s.reservations.insert leaseId { res with accruedAtMs := some nowMs }
          accruals := s.accruals.insert (rec.tenant, res.accrualPeriodKey)
            (s.accruedTotal rec res nowMs) })) := by
  cases found : s.records[leaseId]? with
  | none =>
    left
    exact ⟨by simp, _, by simp only [transitionCapturing, found]; rfl⟩
  | some rec =>
    cases legal : transitionIsLegal rec.state target with
    | false =>
      left
      exact ⟨by simp [legal], _,
        by simp only [transitionCapturing, found, applyTransition, legal]; rfl⟩
    | true =>
      right
      simp only [transitionCapturing, found, applyTransition, legal, ↓reduceIte, accrueOnTerminal]
      cases terminal : target.isTerminal with
      | false => exact .inl ⟨rec, rfl, legal, rfl⟩
      | true =>
        cases reserved : s.reservations[leaseId]? with
        | none => exact .inl ⟨rec, rfl, legal, rfl⟩
        | some res =>
          cases latch : res.accruedAtMs with
          | some _ => exact .inl ⟨rec, rfl, legal, by simp [latch]⟩
          | none =>
            refine .inr ⟨rec, res, rfl, legal, rfl, rfl, latch, ?_⟩
            simp only [latch, Option.isSome_none, Bool.not_true, Bool.false_eq_true, ↓reduceIte]
            rfl

/-! ## The bookkeeping invariant -/

/-- What every reachable ledger keeps: a record sits under its own id, a side entry has a record
beside it, and a claim fences a Pending record. -/
structure InMemoryInner.WellFormed (s : InMemoryInner) : Prop where
  keyed : ∀ (k : String) (r : LeaseRecord), s.records[k]? = some r → r.leaseId = k
  reserved : ∀ (k : String) (res : LeaseReservation), s.reservations[k]? = some res →
    ∃ r, s.records[k]? = some r
  checkpointed : ∀ (k : String) (c : String), s.checkpoints[k]? = some c →
    ∃ r, s.records[k]? = some r
  claimed : ∀ k : String, k ∈ s.pendingCleanupClaims → s.isPendingAt k = true

namespace InMemoryInner

variable {s : InMemoryInner} {leaseId : String}

theorem isPendingAt_iff :
    s.isPendingAt leaseId = true ↔ ∃ r, s.records[leaseId]? = some r ∧ r.state = .pending := by
  simp only [isPendingAt]
  cases s.records[leaseId]? <;> simp

theorem claimedPending_iff : s.claimedPending leaseId = true ↔
      leaseId ∈ s.pendingCleanupClaims ∧ s.isPendingAt leaseId = true := by
  simp only [claimedPending, Bool.and_eq_true, Std.ExtTreeSet.contains_iff_mem]

theorem empty_wellFormed : empty.WellFormed := by
  constructor <;> simp [empty]

section

variable (wf : s.WellFormed)
include wf

theorem WellFormed.fresh (h : s.records[leaseId]? = none) :
    s.reservations[leaseId]? = none ∧ s.checkpoints[leaseId]? = none ∧
      leaseId ∉ s.pendingCleanupClaims := by
  refine ⟨?_, ?_, ?_⟩
  · rw [Option.eq_none_iff_forall_ne_some]
    intro res hres
    obtain ⟨r, hr⟩ := wf.reserved _ _ hres
    rw [h] at hr
    nomatch hr
  · rw [Option.eq_none_iff_forall_ne_some]
    intro c hc
    obtain ⟨r, hr⟩ := wf.checkpointed _ _ hc
    rw [h] at hr
    nomatch hr
  · intro hk
    obtain ⟨r, hr, -⟩ := isPendingAt_iff.mp (wf.claimed _ hk)
    rw [h] at hr
    nomatch hr

theorem WellFormed.candidates_stored {nowMs maxAgeMs : Nat} {row : LeaseRecord}
    (h : row ∈ s.candidates nowMs maxAgeMs) :
    s.records[row.leaseId]? = some row ∧ row.state = .pending := by
  simp only [candidates, sortById, List.mem_insertionSort, List.mem_filter, OrdMap.mem_vals,
    Bool.and_eq_true, LeaseState.isPending_iff] at h
  obtain ⟨⟨k, hk⟩, pending, -⟩ := h
  rw [wf.keyed k row hk]
  exact ⟨hk, pending⟩

theorem WellFormed.candidates_pending {nowMs maxAgeMs : Nat} {row : LeaseRecord}
    (h : row ∈ s.candidates nowMs maxAgeMs) : s.isPendingAt row.leaseId = true :=
  isPendingAt_iff.mpr ⟨row, wf.candidates_stored h⟩

theorem WellFormed.insert_record (r : LeaseRecord)
    (fence : r.leaseId ∈ s.pendingCleanupClaims → r.state = .pending) :
    { s with records := s.records.insert r.leaseId r }.WellFormed := by
  have present : ∀ k : String, (∃ r, s.records[k]? = some r) →
      ∃ r', (s.records.insert r.leaseId r)[k]? = some r' := by
    rintro k ⟨r', hr'⟩
    simp only [OrdMap.get_insert]
    split
    · exact ⟨r, rfl⟩
    · exact ⟨r', hr'⟩
  refine ⟨?_, fun k res h => present k (wf.reserved k res h),
    fun k c h => present k (wf.checkpointed k c h), ?_⟩
  · intro k r' h
    simp only [OrdMap.get_insert] at h
    split at h
    next hk =>
      cases h
      exact hk
    · exact wf.keyed k r' h
  · intro k hk
    simp only [isPendingAt_iff, OrdMap.get_insert]
    split
    next hrk =>
      subst hrk
      exact ⟨r, rfl, fence hk⟩
    · exact isPendingAt_iff.mp (wf.claimed k hk)

theorem WellFormed.insert_stamped {rec : LeaseRecord} (target : RunnerState)
    (nowMs : Nat) (unclaimed : rec.leaseId ∉ s.pendingCleanupClaims) :
    { s with records := s.records.insert rec.leaseId (rec.stamped target nowMs) }.WellFormed := by
  have hid := rec.stamped_leaseId target nowMs
  have hrec := wf.insert_record (rec.stamped target nowMs) fun h => absurd (hid ▸ h) unclaimed
  rwa [hid] at hrec

theorem WellFormed.insert_reservation {r : LeaseRecord}
    (res : LeaseReservation) (found : s.records[leaseId]? = some r) :
    { s with reservations := s.reservations.insert leaseId res }.WellFormed := by
  refine ⟨wf.keyed, ?_, wf.checkpointed, wf.claimed⟩
  intro k res' h
  simp only [OrdMap.get_insert] at h
  split at h
  next hk => exact ⟨r, hk ▸ found⟩
  · exact wf.reserved k res' h

theorem WellFormed.with_accruals (accruals : OrdMap (TenantId × Nat) Nat) :
    { s with accruals := accruals }.WellFormed :=
  ⟨wf.keyed, wf.reserved, wf.checkpointed, wf.claimed⟩

theorem WellFormed.finish (leaseId : String) : (s.finish leaseId).WellFormed := by
  refine ⟨?_, ?_, ?_, ?_⟩ <;>
    simp only [InMemoryInner.finish, forget, isPendingAt_iff, OrdMap.get_erase,
      OrdSet.mem_erase_iff]
  · intro k r h
    split at h
    · nomatch h
    · exact wf.keyed k r h
  · intro k res h
    split at h
    · nomatch h
    next hk => simpa only [if_neg hk] using wf.reserved k res h
  · intro k c h
    split at h
    · nomatch h
    next hk => simpa only [if_neg hk] using wf.checkpointed k c h
  · rintro k ⟨hk, hmem⟩
    simpa only [if_neg hk] using isPendingAt_iff.mp (wf.claimed k hmem)

end

theorem forget_eq_finish (unclaimed : leaseId ∉ s.pendingCleanupClaims) :
    s.forget leaseId = s.finish leaseId := by
  simp only [InMemoryInner.finish, OrdSet.erase_of_notMem unclaimed, forget]

end InMemoryInner

/-! ## What every step keeps -/

namespace Step

variable {s s' : InMemoryInner} {m : Move} {l : JournalLine}

theorem wellFormed (wf : s.WellFormed) (step : Step s m l s') : s'.WellFormed := by
  cases step with
  | insert fresh => exact wf.insert_record _ fun h => absurd h (wf.fresh fresh).2.2
  | reserve fresh gated decided =>
    have hrec := wf.insert_record _ fun h => absurd h (wf.fresh fresh).2.2
    exact hrec.insert_reservation _ (OrdMap.get_insert_self _ _ _)
  | @rebind _ providerRef current found pending unclaimed =>
    obtain rfl := wf.keyed _ _ found
    exact wf.insert_record { current with boxRef := providerRef } fun _ => pending
  | @transition _ target nowMs rec unclaimed found legal =>
    obtain rfl := wf.keyed _ _ found
    exact wf.insert_stamped target nowMs unclaimed
  | @accrue _ target nowMs rec res unclaimed found legal terminal reserved unlatched =>
    obtain rfl := wf.keyed _ _ found
    have hrec := wf.insert_stamped target nowMs unclaimed
    have hres := hrec.insert_reservation { res with accruedAtMs := some nowMs }
      (OrdMap.get_insert_self _ _ _)
    exact hres.with_accruals _
  | claim pending =>
    refine ⟨wf.keyed, wf.reserved, wf.checkpointed, ?_⟩
    intro k hk
    rcases (OrdSet.mem_insert_iff _ _ _).mp hk with rfl | hk
    · exact pending
    · exact wf.claimed k hk
  | checkpoint found =>
    refine ⟨wf.keyed, wf.reserved, ?_, wf.claimed⟩
    intro k c h
    simp only [OrdMap.get_insert] at h
    split at h
    next hk => exact ⟨_, hk ▸ found⟩
    · exact wf.checkpointed k c h
  | remove found unclaimed free =>
    rw [InMemoryInner.forget_eq_finish unclaimed]
    exact wf.finish _
  | finish claimed => exact wf.finish _

/-- **The line says what the move did**: replaying a step's line over the state before the step
gives the state after it. -/
theorem replay (wf : s.WellFormed) (step : Step s m l s') : s.replayLine l = s' := by
  cases step with
  | insert fresh => rfl
  | reserve fresh gated decided => rfl
  | rebind found pending unclaimed =>
    obtain rfl := wf.keyed _ _ found
    rfl
  | transition unclaimed found legal =>
    obtain rfl := wf.keyed _ _ found
    simp only [InMemoryInner.replayLine, LeaseRecord.stamped_leaseId]
  | accrue unclaimed found legal terminal reserved unlatched =>
    obtain rfl := wf.keyed _ _ found
    simp only [InMemoryInner.replayLine, LeaseRecord.stamped_leaseId]
  | claim pending => simp only [InMemoryInner.replayLine, pending, ↓reduceIte]
  | checkpoint found => rfl
  | remove found unclaimed free =>
    simp only [InMemoryInner.replayLine, InMemoryInner.forget_eq_finish unclaimed]
  | finish claimed => rfl

end Step

end CorelinkRunners
