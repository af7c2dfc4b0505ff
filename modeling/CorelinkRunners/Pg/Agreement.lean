import CorelinkRunners.Ledger.AppendFailure
import CorelinkRunners.Pg.Agrees

/-!
# The in-memory and the Postgres ledger agree

Run call by call, the two backends cannot be told apart: they give the same answers, or both refuse,
and every read sees the same (`ledgers_agree`). One lemma for each call, over states that agree;
what the call does to the tables is its lemma of `Pg.Alone`.
-/

namespace CorelinkRunners

open Kit InMemoryInner

namespace Agrees

variable {s : InMemoryInner} {db : Db} {rec : LeaseRecord} {cap : Nat}

/-- **An admission on both sides.** -/
theorem admit_both (h : Agrees s db) (fresh : rec.Fresh) (gate : Option ComputeGate)
    (absent : db.leases[rec.leaseId]? = none) (room : db.activeCount rec.tenant.raw < Word.maxU32)
    (within : ∀ g, gate = some g → g.newReservedVcpuMs ≤ maxLedgerVcpuMs ∧
      db.usedIn rec.tenant.raw g.periodKey + g.newReservedVcpuMs ≤ maxLedgerVcpuMs)
    {reservations : OrdMap String LeaseReservation}
    (reserved : ∀ k : String, reservations[k]? =
      if rec.leaseId = k then gate.map ComputeGate.reservation else s.reservations[k]?) :
    Agrees { s with records := s.records.insert rec.leaseId rec, reservations }
      (db.apply (.lease rec.leaseId (some (.admitted rec gate)))) := by
  have hrecord := fresh.admitted gate
  have hwithin : ∀ t p, (db.apply (.lease rec.leaseId (some (.admitted rec gate)))).Within t
      Word.maxU32 p maxLedgerVcpuMs := by
    intro t p
    refine (h.within t p).reserve absent (fun own => ?_) fun own g hg hp => ?_
    · rw [← own]
      exact room
    · rw [← own, ← hp]
      exact (within g hg).2
  have hinsert : Agrees
      { s with
        records := s.records.insert rec.leaseId (LeaseRow.admitted rec gate).record, reservations }
      (db.apply (.lease rec.leaseId (some (.admitted rec gate)))) :=
    h.insert rfl (LeaseRow.admitted_columns fun g hg => (within g hg).1)
      (fun _ => rfl) fresh.created hwithin fun k => by rw [reserved]; cases gate <;> rfl
  rw [hrecord] at hinsert
  exact hinsert

theorem tryAdmit (h : Agrees s db) (fresh : rec.Fresh) (hcap : cap ≤ Word.maxU32) :
    Together (s.tryAdmit rec cap) ((Pg.tryAdmit rec cap).alone db) := by
  rw [Pg.tryAdmit_alone]
  unfold InMemoryInner.tryAdmit InMemoryInner.put
  rw [h.active_asU32, h.contains]
  by_cases room : db.activeCount rec.tenant.raw < cap
  · rw [if_pos room, if_pos room]
    by_cases duplicate : db.leases.contains rec.leaseId = true
    · rw [if_pos duplicate, if_pos duplicate]
      exact ⟨trivial, h⟩
    · rw [if_neg duplicate, if_neg duplicate]
      have absent := not_contains_of_get duplicate
      refine ⟨rfl, h.admit_both fresh none absent (by omega) (fun g hg => nomatch hg) fun k => ?_⟩
      split
      next hk => rw [← hk, h.reservations, absent]; rfl
      · rfl
  · rw [if_neg room, if_neg room]
    exact ⟨rfl, h⟩

theorem concurrencyOnlyAdmit (h : Agrees s db) (fresh : rec.Fresh) (hcap : cap ≤ Word.maxU32) :
    Together (s.concurrencyOnlyAdmit rec cap)
      (Pg.alone ((Pg.tryAdmit rec cap).map fun res => res.map fun admitted =>
        if admitted then AdmitOutcome.admitted else .overConcurrency) db) := by
  have hmap := (h.tryAdmit fresh hcap).map concurrencyOnlyOutcome
  have hmemory : s.concurrencyOnlyAdmit rec cap =
      ((s.tryAdmit rec cap).1.map concurrencyOnlyOutcome, (s.tryAdmit rec cap).2) := by
    unfold InMemoryInner.concurrencyOnlyAdmit
    obtain ⟨res, s'⟩ := s.tryAdmit rec cap
    cases res <;> rfl
  rw [hmemory, Pg.alone_map]
  exact hmap

theorem admitGated (h : Agrees s db) (fresh : rec.Fresh) (hcap : cap ≤ Word.maxU32)
    {gate : ComputeGate} (nonzero : gate.ceilingVcpuMs ≠ 0)
    (hceiling : gate.ceilingVcpuMs ≤ maxLedgerVcpuMs)
    (hreserved : gate.newReservedVcpuMs ≤ maxLedgerVcpuMs) :
    Together (s.tryAdmitWithCompute rec cap (some gate))
      ((Pg.admitGated rec cap gate).alone db) := by
  rw [Pg.admitGated_alone]
  unfold tryAdmitWithCompute admitDecision put
  dsimp only
  rw [if_neg nonzero, h.projected rec.tenant gate, h.active_asU32, h.contains]
  by_cases past : db.projected rec.tenant.raw gate > gate.ceilingVcpuMs
  · rw [if_pos past, if_pos past]
    exact ⟨rfl, h⟩
  · rw [if_neg past, if_neg past]
    by_cases full : db.activeCount rec.tenant.raw ≥ cap
    · rw [if_pos full, if_pos full]
      exact ⟨rfl, h⟩
    · rw [if_neg full, if_neg full]
      by_cases duplicate : db.leases.contains rec.leaseId = true
      · rw [if_pos duplicate, if_pos duplicate]
        exact ⟨trivial, h⟩
      · rw [if_neg duplicate, if_neg duplicate]
        have absent := not_contains_of_get duplicate
        have used := (h.within rec.tenant.raw gate.periodKey).within
        have room := Db.usedIn_add_le used hceiling (Nat.le_of_not_lt past)
        refine ⟨rfl, h.admit_both fresh (some gate) absent (by omega) (fun g hg => ?_) fun k => ?_⟩
        · cases hg
          exact ⟨hreserved, Nat.le_trans room hceiling⟩
        · exact OrdMap.get_insert s.reservations rec.leaseId k gate.reservation

theorem tryAdmitWithCompute (h : Agrees s db) (fresh : rec.Fresh) (hcap : cap ≤ Word.maxU32)
    {gate : Option ComputeGate} (bounded : ∀ g, gate = some g →
      g.ceilingVcpuMs ≤ maxLedgerVcpuMs ∧ g.newReservedVcpuMs ≤ maxLedgerVcpuMs) :
    Together (s.tryAdmitWithCompute rec cap gate)
      ((Pg.tryAdmitWithCompute rec cap gate).alone db) := by
  unfold Pg.tryAdmitWithCompute
  cases gate with
  | none => exact h.concurrencyOnlyAdmit fresh hcap
  | some g =>
    obtain ⟨hceiling, hreserved⟩ := bounded g rfl
    by_cases zero : g.ceilingVcpuMs = 0
    · have hmemory : s.tryAdmitWithCompute rec cap (some g) = s.concurrencyOnlyAdmit rec cap :=
        if_pos zero
      have hfilter : (some g).filter (fun g => g.ceilingVcpuMs > 0) = none := by simp [zero]
      rw [hmemory, hfilter]
      exact h.concurrencyOnlyAdmit fresh hcap
    · have hfilter : (some g).filter (fun g => g.ceilingVcpuMs > 0) = some g := by
        simpa using Nat.pos_of_ne_zero zero
      have hfits : fitsLedger g.newReservedVcpuMs = true := decide_eq_true hreserved
      have hfits' : fitsLedger g.ceilingVcpuMs = true := decide_eq_true hceiling
      rw [hfilter]
      dsimp only
      rw [hfits, hfits']
      exact h.admitGated fresh hcap zero hceiling hreserved

end Agrees

theorem transitionIsLegal_iff_legalFromFor {source : LeaseState} {target : RunnerState} :
    transitionIsLegal source target = true ↔ source = legalFromFor target := by
  rcases source with _ | (_ | _ | _ | _) <;> cases target <;> simp [transitionIsLegal, legalFromFor]

theorem LeaseRow.moved_record (row : LeaseRow) (target : RunnerState) (nowMs : Nat) :
    (row.moved target nowMs).record = row.record.stamped target nowMs := by
  unfold LeaseRow.moved LeaseRecord.stamped
  cases target <;> cases row.record.billingAcquiredAtMs <;> rfl

namespace InMemoryInner

variable {s : InMemoryInner} {id : String} {rec : LeaseRecord} {target : RunnerState} {nowMs : Nat}

theorem transition_refused (refused : s.pendingCleanupClaims.contains id = true ∨
      ∀ rec, s.records[id]? = some rec → transitionIsLegal rec.state target = false) :
    ∃ e, s.transition id target nowMs = (.error e, s) := by
  unfold transition transitionCapturing
  rcases refused with claimed | illegal
  · rw [if_pos claimed]
    exact ⟨_, rfl⟩
  · split
    · exact ⟨_, rfl⟩
    · cases found : s.records[id]? with
      | none => exact ⟨_, rfl⟩
      | some rec =>
        dsimp only [applyTransition]
        rw [illegal rec found]
        exact ⟨_, rfl⟩

theorem transition_moves (unclaimed : s.pendingCleanupClaims.contains id = false)
    (found : s.records[id]? = some rec) (legal : transitionIsLegal rec.state target = true)
    (free : target.isTerminal = true → s.reservations[id]? = none) :
    s.transition id target nowMs = (.ok (rec.stamped target nowMs),
      { s with records := s.records.insert id (rec.stamped target nowMs) }) := by
  unfold transition transitionCapturing applyTransition accrueOnTerminal
  rw [unclaimed, found]
  dsimp only
  rw [legal]
  cases terminal : target.isTerminal with
  | false => rfl
  | true =>
    rw [free terminal]
    rfl

theorem transition_accrues {res : LeaseReservation}
    (unclaimed : s.pendingCleanupClaims.contains id = false) (found : s.records[id]? = some rec)
    (legal : transitionIsLegal rec.state target = true) (terminal : target.isTerminal = true)
    (reserved : s.reservations[id]? = some res) (unlatched : res.accruedAtMs = none) :
    s.transition id target nowMs = (.ok (rec.stamped target nowMs), { s with
        records := s.records.insert id (rec.stamped target nowMs)
        reservations := s.reservations.insert id { res with accruedAtMs := some nowMs }
        accruals := s.accruals.insert (rec.tenant, res.accrualPeriodKey)
          (s.accruedTotal rec res nowMs) }) := by
  unfold transition transitionCapturing applyTransition accrueOnTerminal
  rw [unclaimed, found]
  dsimp only
  rw [legal, terminal, reserved]
  dsimp only
  rw [unlatched]
  rfl

end InMemoryInner

namespace Agrees

variable {s : InMemoryInner} {db : Db} {id : String} {row : LeaseRow} {target : RunnerState}
  {nowMs : Nat}

theorem claims_eq (h : Agrees s db) {b : Bool} (claimed : db.pendingCleanupClaims.contains id = b) :
    s.pendingCleanupClaims.contains id = b :=
  (h.claims id).trans claimed

theorem transition_refused (h : Agrees s db) (refused : db.pendingCleanupClaims.contains id = true ∨
      Sql.inState db id (legalFromFor target) = none) :
    Together (s.transition id target nowMs) ((Pg.transition id target nowMs).alone db) := by
  obtain ⟨e, hmemory⟩ : ∃ e, s.transition id target nowMs = (.error e, s) := by
    refine InMemoryInner.transition_refused (refused.imp h.claims_eq fun absent rec hrec => ?_)
    rw [h.records, Option.map_eq_some_iff] at hrec
    obtain ⟨row, found, rfl⟩ := hrec
    cases legal : transitionIsLegal row.record.state target with
    | false => rfl
    | true =>
      have source := Sql.inState_eq_some.mpr ⟨found, transitionIsLegal_iff_legalFromFor.mp legal⟩
      nomatch absent.symm.trans source
  obtain ⟨e', htables⟩ : ∃ e, (Pg.transition id target nowMs).alone db = (.error e, db) :=
    Pg.transition_refused refused
  rw [hmemory, htables]
  exact ⟨trivial, h⟩

theorem transition_moves (h : Agrees s db) (found : db.leases[id]? = some row)
    (unclaimed : db.pendingCleanupClaims.contains id = false)
    (legal : row.record.state = legalFromFor target)
    (free : target.isTerminal = true → row.reservation = none)
    (tables : (Pg.transition id target nowMs).alone db = (.ok (row.moved target nowMs).record,
      db.apply (.lease id (some (row.moved target nowMs))))) :
    Together (s.transition id target nowMs) ((Pg.transition id target nowMs).alone db) := by
  have hmemory : s.transition id target nowMs = (.ok (row.record.stamped target nowMs),
      { s with records := s.records.insert id (row.record.stamped target nowMs) }) :=
    InMemoryInner.transition_moves (h.claims_eq unclaimed) (h.get_some found)
      (transitionIsLegal_iff_legalFromFor.mpr legal) fun terminal => by
        rw [h.reservations, found]
        exact free terminal
  have hkey : (row.moved target nowMs).record.leaseId = id := h.tables.keyed id row found
  have hupdate := h.update found hkey (LeaseRow.moved_lighter nowMs legal) rfl rfl rfl
  rw [hmemory, tables, ← LeaseRow.moved_record]
  exact ⟨rfl, hupdate⟩

/-- **A terminal transition with its accrual.** -/
theorem transition_closes (h : Agrees s db) {vcpu period reserved : Nat}
    (found : db.leases[id]? = some row) (unclaimed : db.pendingCleanupClaims.contains id = false)
    (legal : row.record.state = legalFromFor target) (terminal : target.isTerminal = true)
    (hvcpu : row.boxVcpuCount = some vcpu) (hperiod : row.accrualPeriodKey = some period)
    (hreserved : row.reservedVcpuMs = some reserved) (bound : reserved ≤ maxLedgerVcpuMs) :
    Together (s.transition id target nowMs) ((Pg.transition id target nowMs).alone db) := by
  have hopen : row.record.state.isActive = true := by rw [legal, legalFromFor_active]
  have unlatched := h.tables.unlatched id row found hopen
  have hreservation : row.reservation = some ⟨vcpu, period, reserved, none⟩ := by
    unfold LeaseRow.reservation
    rw [hvcpu, hperiod, hreserved, unlatched]
  have hafter : (row.movedStamped target nowMs).reservation =
      some ⟨vcpu, period, reserved, some nowMs⟩ := by
    have hlatch : (row.movedStamped target nowMs).accruedAtMs = some nowMs :=
      if_pos ⟨terminal, unlatched⟩
    have vcpus : (row.movedStamped target nowMs).boxVcpuCount = some vcpu := hvcpu
    have keyed : (row.movedStamped target nowMs).accrualPeriodKey = some period := hperiod
    have held : (row.movedStamped target nowMs).reservedVcpuMs = some reserved := hreserved
    unfold LeaseRow.reservation
    rw [hlatch, vcpus, keyed, held]
  have hmemory : s.transition id target nowMs = _ :=
    transition_accrues (h.claims_eq unclaimed) (h.get_some found)
      (transitionIsLegal_iff_legalFromFor.mpr legal) terminal
      (by rw [h.reservations, found]; exact hreservation) rfl
  have htables : (Pg.transition id target nowMs).alone db = _ :=
    Pg.transition_on found unclaimed legal hvcpu hperiod hreserved unlatched bound
      (h.tables.bounded _ _)
  have hrecord : (row.movedStamped target nowMs).record = row.record.stamped target nowMs :=
    LeaseRow.moved_record row target nowMs
  have hclosed : (row.movedStamped target nowMs).record.state.isActive = false :=
    isActive_wire_terminal terminal
  have hinserted : Agrees
      { s with
        records := s.records.insert id (row.movedStamped target nowMs).record
        reservations := s.reservations.insert id ⟨vcpu, period, reserved, some nowMs⟩ }
      (db.apply (.lease id (some (row.movedStamped target nowMs)))) :=
    h.insert (h.tables.keyed id row found) (h.tables.columns id row found)
      (fun hactive => absurd hactive (ne_true_of_eq_false hclosed)) (h.created id row found)
      (fun t p => (h.within t p).lighter found (LeaseRow.movedStamped_lighter nowMs legal))
      fun k => by rw [OrdMap.get_insert, hafter]
  -- the clamped usage, with nothing saturated on the way
  have htotal : s.accruedTotal row.record ⟨vcpu, period, reserved, none⟩ nowMs =
      min (db.accrued row.record.tenant.raw period +
        min (vcpu * (nowMs - row.record.createdAtMs)) reserved) maxLedgerVcpuMs := by
    have haccrued := h.tables.bounded row.record.tenant.raw period
    have hbound : maxLedgerVcpuMs + maxLedgerVcpuMs < Word.maxU64 := by decide
    unfold accruedTotal LeaseReservation.actual vcpuMs Word.satMul Word.satAdd
    dsimp only
    rw [h.accruals]
    generalize vcpu * (nowMs - row.record.createdAtMs) = raw
    omega
  rw [hmemory, htables, if_pos terminal, htotal]
  refine ⟨(LeaseRow.moved_record row target nowMs).symm, ?_⟩
  rw [hrecord] at hinserted
  refine hinserted.accrue (Nat.min_le_right _ _) fun t p => ?_
  refine (h.within t p).close found hopen hclosed hperiod hreserved ?_
  dsimp only
  omega

theorem transition (h : Agrees s db) :
    Together (s.transition id target nowMs) ((Pg.transition id target nowMs).alone db) := by
  cases source : Sql.inState db id (legalFromFor target) with
  | none => exact h.transition_refused (.inr source)
  | some row =>
    obtain ⟨found, legal⟩ := Sql.inState_eq_some.mp source
    cases claimed : db.pendingCleanupClaims.contains id with
    | true => exact h.transition_refused (.inl claimed)
    | false =>
      rcases h.tables.columns id row found with ⟨hvcpu, hperiod, hreserved⟩ |
        ⟨vcpu, period, reserved, hvcpu, hperiod, hreserved, bound⟩
      · refine h.transition_moves found claimed legal (fun _ => ?_)
          (Pg.transition_off found claimed legal hvcpu)
        unfold LeaseRow.reservation
        rw [hvcpu]
      · cases terminal : target.isTerminal with
        | true =>
          exact h.transition_closes found claimed legal terminal hvcpu hperiod hreserved bound
        | false =>
          have unlatched := h.tables.unlatched id row found (by rw [legal, legalFromFor_active])
          refine h.transition_moves found claimed legal
            (fun hterminal => nomatch terminal.symm.trans hterminal) ?_
          have htables : (Pg.transition id target nowMs).alone db = _ :=
            Pg.transition_on found claimed legal hvcpu hperiod hreserved unlatched bound
              (h.tables.bounded _ _)
          rw [if_neg (by rw [terminal]; exact Bool.false_ne_true)] at htables
          exact htables

/-! ### Binding and cleanup -/

theorem bindProviderRef [SerdeJson] (h : Agrees s db) (providerRef : String) :
    Together (s.bindProviderRef id providerRef) ((Pg.bindProviderRef id providerRef).alone db) := by
  have refused : (∃ e, s.bindProviderRef id providerRef = (.error e, s)) →
      ((∃ e, validateProviderRef providerRef = .error e) ∨ db.leases[id]? = none ∨
        db.pendingCleanupClaims.contains id = true) →
      Together (s.bindProviderRef id providerRef)
        ((Pg.bindProviderRef id providerRef).alone db) := by
    intro ⟨e, hmemory⟩ why
    obtain ⟨e', htables⟩ := Pg.bindProviderRef_refused why
    rw [hmemory, htables]
    exact ⟨trivial, h⟩
  cases valid : validateProviderRef providerRef with
  | error e =>
    exact refused ⟨e, by unfold InMemoryInner.bindProviderRef; rw [valid]⟩ (.inl ⟨e, valid⟩)
  | ok =>
    cases claimed : db.pendingCleanupClaims.contains id with
    | true =>
      refine refused ?_ (.inr (.inr claimed))
      unfold InMemoryInner.bindProviderRef
      rw [valid]
      exact ⟨_, if_pos (h.claims_eq claimed)⟩
    | false =>
      cases found : db.leases[id]? with
      | none =>
        refine refused ?_ (.inr (.inl found))
        unfold InMemoryInner.bindProviderRef
        rw [valid, h.get_none found]
        exact ⟨_, if_neg (by rw [h.claims_eq claimed]; exact Bool.false_ne_true)⟩
      | some row =>
        have hkey := h.tables.keyed id row found
        unfold Pg.bindProviderRef InMemoryInner.bindProviderRef
        rw [valid, h.get_some found, h.claims_eq claimed]
        rw [Pg.alone_read (Pg.ask_attribution_some found)]
        dsimp only
        rw [Pg.alone_start, Pg.inside_lockAccounted, Pg.inside_lockUnclaimed found claimed,
          if_pos rfl, Pg.bindLocked_alone found hkey, if_neg Bool.false_ne_true]
        cases hbind : bind row.record providerRef with
        | error e => exact ⟨trivial, h⟩
        | ok updated =>
          obtain ⟨-, hupdated⟩ := bind_ok hbind
          have hlighter : ({ row with record := updated } : LeaseRow).Lighter row := by
            rw [hupdated]
            exact ⟨rfl, rfl, rfl, fun hactive => hactive⟩
          have hid : updated.leaseId = id := by
            rw [hupdated]
            exact hkey
          have hcreated : updated.createdAtMs = row.record.createdAtMs := by rw [hupdated]
          have hagrees : Agrees { s with records := s.records.insert id updated }
              (db.apply (.lease id (some { row with record := updated }))) :=
            h.update found hid hlighter hcreated rfl rfl
          exact ⟨rfl, hagrees⟩

theorem removeIfPending (h : Agrees s db) (id : String) :
    Together (s.removeIfPending id) ((Pg.removeIfPending id).alone db) := by
  have kept : s.removeIfPending id = (.ok false, s) → (∀ row, db.leases[id]? = some row →
      db.pendingCleanupClaims.contains id = true ∨ row.record.state.isPending = false) →
      Together (s.removeIfPending id) ((Pg.removeIfPending id).alone db) := by
    intro hmemory why
    rw [hmemory, Pg.removeIfPending_kept why]
    exact ⟨rfl, h⟩
  cases claimed : db.pendingCleanupClaims.contains id with
  | true => exact kept (if_pos (h.claims_eq claimed)) fun _ _ => .inl claimed
  | false =>
    have hunclaimed : ¬ s.pendingCleanupClaims.contains id = true := by
      rw [h.claims_eq claimed]
      exact Bool.false_ne_true
    cases found : db.leases[id]? with
    | none =>
      refine kept ?_ fun row hrow => nomatch found.symm.trans hrow
      unfold InMemoryInner.removeIfPending InMemoryInner.get
      rw [if_neg hunclaimed, h.get_none found]
    | some row =>
      cases pending : row.record.state.isPending with
      | false =>
        refine kept ?_ fun row' hrow => ?_
        · unfold InMemoryInner.removeIfPending InMemoryInner.get
          rw [if_neg hunclaimed, h.get_some found]
          dsimp only
          rw [pending]
          rfl
        · cases found.symm.trans hrow
          exact .inr pending
      | true =>
        have hfree : s.heldWithReservation id = false := by
          unfold heldWithReservation
          rw [h.get_some found]
          dsimp only
          rw [LeaseState.isPending_iff.mp pending]
          rfl
        have hpresent : s.records.contains id = true :=
          (OrdMap.contains_iff_get _ _).mpr ⟨_, h.get_some found⟩
        have hmemory : s.removeIfPending id = (.ok true, s.forget id) := by
          unfold InMemoryInner.removeIfPending InMemoryInner.get InMemoryInner.remove
          rw [if_neg hunclaimed, if_neg hunclaimed, h.get_some found, hfree, hpresent]
          dsimp only
          rw [pending]
          rfl
        have hnot : id ∉ s.pendingCleanupClaims := fun hmem =>
          hunclaimed (Std.ExtTreeSet.contains_iff_mem.mpr hmem)
        rw [hmemory, Pg.removeIfPending_removed found claimed pending,
          forget_eq_finish hnot]
        exact ⟨rfl, h.finish id⟩

theorem finishPendingCleanup (h : Agrees s db) (id : String) :
    Together (s.finishPendingCleanup id) ((Pg.finishPendingCleanup id).alone db) := by
  have kept : s.claimedPending id = false → (∀ row, db.leases[id]? = some row →
      db.pendingCleanupClaims.contains id = false ∨ row.record.state.isPending = false) →
      Together (s.finishPendingCleanup id) ((Pg.finishPendingCleanup id).alone db) := by
    intro hmemory why
    unfold InMemoryInner.finishPendingCleanup
    rw [hmemory, Pg.finishPendingCleanup_kept why]
    exact ⟨rfl, h⟩
  cases found : db.leases[id]? with
  | none =>
    refine kept ?_ fun row hrow => nomatch found.symm.trans hrow
    unfold claimedPending isPendingAt
    rw [h.get_none found]
    exact Bool.and_false _
  | some row =>
    have hmemory : s.claimedPending id =
        (db.pendingCleanupClaims.contains id && row.record.state.isPending) := by
      unfold claimedPending
      rw [h.claims, isPendingAt, h.get_some found]
    cases claimed : db.pendingCleanupClaims.contains id with
    | false =>
      refine kept ?_ fun _ _ => .inl claimed
      rw [hmemory, claimed]
      rfl
    | true =>
      cases pending : row.record.state.isPending with
      | false =>
        refine kept ?_ fun row' hrow => ?_
        · rw [hmemory, pending]
          exact Bool.and_false _
        · cases found.symm.trans hrow
          exact .inr pending
      | true =>
        have hpresent : s.records.contains id = true :=
          (OrdMap.contains_iff_get _ _).mpr ⟨_, h.get_some found⟩
        unfold InMemoryInner.finishPendingCleanup
        rw [hmemory, claimed, pending, hpresent,
          Pg.finishPendingCleanup_finished found claimed pending]
        exact ⟨rfl, h.finish id⟩

/-- **Claiming one Pending lease**, whether it is claimed already or not. -/
theorem claim_both (h : Agrees s db) (predicate : Pg.ClaimPredicate) (claimedAtMs : Nat)
    (found : db.leases[id]? = some row)
    (pending : row.record.state.isPending = true)
    (sound : predicate.corrupt row.record.createdAtMs = false)
    (stale : predicate.spares row.record.createdAtMs = false ∨
      db.pendingCleanupClaims.contains id = true) :
    ∃ db', (∀ {A : Type} (k : Result (Option LeaseRecord) → Pg A),
        (Pg.claimOne id predicate claimedAtMs k).alone db = (k (.ok (some row.record))).alone db') ∧
      Agrees (s.claim id) db' ∧ db'.leases = db.leases ∧ ∀ id',
        db.pendingCleanupClaims.contains id' = true →
        db'.pendingCleanupClaims.contains id' = true := by
  cases claimed : db.pendingCleanupClaims.contains id with
  | true =>
    exact ⟨db, fun _ => Pg.claimOne_again found pending claimed, h.claim_again claimed, rfl,
      fun _ h => h⟩
  | false =>
    have hstale : predicate.spares row.record.createdAtMs = false :=
      stale.resolve_right fun h => nomatch claimed.symm.trans h
    refine ⟨db.apply (.claim id claimedAtMs),
      fun _ => Pg.claimOne_claims found pending claimed sound hstale,
      h.claim id claimedAtMs, rfl, fun id' h' => ?_⟩
    show (db.pendingCleanupClaims.insert id claimedAtMs).contains id' = true
    rw [Std.ExtTreeMap.contains_insert, h', Bool.or_true]

theorem claimPendingCleanup (h : Agrees s db) (id : String) (hnow : nowMs ≤ Word.maxI64) :
    Together (s.claimPendingCleanup id) ((Pg.claimPendingCleanup id nowMs).alone db) := by
  have hepoch : checkedEpochMs nowMs "now_ms" = .ok (nowMs : Int) := if_pos hnow
  unfold Pg.claimPendingCleanup InMemoryInner.claimPendingCleanup
  rw [hepoch]
  cases found : db.leases[id]? with
  | none =>
    rw [h.get_none found, Pg.claimOne_none fun row hrow => nomatch found.symm.trans hrow]
    exact ⟨rfl, h⟩
  | some row =>
    rw [h.get_some found]
    dsimp only
    cases pending : row.record.state.isPending with
    | false =>
      rw [Pg.claimOne_none fun row' hrow => by cases found.symm.trans hrow; exact pending]
      exact ⟨rfl, h⟩
    | true =>
      obtain ⟨db', htables, hagrees, -, -⟩ :=
        h.claim_both .namedPending nowMs found pending rfl (.inl rfl)
      rw [htables]
      exact ⟨rfl, hagrees⟩

def Sweepable (db : Db) (cutoffMs : Int) (record : LeaseRecord) : Prop :=
  ∃ row, db.leases[record.leaseId]? = some row ∧ row.record = record ∧
    record.state.isPending = true ∧
    ((record.createdAtMs : Int) < cutoffMs ∨ db.pendingCleanupClaims.contains record.leaseId = true)

/-- **The sweep claims its work list one by one.** -/
theorem claimEach (h : Agrees s db) {cutoffMs : Int} (claimedAtMs : Nat)
    (rows claimed : List LeaseRecord) (sweepable : ∀ r ∈ rows, Sweepable db cutoffMs r) :
    ∃ db', (Pg.claimEach (.strictlyOlderThan cutoffMs) claimedAtMs (rows.map LeaseRecord.leaseId)
        claimed).alone db = (.ok (claimed ++ rows), db') ∧
      Agrees (rows.foldl (fun s row => s.claim row.leaseId) s) db' := by
  induction rows generalizing s db claimed with
  | nil => exact ⟨db, by rw [List.append_nil]; rfl, h⟩
  | cons record rows ih =>
    obtain ⟨row, found, hrecord, pending, stale⟩ := sweepable record List.mem_cons_self
    subst hrecord
    have hcreated := h.created _ row found
    have sound : (Pg.ClaimPredicate.strictlyOlderThan cutoffMs).corrupt
        row.record.createdAtMs = false :=
      decide_eq_false (Nat.not_lt.mpr hcreated)
    have hspared :
        (Pg.ClaimPredicate.strictlyOlderThan cutoffMs).spares row.record.createdAtMs = false ∨
        db.pendingCleanupClaims.contains row.record.leaseId = true :=
      stale.imp_left fun hlt => decide_eq_false (Int.not_le.mpr hlt)
    obtain ⟨db1, htables, hagrees, hleases, hgrow⟩ := h.claim_both (.strictlyOlderThan cutoffMs)
      claimedAtMs found pending sound hspared
    -- the rest of the work list is as sweepable as before: claims only grow
    have hrest : ∀ r ∈ rows, Sweepable db1 cutoffMs r := by
      intro r hr
      obtain ⟨row', found', hrecord', pending', stale'⟩ := sweepable r (List.mem_cons_of_mem _ hr)
      exact ⟨row', by rw [hleases, found'], hrecord', pending', stale'.imp_right (hgrow _)⟩
    obtain ⟨db2, hrun, hfinal⟩ := ih hagrees (claimed ++ [row.record]) hrest
    refine ⟨db2, ?_, hfinal⟩
    rw [List.append_assoc] at hrun
    exact (htables _).trans hrun

theorem claimStalePendingCleanup (h : Agrees s db) {maxAgeMs : Nat} (hnow : nowMs ≤ Word.maxI64)
    (hage : maxAgeMs ≤ Word.maxI64) : Together (s.claimStalePendingCleanup nowMs maxAgeMs)
      ((Pg.claimStalePendingCleanup nowMs maxAgeMs).alone db) := by
  have hcutoff : strictCutoffMs nowMs maxAgeMs = .ok ((nowMs : Int) - maxAgeMs) := by
    unfold strictCutoffMs checkedEpochMs
    rw [if_pos hnow, if_pos hage]
    rfl
  have hids : Sql.ask db (.staleIds ((nowMs : Int) - maxAgeMs)) =
      ((s.candidates nowMs maxAgeMs).map LeaseRecord.leaseId, []) := by
    have hrows : db.records (fun row => row.record.state.isPending &&
        (asI64 row.record.createdAtMs < (nowMs : Int) - maxAgeMs ||
          db.pendingCleanupClaims.contains row.record.leaseId)) = s.candidates nowMs maxAgeMs := by
      refine h.records_eq fun id row found => ?_
      rw [h.stale_iff found, ← h.claims]
      unfold isStalePending
      cases row.record.state.isPending <;> rfl
    exact congrArg (fun rows => (rows.map LeaseRecord.leaseId, [])) hrows
  have hsweepable : ∀ r ∈ s.candidates nowMs maxAgeMs,
      Sweepable db ((nowMs : Int) - maxAgeMs) r := by
    intro r hr
    obtain ⟨hmem, hsel⟩ := List.mem_filter.mp ((List.mem_insertionSort _).mp hr)
    obtain ⟨id, hid⟩ := OrdMap.mem_vals.mp hmem
    rw [h.records, Option.map_eq_some_iff] at hid
    obtain ⟨row, found, rfl⟩ := hid
    have hkey := h.tables.keyed id row found
    rw [Bool.and_eq_true, Bool.or_eq_true, isStalePending, Bool.and_eq_true,
      decide_eq_true_eq, h.claims] at hsel
    obtain ⟨pending, why⟩ := hsel
    refine ⟨row, by rw [hkey, found], rfl, pending, why.imp_left fun hstale => ?_⟩
    omega
  obtain ⟨db', hrun, hagrees⟩ := h.claimEach nowMs _ [] hsweepable
  unfold Pg.claimStalePendingCleanup InMemoryInner.claimStalePendingCleanup
  rw [hcutoff]
  rw [Pg.alone_read hids, hrun]
  exact ⟨rfl, hagrees⟩

end Agrees

/-! ## Whole runs -/

inductive SharedCall
  | tryAdmit (rec : LeaseRecord) (maxConcurrency : Nat)
  | tryAdmitWithCompute (rec : LeaseRecord) (maxConcurrency : Nat) (gate : Option ComputeGate)
  | transition (leaseId : String) (target : RunnerState) (nowMs : Nat)
  | bindProviderRef (leaseId providerRef : String)
  | claimPendingCleanup (leaseId : String) (nowMs : Nat)
  | claimStalePendingCleanup (nowMs maxAgeMs : Nat)
  | finishPendingCleanup (leaseId : String)
  | removeIfPending (leaseId : String)

namespace SharedCall

def onMemory : SharedCall → LedgerOp
  | tryAdmit rec cap => .tryAdmit rec cap
  | tryAdmitWithCompute rec cap gate => .tryAdmitWithCompute rec cap gate
  | transition id target nowMs => .transition id target nowMs
  | bindProviderRef id providerRef => .bindProviderRef id providerRef
  | claimPendingCleanup id nowMs => .claimPendingCleanup id nowMs
  | claimStalePendingCleanup nowMs maxAgeMs => .claimStalePendingCleanup nowMs maxAgeMs
  | finishPendingCleanup id => .finishPendingCleanup id
  | removeIfPending id => .removeIfPending id

def onPg : SharedCall → PgCall
  | tryAdmit rec cap => .tryAdmit rec cap
  | tryAdmitWithCompute rec cap gate => .tryAdmitWithCompute rec cap gate
  | transition id target nowMs => .transition id target nowMs
  | bindProviderRef id providerRef => .bindProviderRef id providerRef
  | claimPendingCleanup id nowMs => .claimPendingCleanup id nowMs
  | claimStalePendingCleanup nowMs maxAgeMs => .claimStalePendingCleanup nowMs maxAgeMs
  | finishPendingCleanup id => .finishPendingCleanup id
  | removeIfPending id => .removeIfPending id

/-- Fresh records, caps that are 32-bit words, and 64-bit arguments that fit a signed column. -/
def Bounded : SharedCall → Prop
  | tryAdmit rec cap => rec.Fresh ∧ cap ≤ Word.maxU32
  | tryAdmitWithCompute rec cap gate => rec.Fresh ∧ cap ≤ Word.maxU32 ∧ ∀ g, gate = some g →
      g.ceilingVcpuMs ≤ Word.maxI64 ∧ g.newReservedVcpuMs ≤ Word.maxI64 ∧
        g.boxVcpuCount ≤ Word.maxI32
  | transition _ _ nowMs => nowMs ≤ Word.maxI64
  | claimPendingCleanup _ nowMs => nowMs ≤ Word.maxI64
  | claimStalePendingCleanup nowMs maxAgeMs => nowMs ≤ Word.maxI64 ∧ maxAgeMs ≤ Word.maxI64
  | _ => True

end SharedCall

structure Ledgers where
  memory : InMemoryInner
  tables : Db

namespace Ledgers

def empty : Ledgers := ⟨.empty, .empty⟩

def step [SerdeJson] (l : Ledgers) (call : SharedCall) : Ledgers :=
  ⟨(l.memory.exec call.onMemory).2, (call.onPg.exec.alone l.tables).2⟩

structure ReadsAgree (l : Ledgers) : Prop where
  get : ∀ id, (Pg.get id).alone l.tables = (l.memory.get id, l.tables)
  byTenant : ∀ tenant, (Pg.byTenant tenant).alone l.tables = (l.memory.byTenant tenant, l.tables)
  held : Pg.held.alone l.tables = (l.memory.held, l.tables)
  pendingOlderThan : ∀ nowMs maxAgeMs, nowMs ≤ Word.maxI64 → maxAgeMs ≤ Word.maxI64 →
    (Pg.pendingOlderThan nowMs maxAgeMs).alone l.tables =
      (.ok (l.memory.pendingOlderThan nowMs maxAgeMs), l.tables)
  computeAccrued : ∀ tenant periodKey, (Pg.computeAccrued tenant periodKey).alone l.tables =
    (l.memory.computeAccrued tenant periodKey, l.tables)

end Ledgers

theorem Together.reply {α : Type} {memory : Result α × InMemoryInner} {p : Pg (Result α)} {db : Db}
    (f : α → Reply) (h : Together memory (p.alone db)) :
    Together ((replying f memory).1.map PgReply.ledger, (replying f memory).2)
      ((p.reply fun a => .ledger (f a)).alone db) := by
  have hmap := h.map fun a => PgReply.ledger (f a)
  have hmemory : (memory.1.map f).map PgReply.ledger = memory.1.map fun a =>
      PgReply.ledger (f a) := by
    cases memory.1 <;> rfl
  unfold Pg.reply replying
  rw [Pg.alone_map, hmemory]
  exact hmap

/-- **One call on both sides.** -/
theorem Agrees.exec [SerdeJson] {s : InMemoryInner} {db : Db} (h : Agrees s db) (call : SharedCall)
    (bounded : call.Bounded) :
    Together ((s.exec call.onMemory).1.map PgReply.ledger, (s.exec call.onMemory).2)
      (call.onPg.exec.alone db) := by
  cases call with
  | tryAdmit rec cap => exact (h.tryAdmit bounded.1 bounded.2).reply .flag
  | tryAdmitWithCompute rec cap gate =>
    obtain ⟨fresh, hcap, hgate⟩ := bounded
    exact (h.tryAdmitWithCompute fresh hcap fun g hg => ⟨(hgate g hg).1, (hgate g hg).2.1⟩).reply
      .outcome
  | transition id target nowMs => exact h.transition.reply .record
  | bindProviderRef id providerRef => exact (h.bindProviderRef providerRef).reply .record
  | claimPendingCleanup id nowMs => exact (h.claimPendingCleanup id bounded).reply .candidate
  | claimStalePendingCleanup nowMs maxAgeMs =>
    exact (h.claimStalePendingCleanup bounded.1 bounded.2).reply .records
  | finishPendingCleanup id => exact (h.finishPendingCleanup id).reply .flag
  | removeIfPending id => exact (h.removeIfPending id).reply .flag

theorem Agrees.reads {l : Ledgers} (h : Agrees l.memory l.tables) : l.ReadsAgree where
  get id := by
    have hget : Sql.ask l.tables (.selectLease id) = (l.memory.get id, []) :=
      congrArg (·, []) (h.records id).symm
    exact Pg.alone_read hget
  byTenant tenant := by
    have hrows := h.records_eq (p := fun row => row.record.tenant.raw = tenant.raw)
      (q := fun r => r.tenant = tenant) fun id row found => by
        rw [decide_eq_decide]
        exact ⟨TenantId.ext_raw, congrArg TenantId.raw⟩
    exact Pg.alone_read (congrArg (·, []) hrows)
  held := by
    have hrows := h.records_eq (p := fun row => row.record.state.isHeld)
      (q := fun r => r.state.isHeld) fun _ _ _ => rfl
    exact Pg.alone_read (congrArg (·, []) hrows)
  pendingOlderThan nowMs maxAgeMs hnow hage := by
    have hcutoff : strictCutoffMs nowMs maxAgeMs = .ok ((nowMs : Int) - maxAgeMs) := by
      unfold strictCutoffMs checkedEpochMs
      rw [if_pos hnow, if_pos hage]
      rfl
    have hrows := h.records_eq (p := fun row => row.record.state.isPending &&
        asI64 row.record.createdAtMs < (nowMs : Int) - maxAgeMs)
      (q := fun r => isStalePending r (nowMs - maxAgeMs)) fun id row found => by
        rw [h.stale_iff found]
        rfl
    unfold Pg.pendingOlderThan
    rw [hcutoff]
    exact Pg.alone_read (congrArg (·, []) hrows)
  computeAccrued tenant periodKey := by
    exact Pg.alone_read (congrArg (·, []) (h.accruals tenant periodKey).symm)

/-- **The two backends are observationally equivalent**: after every run of calls, every next call
gives the same value or fails on both, and every read answers the same. -/
theorem ledgers_agree [SerdeJson] (calls : List SharedCall)
    (bounded : ∀ call ∈ calls, call.Bounded) :
    let l := calls.foldl Ledgers.step .empty
    (∀ call : SharedCall, call.Bounded →
      SameResult ((l.memory.exec call.onMemory).1.map PgReply.ledger)
        (call.onPg.exec.alone l.tables).1) ∧ l.ReadsAgree := by
  have hrun : ∀ l : Ledgers, Agrees l.memory l.tables →
      Agrees (calls.foldl Ledgers.step l).memory (calls.foldl Ledgers.step l).tables := by
    induction calls with
    | nil => exact fun _ h => h
    | cons call calls ih =>
      intro l h
      have hstep := (h.exec call (bounded call List.mem_cons_self)).agrees
      exact ih (fun c hc => bounded c (List.mem_cons_of_mem _ hc)) (l.step call) hstep
  have h := hrun .empty .empty
  exact ⟨fun call hcall => (h.exec call hcall).same, h.reads⟩

section

attribute [local instance] refuseJson

/-- A lease from its admission to its release, and one that is swept up. -/
def sharedRun : List SharedCall :=
  [.tryAdmitWithCompute (acmeLease "l1") 2 (some ⟨202401, 100, 2, 60⟩), .transition "l1" .held 1010,
    .tryAdmit (acmeLease "l2") 2, .claimStalePendingCleanup 5000 10,
    .transition "l1" .released 1020]

theorem ledgers_agree_sharedRun :
    let l := sharedRun.foldl Ledgers.step .empty
    SameResult ((l.memory.exec (.finishPendingCleanup "l2")).1.map PgReply.ledger)
      ((PgCall.finishPendingCleanup "l2").exec.alone l.tables).1 ∧ l.ReadsAgree := by
  have created : 1000 ≤ Word.maxI64 := by decide
  have fresh : ∀ id, (acmeLease id).Fresh := fun _ => ⟨rfl, rfl, rfl, created⟩
  have h := ledgers_agree sharedRun fun call hcall => by
    simp only [sharedRun, List.mem_cons, List.not_mem_nil, or_false] at hcall
    rcases hcall with rfl | rfl | rfl | rfl | rfl
    · refine ⟨fresh _, by decide, fun g hg => ?_⟩
      cases hg
      decide
    · show 1010 ≤ Word.maxI64
      decide
    · exact ⟨fresh _, by decide⟩
    · show 5000 ≤ Word.maxI64 ∧ 10 ≤ Word.maxI64
      decide
    · show 1020 ≤ Word.maxI64
      decide
  exact ⟨h.1 (.finishPendingCleanup "l2") trivial, h.2⟩

end

/-! ## The file ledger beside the tables -/

/-- A file ledger and the tables, on the same calls. -/
structure Durables where
  file : FileState
  tables : Db

/-- A call on both, or a restart of the process in front of the file. -/
def Durables.step [SerdeJson] (d : Durables) : Option SharedCall → Durables
  | none => ⟨d.file.reopen, d.tables⟩
  | some call => ⟨d.file.settle call.onMemory, (call.onPg.exec.alone d.tables).2⟩

/-- **The durable ledgers are observationally equivalent**: after every run of calls whose appends
succeed, with the file opened again at any points of it, every next call gives the same value or
fails on both, and every read answers the same. -/
theorem durable_ledgers_agree [SerdeJson] (events : List (Option SharedCall))
    (bounded : ∀ call, some call ∈ events → call.Bounded) :
    let d := events.foldl Durables.step ⟨.initial, .empty⟩
    (∀ call : SharedCall, call.Bounded →
      SameResult ((FileInner.exec d.file.index call.onMemory).settle.1.1.map PgReply.ledger)
        (call.onPg.exec.alone d.tables).1) ∧ Ledgers.ReadsAgree ⟨d.file.index, d.tables⟩ := by
  have run : ∀ d : Durables, d.file.Agrees → Agrees d.file.index d.tables →
      (events.foldl Durables.step d).file.Agrees ∧
        Agrees (events.foldl Durables.step d).file.index (events.foldl Durables.step d).tables := by
    induction events with
    | nil => exact fun _ journal same => ⟨journal, same⟩
    | cons event events ih =>
      intro d journal same
      have later := ih fun call mem => bounded call (List.mem_cons_of_mem _ mem)
      cases event with
      | none =>
        refine later _ journal.reopen ?_
        show Agrees (InMemoryInner.empty.replay d.file.lines) d.tables
        rw [journal.replays]
        exact same
      | some call =>
        refine later _ (journal.steps (FileInner.settle_steps journal.wellFormed _)) ?_
        show Agrees (FileInner.exec d.file.index call.onMemory).settle.1.2 _
        rw [FileInner.settle_exec journal.wellFormed]
        exact (same.exec call (bounded call List.mem_cons_self)).agrees
  obtain ⟨journal, same⟩ := run ⟨.initial, .empty⟩ FileState.initial_agrees .empty
  refine ⟨fun call fits => ?_, same.reads⟩
  rw [FileInner.settle_exec journal.wellFormed]
  exact (same.exec call fits).same

section

attribute [local instance] refuseJson

/-- A lease is admitted, and the file is opened again. -/
theorem durable_ledgers_agree_restarted :
    let d := [some (SharedCall.tryAdmit (acmeLease "l1") 1), none].foldl Durables.step
      ⟨.initial, .empty⟩
    Ledgers.ReadsAgree ⟨d.file.index, d.tables⟩ := by
  refine (durable_ledgers_agree _ fun call mem => ?_).2
  obtain rfl : call = .tryAdmit (acmeLease "l1") 1 := by simpa using mem
  exact ⟨⟨rfl, rfl, rfl, by decide⟩, by decide⟩

end

end CorelinkRunners
