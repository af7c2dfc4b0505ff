import CorelinkRunners.Pg.Safety
import CorelinkRunners.Ledger.Ceiling

/-!
# No accrual is lost, as far as the pre-read goes

`PgLedger::transition` reads a lease before it locks anything, and the reading decides three things:
whether the transition accounts at all, which advisory lock it takes, and the tenant and period it
accrues to. The lease it then locks is whatever goes by the same id. When the
id was freed and admitted again in between, a charge is lost (`readmitted_charge_lost`).
-/

namespace CorelinkRunners

open Kit

/-! ## Runs of the ledger -/

abbrev PgSystem : Type := System Sql Sql.Ans PgLock Write Committed (Result PgReply)

def PgSystem.empty : PgSystem := System.initial ⟨Db.empty, []⟩

def PgSystem.step [SerdeJson] : PgSystem → TxnEvent PgCall → PgSystem :=
    System.step pgStore PgCall.exec

def PgSystem.Meets (allowed : PgCall → Prop) (strict : Bool) (s : PgSystem)
    (event : TxnEvent PgCall) : Prop :=
  System.Meets allowed (fun d ws q => PgCond strict d ws q = true) s event

instance {allowed : PgCall → Prop} [DecidablePred allowed] {strict : Bool} (s : PgSystem)
    (event : TxnEvent PgCall) : Decidable (s.Meets allowed strict event) :=
  inferInstanceAs
    (Decidable (System.Meets allowed (fun d ws q => PgCond strict d ws q = true) s event))

theorem PgSystem.invariant [SerdeJson] {allowed : PgCall → Prop} {strict : Bool}
    {J : Committed → Prop} {d : Committed} {events : List (TxnEvent PgCall)}
    (keeps : ∀ {call : PgCall} {held : PgLock → Prop} {d : Committed} {ws : List Write},
      allowed call → d.db.WellFormed → J d → PgMove strict call held d.db ws →
      J (pgStore.publish d ws))
    (wf : d.db.WellFormed) (start : J d)
    (along : Along PgSystem.step (PgSystem.Meets allowed strict) (System.initial d) events) :
    J (events.foldl PgSystem.step (System.initial d)).shared := by
  have moves : ∀ {call held d d'}, allowed call → (pgProtocol strict).Inv d → J d →
      (pgProtocol strict).Move call held d d' → J d' := by
    intro call held d d' hallowed wf hJ move
    obtain ⟨ws, rfl, move⟩ := move
    exact keeps hallowed wf hJ move
  exact System.invariant (fun call d _ _ => PgCall.exec_safe call d) moves wf start along

/-! ## What falls due -/

/-- What the charges owe to a tenant's accrual of a period. -/
def owed (due : List Charge) (tenant : String) (periodKey : Nat) : Nat :=
  ((due.filter fun c => c.tenant = tenant ∧ c.periodKey = periodKey).map (·.amount)).sum

@[simp]
theorem owed_nil (tenant : String) (periodKey : Nat) : owed [] tenant periodKey = 0 := rfl

theorem owed_singleton (c : Charge) (tenant : String) (periodKey : Nat) :
    owed [c] tenant periodKey =
      if c.tenant = tenant ∧ c.periodKey = periodKey then c.amount else 0 := by
  unfold owed
  split
  next h => simp [h]
  next h => simp [h]

/-- The calls that bring usage in from outside: a period's baseline, a settled reservation. -/
def PgCall.importsUsage : PgCall → Bool
  | initializePeriod _ => true
  | settle _ _ => true
  | _ => false

variable {db : Db} {row : LeaseRow}

theorem Db.charges_lease {id : String} (after : LeaseRow) (found : db.leases[id]? = some row) :
    db.charges [.lease id (some after)] = (row.charge after).toList := by
  unfold Db.charges
  rw [List.filterMap_cons]
  simp only [found, Option.bind_some]
  cases row.charge after with
  | none => rfl
  | some c => rfl

theorem LeaseRow.charge_open {after : LeaseRow}
    (stays : row.record.state.isActive = true → after.record.state.isActive = true) :
    row.charge after = none := by
  unfold LeaseRow.charge
  split
  · rw [if_neg]
    intro h
    nomatch (stays h.1).symm.trans h.2
  · rfl

/-- A move with no charge in it leaves the accruals alone, one with a charge adds it. -/
def Accrues (db : Db) (ws : List Write) : Prop :=
  ∀ tenant periodKey, (db.applyAll ws).accrued tenant periodKey =
    min (db.accrued tenant periodKey + owed (db.charges ws) tenant periodKey) maxLedgerVcpuMs

variable {ws : List Write}

theorem Accrues.of_no_charge (wf : db.WellFormed)
    (same : ∀ tenant periodKey, (db.applyAll ws).accrued tenant periodKey =
      db.accrued tenant periodKey)
    (none : db.charges ws = []) : Accrues db ws := by
  intro tenant periodKey
  rw [same, none, owed_nil, Nat.add_zero, Nat.min_eq_left (wf.bounded tenant periodKey)]

/-- **Each move accrues what falls due by it.** -/
theorem PgMove.accrues {call : PgCall} {held : PgLock → Prop} (native : call.importsUsage = false)
    (wf : db.WellFormed) (move : PgMove true call held db ws) : Accrues db ws := by
  cases move with
  | idle => exact .of_no_charge wf (fun _ _ => rfl) rfl
  | reserve _ _ _ fresh =>
    refine .of_no_charge wf (fun _ _ => rfl) ?_
    simp [Db.charges, fresh]
  | rebind _ found =>
    refine .of_no_charge wf (fun _ _ => rfl) ?_
    rw [Db.charges_lease _ found]
    exact congrArg Option.toList (LeaseRow.charge_open fun h => h)
  | @move id target nowMs row _ found _ unaccounted =>
    refine .of_no_charge wf (fun _ _ => rfl) ?_
    rw [Db.charges_lease _ found]
    cases hterminal : target.isTerminal with
    | true =>
      rw [LeaseRow.charge, unaccounted rfl hterminal]
      rfl
    | false =>
      have hopen : (row.moved target nowMs).record.state.isActive = true :=
        isActive_wire_open hterminal
      rw [LeaseRow.charge_open fun _ => hopen]
      rfl
  | @close id target nowMs vcpu period reserved row _ _ found legal terminal hvcpu hperiod
      hreserved =>
    intro tenant periodKey
    -- a lease that is closed owes its clamped usage
    have hcharge : row.charge (row.movedStamped target nowMs) = some ⟨row.record.tenant.raw, period,
        min (vcpu * (nowMs - row.record.createdAtMs)) reserved⟩ := by
      unfold LeaseRow.charge
      rw [hvcpu, hperiod, hreserved]
      exact if_pos ⟨by rw [legal, legalFromFor_active], isActive_wire_terminal terminal⟩
    have hcharges : db.charges [.lease id (some (row.movedStamped target nowMs)),
        .accrual row.record.tenant.raw period (min (db.accrued row.record.tenant.raw period +
          min (vcpu * (nowMs - row.record.createdAtMs)) reserved) maxLedgerVcpuMs)] =
        [⟨row.record.tenant.raw, period,
          min (vcpu * (nowMs - row.record.createdAtMs)) reserved⟩] := by
      simp [Db.charges, found, hcharge]
    rw [hcharges, owed_singleton]
    refine (Db.accrued_accrual
      (db.apply (.lease id (some (row.movedStamped target nowMs)))) row.record.tenant.raw tenant
      period periodKey _).trans ?_
    simp only [Prod.mk.injEq]
    split
    next h =>
      obtain ⟨rfl, rfl⟩ := h
      rfl
    · exact (Nat.min_eq_left (wf.bounded tenant periodKey)).symm
  | delete => exact .of_no_charge wf (fun _ _ => rfl) rfl
  | claim => exact .of_no_charge wf (fun _ _ => rfl) rfl
  | baseline initializes =>
    subst initializes
    nomatch native
  | reserveExternal => exact .of_no_charge wf (fun _ _ => rfl) rfl
  | fence => exact .of_no_charge wf (fun _ _ => rfl) rfl
  | turn => exact .of_no_charge wf (fun _ _ => rfl) rfl
  | settle settles =>
    subst settles
    nomatch native

/-! ## Over whole runs -/

/-- **No accrual is lost and none is made twice**: along every run without imported usage in which
each transition moves the lease its pre-read saw, the accrual of every tenant and period is the sum
of what the closed leases owe, cut at the ledger bound. -/
theorem accrual_exact [SerdeJson] (events : List (TxnEvent PgCall))
    (along : Along PgSystem.step (PgSystem.Meets (fun call => call.importsUsage = false) true)
      PgSystem.empty events) (tenant : String) (periodKey : Nat) :
    (events.foldl PgSystem.step PgSystem.empty).shared.db.accrued tenant periodKey =
      min (owed (events.foldl PgSystem.step PgSystem.empty).shared.due tenant periodKey)
        maxLedgerVcpuMs := by
  refine PgSystem.invariant (J := fun d => ∀ tenant periodKey, d.db.accrued tenant periodKey =
    min (owed d.due tenant periodKey) maxLedgerVcpuMs) ?_ Db.WellFormed.empty ?_ along tenant
    periodKey
  · intro call held d ws native wf hJ move tenant periodKey
    have hstep := PgMove.accrues native wf move tenant periodKey
    have hdue : owed (d.due ++ d.db.charges ws) tenant periodKey =
        owed d.due tenant periodKey + owed (d.db.charges ws) tenant periodKey := by simp [owed]
    have hbefore := hJ tenant periodKey
    calc (d.db.applyAll ws).accrued tenant periodKey
        = min (d.db.accrued tenant periodKey + owed (d.db.charges ws) tenant periodKey)
            maxLedgerVcpuMs := hstep
      _ = min (owed (d.due ++ d.db.charges ws) tenant periodKey) maxLedgerVcpuMs := by
          rw [hdue, hbefore]
          omega
  · intro tenant periodKey
    rfl

section

attribute [local instance] refuseJson

def alone (i : Nat) (call : PgCall) : List (TxnEvent PgCall) :=
  .start i call :: List.replicate 10 (.step i)

/-- Two sessions close one lease at the same time, statement by statement in turn. -/
def closedTwice : List (TxnEvent PgCall) :=
  alone 1 (.tryAdmitWithCompute (acmeLease "l1") 5 (some ⟨202401, 100, 2, 60⟩)) ++
    alone 1 (.transition "l1" .held 1010) ++
    [.start 1 (.transition "l1" .released 1020), .start 2 (.transition "l1" .crashed 1100)] ++
    (List.replicate 20 [.step 1, .step 2]).flatten

theorem accrual_exact_closedTwice :
    (closedTwice.foldl PgSystem.step PgSystem.empty).shared.due = [⟨"acme", 202401, 40⟩] ∧
      (closedTwice.foldl PgSystem.step PgSystem.empty).shared.db.accrued "acme" 202401 =
        min (owed (closedTwice.foldl PgSystem.step PgSystem.empty).shared.due "acme" 202401)
          maxLedgerVcpuMs :=
  ⟨by decide +kernel, accrual_exact closedTwice (by decide +kernel) "acme" 202401⟩

/-- Session 0 is about to release `l1` and has read that it has no compute columns. Then `l1` is
removed, admitted again with a reservation and held, and only now session 0 goes on. -/
def readmitted : List (TxnEvent PgCall) :=
  alone 1 (.tryAdmitWithCompute (acmeLease "l1") 5 none) ++
    [.start 0 (.transition "l1" .released 1100), .step 0] ++
    alone 1 (.removeIfPending "l1") ++
    alone 1 (.tryAdmitWithCompute (acmeLease "l1") 5 (some ⟨202401, 100, 2, 60⟩)) ++
    alone 1 (.transition "l1" .held 1010) ++
    List.replicate 10 (.step 0)

/-- The lease was admitted with compute columns and released, and nothing was accrued. -/
theorem readmitted_charge_lost :
    (readmitted.foldl PgSystem.step PgSystem.empty).shared.due = [⟨"acme", 202401, 60⟩] ∧
      (readmitted.foldl PgSystem.step PgSystem.empty).shared.db.accrued "acme" 202401 = 0 := by
  decide +kernel

end

end CorelinkRunners
