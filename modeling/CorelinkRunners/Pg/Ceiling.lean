import CorelinkRunners.Pg.Accrual
import CorelinkRunners.Pg.Alone

/-!
# One cap and one ceiling for all instances

Native admissions and external reservations of a tenant share one budget for a period: what was
accrued, what open leases reserved and what open external reservations reserved. Every admission of
the tenant runs under its advisory lock. Over every interleaving the tenant stays within its cap and
its ceiling (`shared_ceiling`), as long as an accrual goes to the tenant and the period of the lease
that was closed; the pre-read of `PgLedger::transition` does not make sure of that
(`foreign_accrual`).
-/

namespace CorelinkRunners

open Kit OrdMap

/-- A call fits the policy of a tenant: its admissions use the tenant's cap, its gates and its
external reservations in the period carry the ceiling, and nothing is settled. -/
def PgCall.agrees (tenant : String) (cap periodKey ceiling : Nat) : PgCall → Bool
  | settle _ _ => false
  | reserve r _ => r.tenantId ≠ tenant || r.periodKey ≠ periodKey || r.ceilingVcpuMs = ceiling
  | call => call.admits.all fun (rec, m, gate) => rec.tenant.raw ≠ tenant ||
      (m = cap && gate.all fun g => g.periodKey ≠ periodKey || g.ceilingVcpuMs = ceiling)

/-- The tenant is within its cap, and in a period within its ceiling. -/
structure Db.Within (tenant : String) (cap periodKey ceiling : Nat) (db : Db) : Prop where
  capped : db.activeCount tenant ≤ cap
  within : db.usedIn tenant periodKey ≤ ceiling

namespace PgCall

variable {tenant : String} {cap periodKey ceiling : Nat} {call : PgCall}

theorem agrees_admits {rec : LeaseRecord} {m : Nat} {gate : Option ComputeGate}
    (h : call.agrees tenant cap periodKey ceiling = true)
    (admits : call.admits = some (rec, m, gate)) (own : rec.tenant.raw = tenant) :
    m = cap ∧ ∀ g, gate = some g → g.periodKey = periodKey → g.ceilingVcpuMs = ceiling := by
  have fits : (call.admits.all fun (rec, m, gate) => rec.tenant.raw ≠ tenant ||
      (m = cap && gate.all fun g => g.periodKey ≠ periodKey || g.ceilingVcpuMs = ceiling)) =
      true := by
    cases call <;> first | exact h | nomatch admits
  rw [admits] at fits
  simp only [Option.all_some, own, ne_eq, not_true_eq_false, decide_false, Bool.false_or,
    Bool.and_eq_true, decide_eq_true_eq] at fits
  refine ⟨fits.1, fun g hgate hperiod => ?_⟩
  simpa [hgate, hperiod] using fits.2

end PgCall

/-! ## What moves keep -/

namespace Db.Within

variable {tenant : String} {cap periodKey ceiling : Nat} {db : Db}

theorem lighter {id : String} {after before : LeaseRow} (h : db.Within tenant cap periodKey ceiling)
    (found : db.leases[id]? = some before) (lighter : after.Lighter before) :
    (db.apply (.lease id (some after))).Within tenant cap periodKey ceiling := by
  have hactive : sumBy (fun _ row => Db.activeWeight tenant row) (db.leases.insert id after) ≤
      db.activeCount tenant := sumBy_insert_le found (lighter.activeWeight_le tenant)
  have hnative : sumBy (fun _ row => Db.leaseWeight tenant periodKey row)
      (db.leases.insert id after) ≤ db.reservedNative tenant periodKey :=
    sumBy_insert_le found (lighter.leaseWeight_le tenant periodKey)
  refine ⟨Nat.le_trans hactive h.capped, ?_⟩
  have hused := h.within
  show db.accrued tenant periodKey + sumBy _ (db.leases.insert id after) +
    db.reservedExternal tenant periodKey ≤ ceiling
  unfold Db.usedIn at hused
  omega

theorem delete {id : String} (h : db.Within tenant cap periodKey ceiling) :
    (db.apply (.lease id none)).Within tenant cap periodKey ceiling := by
  have hactive : sumBy (fun _ row => Db.activeWeight tenant row) (db.leases.erase id) ≤
      db.activeCount tenant := sumBy_erase_le
  have hnative : sumBy (fun _ row => Db.leaseWeight tenant periodKey row)
      (db.leases.erase id) ≤ db.reservedNative tenant periodKey := sumBy_erase_le
  refine ⟨Nat.le_trans hactive h.capped, ?_⟩
  have hused := h.within
  show db.accrued tenant periodKey + sumBy _ (db.leases.erase id) +
    db.reservedExternal tenant periodKey ≤ ceiling
  unfold Db.usedIn at hused
  omega

theorem external {row : ExternalRow} (h : db.Within tenant cap periodKey ceiling)
    (room : db.accrued tenant periodKey + db.reservedNative tenant periodKey +
      OrdMap.sumBy (fun _ row => Db.externalWeight tenant periodKey row)
        (db.externalComputeReservations.insert row.grant.reservationId row) ≤ ceiling) :
    (db.apply (.external row)).Within tenant cap periodKey ceiling :=
  ⟨h.capped, room⟩

end Db.Within

variable {tenant : String} {db : Db}

/-- A fresh lease of the tenant fits the room that its gate saw: below the ledger bound nothing
saturates, so what the gate compared is the sum itself. -/
theorem Db.usedIn_add_le {gate : ComputeGate}
    (used : db.usedIn tenant gate.periodKey ≤ maxLedgerVcpuMs)
    (fits : gate.ceilingVcpuMs ≤ maxLedgerVcpuMs)
    (within : db.projected tenant gate ≤ gate.ceilingVcpuMs) :
    db.usedIn tenant gate.periodKey + gate.newReservedVcpuMs ≤ gate.ceilingVcpuMs := by
  have hbound : maxLedgerVcpuMs < Word.maxU64 := by decide
  unfold Db.projected Word.satAdd at within
  unfold Db.usedIn at used ⊢
  omega

variable {rec : LeaseRecord} {gate : Option ComputeGate} {periodKey cap ceiling : Nat}

/-- **An admission stays within cap and ceiling.** -/
theorem Db.Within.reserve (h : db.Within tenant cap periodKey ceiling)
    (fresh : db.leases[rec.leaseId]? = none)
    (room : rec.tenant.raw = tenant → db.activeCount tenant < cap)
    (within : rec.tenant.raw = tenant → ∀ g, gate = some g → g.periodKey = periodKey →
      db.usedIn tenant periodKey + g.newReservedVcpuMs ≤ ceiling) :
    (db.apply (.lease rec.leaseId (some (.admitted rec gate)))).Within tenant cap periodKey
    ceiling := by
  have hused := h.within
  unfold Db.usedIn at hused within
  have hactive : sumBy (fun _ row => Db.activeWeight tenant row)
      (db.leases.insert rec.leaseId (.admitted rec gate)) =
      Db.activeWeight tenant (.admitted rec gate) + db.activeCount tenant :=
    sumBy_insert_of_none fresh
  have hnative : sumBy (fun _ row => Db.leaseWeight tenant periodKey row)
      (db.leases.insert rec.leaseId (.admitted rec gate)) =
      Db.leaseWeight tenant periodKey (.admitted rec gate) + db.reservedNative tenant periodKey :=
    sumBy_insert_of_none fresh
  suffices new : Db.activeWeight tenant (.admitted rec gate) + db.activeCount tenant ≤ cap ∧
      db.accrued tenant periodKey + (Db.leaseWeight tenant periodKey (.admitted rec gate) +
        db.reservedNative tenant periodKey) + db.reservedExternal tenant periodKey ≤ ceiling by
    rw [← hactive, ← hnative] at new
    exact ⟨new.1, new.2⟩
  by_cases own : rec.tenant.raw = tenant
  · have hone : Db.activeWeight tenant (.admitted rec gate) ≤ 1 := by
      unfold Db.activeWeight
      split <;> omega
    have hroom := room own
    have hweight : Db.leaseWeight tenant periodKey (.admitted rec gate) ≤ ceiling -
        (db.accrued tenant periodKey + db.reservedNative tenant periodKey +
          db.reservedExternal tenant periodKey) := by
      unfold leaseWeight
      split
      next h =>
        cases gate with
        | none => nomatch h.2.2
        | some g =>
          have hfits := within own g rfl (Option.some.inj h.2.2)
          show g.newReservedVcpuMs ≤ _
          omega
      · exact Nat.zero_le _
    exact ⟨by omega, by omega⟩
  · have hzero : activeWeight tenant (.admitted rec gate) = 0 := if_neg fun h => own h.1
    have hnone : leaseWeight tenant periodKey (.admitted rec gate) = 0 := if_neg fun h => own h.1
    have hcap := h.capped
    exact ⟨by omega, by omega⟩

/-- **Closing a lease moves its reservation to the accrual**, and never more than that. -/
theorem Db.Within.close {period reserved total : Nat} {id : String} {before after : LeaseRow}
    (h : db.Within tenant cap periodKey ceiling) (found : db.leases[id]? = some before)
    (hopen : before.record.state.isActive = true) (hclosed : after.record.state.isActive = false)
    (hperiod : before.accrualPeriodKey = some period)
    (hreserved : before.reservedVcpuMs = some reserved)
    (paid : total ≤ db.accrued before.record.tenant.raw period + reserved) :
    ((db.apply (.lease id (some after))).apply
      (.accrual before.record.tenant.raw period total)).Within tenant cap periodKey ceiling := by
  have hused := h.within
  have hcap := h.capped
  unfold Db.usedIn Db.reservedNative at hused
  unfold Db.activeCount at hcap
  rw [sumBy_of_get found] at hused hcap
  have hoff : ¬ after.record.state.isActive = true := by
    rw [hclosed]
    exact Bool.false_ne_true
  have hlight : Db.activeWeight tenant after = 0 := if_neg fun hactive => hoff hactive.2
  have hfree : Db.leaseWeight tenant periodKey after = 0 := if_neg fun hactive => hoff hactive.2.1
  refine ⟨?_, ?_⟩
  · show sumBy _ (db.leases.insert id after) ≤ cap
    rw [sumBy_insert]
    omega
  · unfold Db.usedIn
    rw [Db.accrued_accrual]
    show (if _ then total else db.accrued tenant periodKey) +
      sumBy (fun _ row => Db.leaseWeight tenant periodKey row) (db.leases.insert id after) +
      db.reservedExternal tenant periodKey ≤ ceiling
    rw [sumBy_insert]
    split
    next heq =>
      obtain ⟨rfl, rfl⟩ := Prod.mk.inj heq
      have hweight : Db.leaseWeight before.record.tenant.raw period before = reserved := by
        unfold Db.leaseWeight
        rw [if_pos ⟨rfl, hopen, hperiod⟩, hreserved]
        rfl
      omega
    · omega

variable {call : PgCall} {held : PgLock → Prop} {ws : List Write}

/-- **Every move of a call that agrees keeps the tenant within cap and ceiling.** -/
theorem PgMove.within (agrees : call.agrees tenant cap periodKey ceiling = true)
    (move : PgMove false call held db ws)
    (imported : db.externalComputePeriods[(tenant, periodKey)]? ≠ none)
    (h : db.Within tenant cap periodKey ceiling) :
    (db.applyAll ws).Within tenant cap periodKey ceiling := by
  cases move with
  | idle => exact h
  | @reserve rec m gate admits _ _ fresh room within =>
    refine h.reserve fresh (fun own => ?_) fun own g hg hperiod => ?_
    · obtain ⟨rfl, -⟩ := PgCall.agrees_admits agrees admits own
      rw [← own]
      exact room
    · obtain ⟨-, hceiling⟩ := PgCall.agrees_admits agrees admits own
      obtain ⟨-, fits, hprojected⟩ := within g hg
      rw [own] at hprojected
      have hused := h.within
      rw [← hceiling g hg hperiod, ← hperiod] at hused ⊢
      exact Db.usedIn_add_le (Nat.le_trans hused fits) fits hprojected
  | rebind _ found => exact h.lighter found ⟨rfl, rfl, rfl, fun hactive => hactive⟩
  | move _ found legal => exact h.lighter found (LeaseRow.moved_lighter _ legal)
  | @close id target nowMs vcpu period reserved row _ _ found legal terminal _ hperiod hreserved =>
    refine h.close found ?_ ?_ hperiod hreserved ?_
    · rw [legal, legalFromFor_active]
    · exact isActive_wire_terminal terminal
    · omega
  | delete => exact h.delete
  | claim => exact ⟨h.capped, h.within⟩
  | @baseline b _ _ fresh fits =>
    have hother : (b.tenantId, b.periodKey) ≠ (tenant, periodKey) := by
      intro heq
      rw [heq] at fresh
      exact imported fresh
    refine ⟨h.capped, ?_⟩
    have haccrued := Db.accrued_accrual (db.apply (.period b.tenantId b.periodKey
      ⟨b.externalVcpuMs, b.evidenceDigest⟩)) b.tenantId tenant b.periodKey periodKey
      (db.accrued b.tenantId b.periodKey + b.externalVcpuMs)
    rw [if_neg hother] at haccrued
    unfold Db.usedIn
    exact Nat.le_trans (Nat.le_of_eq (congrArg (· + _ + _) haccrued)) h.within
  | @reserveExternal r clock reserved reserves _ _ fresh within =>
    subst reserves
    have hused := h.within
    refine h.external ?_
    rw [sumBy_insert_of_none fresh]
    by_cases own : r.tenantId = tenant ∧ r.periodKey = periodKey
    · obtain ⟨rfl, rfl⟩ := own
      have hceiling : r.ceilingVcpuMs = ceiling := by simpa [PgCall.agrees] using agrees
      have hweight : Db.externalWeight r.tenantId r.periodKey ⟨r, .prepared, reserved, none, none⟩ =
          reserved := if_pos ⟨rfl, rfl, rfl⟩
      unfold Db.usedIn Db.reservedExternal at within
      omega
    · have hweight : Db.externalWeight tenant periodKey ⟨r, .prepared, reserved, none, none⟩ = 0 :=
        if_neg fun hopen => own ⟨hopen.1, hopen.2.1⟩
      unfold Db.usedIn Db.reservedExternal at hused
      omega
  | @fence r reserved _ _ fresh =>
    have hused := h.within
    have hweight : Db.externalWeight tenant periodKey ⟨r, .cancelled, reserved, none, none⟩ = 0 :=
      if_neg fun hopen => nomatch hopen.2.2
    refine h.external ?_
    rw [sumBy_insert_of_none fresh]
    unfold Db.usedIn Db.reservedExternal at hused
    omega
  | @turn row target _ _ found prepared =>
    have hused := h.within
    have hweight : Db.externalWeight tenant periodKey { row with state := target } ≤
        Db.externalWeight tenant periodKey row := by
      unfold Db.externalWeight
      split
      next hopen => rw [if_pos ⟨hopen.1, hopen.2.1, by rw [prepared]; rfl⟩]
      · exact Nat.zero_le _
    have hle : sumBy (fun _ row => Db.externalWeight tenant periodKey row)
        (db.externalComputeReservations.insert row.grant.reservationId
          { row with state := target }) ≤
        db.reservedExternal tenant periodKey := sumBy_insert_le found hweight
    refine h.external ?_
    dsimp only
    unfold Db.usedIn at hused
    omega
  | settle settles =>
    subst settles
    nomatch agrees

theorem PgMove.imported (move : PgMove false call held db ws)
    (h : db.externalComputePeriods[(tenant, periodKey)]? ≠ none) :
    (db.applyAll ws).externalComputePeriods[(tenant, periodKey)]? ≠ none := by
  cases move with
  | @baseline b =>
    show (db.externalComputePeriods.insert (b.tenantId, b.periodKey) _)[(tenant, periodKey)]? ≠ none
    rw [get_insert]
    split
    · exact nofun
    · exact h
  | _ => exact h

/-! ## Over whole runs -/

def importWrites (b : ExternalComputeBaseline) : List Write :=
  [.period b.tenantId b.periodKey ⟨b.externalVcpuMs, b.evidenceDigest⟩,
    .accrual b.tenantId b.periodKey (Db.empty.accrued b.tenantId b.periodKey + b.externalVcpuMs)]

variable {b : ExternalComputeBaseline}

theorem initializePeriod_alone (ok : (External.initializePeriod b).alone Db.empty = (.ok (), db)) :
    Db.empty.accrued b.tenantId b.periodKey + b.externalVcpuMs ≤ maxLedgerVcpuMs ∧
      db = Db.empty.applyAll (importWrites b) := by
  have hperiod : Db.empty.externalComputePeriods[(b.tenantId, b.periodKey)]? = none :=
    Std.ExtTreeMap.getElem?_empty
  unfold External.initializePeriod at ok
  split at ok
  next valid =>
    have hbaseline : Sql.ask Db.empty (.baseline b.tenantId b.periodKey) = (none, []) :=
      congrArg (·, []) hperiod
    rw [Pg.alone_start, Pg.inside_first rfl, Pg.inside_first hbaseline] at ok
    rw [Pg.inside_first (show Sql.ask Db.empty (.accrued b.tenantId b.periodKey) =
      (Db.empty.accrued b.tenantId b.periodKey, []) from rfl)] at ok
    by_cases hover : Db.empty.accrued b.tenantId b.periodKey + b.externalVcpuMs > Word.maxI64
    · rw [if_pos hover] at ok
      nomatch ok
    · rw [if_neg hover] at ok
      exact ⟨Nat.le_of_not_lt hover, (congrArg Prod.snd ok).symm⟩
  · nomatch ok

theorem Db.Within.of_import (cap : Nat)
    (fits : Db.empty.accrued b.tenantId b.periodKey + b.externalVcpuMs ≤ maxLedgerVcpuMs)
    (baseline : b.externalVcpuMs ≤ ceiling) : (Db.empty.applyAll (importWrites b)).WellFormed ∧
      (Db.empty.applyAll (importWrites b)).Within b.tenantId cap b.periodKey ceiling ∧
      (Db.empty.applyAll (importWrites b)).externalComputePeriods[(b.tenantId, b.periodKey)]? ≠
        none := by
  have fresh : Db.empty.externalComputePeriods[(b.tenantId, b.periodKey)]? = none :=
    Std.ExtTreeMap.getElem?_empty
  have move : PgMove false (.initializePeriod b) (fun _ => True) Db.empty (importWrites b) :=
    .baseline rfl trivial fresh fits
  have hactive : Db.empty.activeCount b.tenantId = 0 := sumBy_empty
  have hnative : Db.empty.reservedNative b.tenantId b.periodKey = 0 := sumBy_empty
  have hexternal : Db.empty.reservedExternal b.tenantId b.periodKey = 0 := sumBy_empty
  have hzero : Db.empty.accrued b.tenantId b.periodKey = 0 := rfl
  refine ⟨move.wellFormed Db.WellFormed.empty, ⟨?_, ?_⟩, ?_⟩
  · show Db.empty.activeCount b.tenantId ≤ cap
    omega
  · have haccrued := Db.accrued_accrual (Db.empty.apply (.period b.tenantId b.periodKey
      ⟨b.externalVcpuMs, b.evidenceDigest⟩)) b.tenantId b.tenantId b.periodKey b.periodKey
      (Db.empty.accrued b.tenantId b.periodKey + b.externalVcpuMs)
    rw [if_pos rfl] at haccrued
    show Db.accrued _ b.tenantId b.periodKey + Db.empty.reservedNative b.tenantId b.periodKey +
      Db.empty.reservedExternal b.tenantId b.periodKey ≤ ceiling
    refine Nat.le_trans (Nat.le_of_eq (congrArg (· + _ + _) haccrued)) ?_
    omega
  · show (Db.empty.externalComputePeriods.insert (b.tenantId, b.periodKey) _)[(b.tenantId,
      b.periodKey)]? ≠ none
    rw [get_insert_self]
    exact nofun

/-- **The cap and the ceiling are shared**: from tables with the external usage of a period
imported, along every run of calls that agree on the tenant's cap and on its ceiling in that period,
and whose accruals go to the tenant and the period of the lease that was closed, the tenant's open
leases stay within the cap, and what it used and reserved in the period within the ceiling. -/
theorem shared_ceiling [SerdeJson] (b : ExternalComputeBaseline) (cap ceiling : Nat) (start : Db)
    (imports : (External.initializePeriod b).alone Db.empty = (.ok (), start))
    (baseline : b.externalVcpuMs ≤ ceiling) (events : List (TxnEvent PgCall))
    (along : Along PgSystem.step
      (PgSystem.Meets (fun call => call.agrees b.tenantId cap b.periodKey ceiling = true) false)
      (System.initial ⟨start, []⟩) events) :
    let db := (events.foldl PgSystem.step (System.initial ⟨start, []⟩)).shared.db
    db.activeCount b.tenantId ≤ cap ∧
      db.accrued b.tenantId b.periodKey + db.reservedNative b.tenantId b.periodKey +
        db.reservedExternal b.tenantId b.periodKey ≤ ceiling := by
  obtain ⟨fits, rfl⟩ := initializePeriod_alone imports
  obtain ⟨wf, within⟩ := Db.Within.of_import cap fits baseline
  have h := PgSystem.invariant
    (J := fun d => d.db.Within b.tenantId cap b.periodKey ceiling ∧
      d.db.externalComputePeriods[(b.tenantId, b.periodKey)]? ≠ none)
    (fun agrees _ h move => ⟨move.within agrees h.2 h.1, move.imported h.2⟩) wf within along
  exact ⟨h.1.capped, h.1.within⟩

section

attribute [local instance] refuseJson

def northwind : TenantId := ⟨"5f0c2a44-8a51-4a3e-9b0e-2f6d1c7e9a10", by decide, by decide⟩

def northwindLease (leaseId : String) : LeaseRecord :=
    { acmeLease leaseId with tenant := northwind }

def evidence : String := "8d969eef6ecad3c29a3a629280e686cf0c3f5d5a86aff3ca12020c923adc6c92"

def northwindBaseline : ExternalComputeBaseline := ⟨northwind.raw, 202401, 10, evidence⟩

def northwindStart : Db := ((External.initializePeriod northwindBaseline).alone Db.empty).2

def northwindJob : ExternalComputeReservation :=
  ⟨"0b9f5a1e-7c1d-4f57-8f0a-3d2b1c0e9f88", northwind.raw, .devenv, "job:1", 202401, 100, 1,
    20, 2000, evidence⟩

/-- A native lease and an external reservation side by side, statement by statement in turn, then
the lease is closed and one more is asked for. -/
def sharedBudget : List (TxnEvent PgCall) :=
  [.start 1 (.tryAdmitWithCompute (northwindLease "l1") 5 (some ⟨202401, 100, 2, 60⟩)),
    .start 2 (.reserve northwindJob ⟨1000, 202401, 100000⟩)] ++
    (List.replicate 20 [.step 1, .step 2]).flatten ++
    alone 1 (.transition "l1" .held 1010) ++ alone 1 (.transition "l1" .released 1020) ++
    alone 2 (.tryAdmitWithCompute (northwindLease "l2") 5 (some ⟨202401, 100, 2, 40⟩))

theorem shared_ceiling_sharedBudget :
    let db := (sharedBudget.foldl PgSystem.step (System.initial ⟨northwindStart, []⟩)).shared.db
    db.activeCount northwindBaseline.tenantId ≤ 5 ∧
      db.accrued northwindBaseline.tenantId northwindBaseline.periodKey +
        db.reservedNative northwindBaseline.tenantId northwindBaseline.periodKey +
        db.reservedExternal northwindBaseline.tenantId northwindBaseline.periodKey ≤ 100 :=
  shared_ceiling northwindBaseline 5 100 northwindStart (Prod.ext (by decide +kernel) rfl)
    (by decide) sharedBudget (by decide +kernel)

/-- Session 0 is about to release `l1` and has read that it is the first tenant's. Then `l1` is
removed and admitted again for another tenant, and only now session 0 goes on. -/
def foreignRelease : List (TxnEvent PgCall) :=
  alone 1 (.tryAdmitWithCompute (northwindLease "l1") 5 (some ⟨202401, 100, 2, 60⟩)) ++
    [.start 0 (.transition "l1" .released 9000), .step 0] ++
    alone 1 (.removeIfPending "l1") ++
    alone 1 (.tryAdmitWithCompute (acmeLease "l1") 5 (some ⟨202401, 5000, 2, 1000⟩)) ++
    alone 1 (.transition "l1" .held 1010) ++
    List.replicate 10 (.step 0)

/-- The other tenant's usage is accrued to the first, past its ceiling, though every call agreed on
the cap and on the ceiling. -/
theorem foreign_accrual :
    (External.initializePeriod northwindBaseline).alone Db.empty = (.ok (), northwindStart) ∧
      (foreignRelease.all fun
        | .start _ call => call.agrees northwind.raw 5 202401 100
        | _ => true) = true ∧ 100 < (foreignRelease.foldl PgSystem.step
        (System.initial ⟨northwindStart, []⟩)).shared.db.accrued northwind.raw 202401 :=
  ⟨Prod.ext (by decide +kernel) rfl, by decide +kernel, by decide +kernel⟩

end

end CorelinkRunners
