import CorelinkRunners.Kit.Answers
import CorelinkRunners.Pg.Moves

/-!
# Every call is safe

Whatever other sessions do between the statements of a call, its commits are moves. One lemma for
each program, in the order of the programs; what the calls share (the pre-read, the advisory lock,
the row lock with the look at the claims) comes first.
-/

namespace CorelinkRunners

open Kit

variable {strict : Bool} {call : PgCall} {A : Type}

/-- A program of the ledger's statements: its commits are moves of the call, and it answers as
`post` says. -/
abbrev PgRuns (strict : Bool) (cond : Committed → List Write → Sql → Prop) (call : PgCall)
    (post : A → Committed → Prop) (held : PgLock → Prop) (w : Option (List Write)) (p : Pg A)
    (d : Committed) : Prop :=
  Runs pgStore (pgProtocol strict) cond (.moves pgStore (pgProtocol strict) call post) held w p d

abbrev PgSafe (strict : Bool) (call : PgCall) (held : PgLock → Prop) (w : Option (List Write))
    (p : Pg A) (d : Committed) : Prop :=
  PgRuns strict (fun d ws q => PgCond strict d ws q = true) call (fun _ _ => True) held w p d

abbrev noLocks : PgLock → Prop := fun _ => False

namespace PgRuns

variable {cond : Committed → List Write → Sql → Prop} {post : A → Committed → Prop}
  {held : PgLock → Prop} {d : Committed} {q : Sql} {k : q.Ans → Pg A}

theorem read (reads : ∀ db : Db, (q.ask db).2 = []) (next : ∀ d' : Committed, d'.db.WellFormed →
      PgRuns strict cond call post held none (k (q.ask d'.db).1) d') :
    PgRuns strict cond call post held none (Pg.sql q k) d := by
  intro d' _ inv _
  have same : pgStore.publish d' (pgStore.ask q d' []).2 = d' := by
    have none_written : (pgStore.ask q d' []).2 = [] := reads d'.db
    rw [none_written]
    show (⟨d'.db, d'.due ++ []⟩ : Committed) = d'
    rw [List.append_nil]
  exact ⟨same, same.symm ▸ next d' inv⟩

variable {w : Option (List Write)}

theorem start {k : Pg A} (next : PgRuns strict cond call post held (some []) k d) :
    PgRuns strict cond call post held w (Pg.start k) d := next

theorem rollback {a : A} (answered : post a d) :
    PgRuns strict cond call post held w (Pg.rollback (Pg.answer a)) d := answered

variable {ws : List Write}

theorem commit {k : Pg A} (move : ∀ d' : Committed, PgRely held d.db d'.db → d'.db.WellFormed →
      PgMove strict call held d'.db ws)
    (next : ∀ d' : Committed, (pgStore.publish d' ws).db.WellFormed →
      PgRuns strict cond call post noLocks none k (pgStore.publish d' ws)) :
    PgRuns strict cond call post held (some ws) (Pg.commit k) d := by
  intro d' rely inv
  have moved := move d' rely inv
  exact ⟨⟨ws, rfl, moved⟩, next d' (moved.wellFormed inv)⟩

theorem sql (next : ∀ d' : Committed, PgRely held d.db d'.db → d'.db.WellFormed → cond d' ws q →
      PgRuns strict cond call post (Takes (q.lock (d'.db.applyAll ws)) held)
        (some (ws ++ (q.ask (d'.db.applyAll ws)).2)) (k (q.ask (d'.db.applyAll ws)).1) d') :
    PgRuns strict cond call post held (some ws) (Pg.sql q k) d := next

theorem peek (reads : ∀ db : Db, (q.ask db).2 = []) (unlocked : ∀ db : Db, q.lock db = none)
    (next : ∀ d' : Committed, PgRely held d.db d'.db → d'.db.WellFormed →
      PgRuns strict cond call post held (some ws) (k (q.ask (d'.db.applyAll ws)).1) d') :
    PgRuns strict cond call post held (some ws) (Pg.sql q k) d :=
  Runs.peek (fun _ => reads _) (fun _ => unlocked _) next

theorem advisoryLock {tenant : String} {k : Pg A}
    (next : ∀ (held' : PgLock → Prop) (d' : Committed), d'.db.WellFormed →
      (∀ l, held l → held' l) → held' (.advisory tenant) →
      PgRuns strict cond call post held' (some []) k d') :
    PgRuns strict cond call post held (some []) (Pg.sql (.advisoryLock tenant) fun _ => k) d :=
  fun d' _ inv _ => next _ d' inv (fun _ h => .inr h) (.inl rfl)

end PgRuns

namespace PgSafe

variable {held : PgLock → Prop} {d : Committed} {w : Option (List Write)}

theorem map {B : Type} {p : Pg A} (f : A → B) (h : PgSafe strict call held w p d) :
    PgSafe strict call held w (p.map f) d := Runs.map f h

variable {k : Pg A}

theorem rollback_then (next : PgSafe strict call noLocks none k d) :
    PgSafe strict call held w (Pg.rollback k) d := next

theorem rollback {a : A} : PgSafe strict call held w (Pg.rollback (Pg.answer a)) d := trivial

theorem commit_idle
    (next : ∀ d' : Committed, d'.db.WellFormed → PgSafe strict call noLocks none k d') :
    PgSafe strict call held (some []) (Pg.commit k) d :=
  PgRuns.commit (fun _ _ _ => .idle) fun _ => next _

theorem lockAccounted {pre : Attribution} (inv : d.db.WellFormed)
    (next : ∀ (held' : PgLock → Prop) (d' : Committed), d'.db.WellFormed →
      PgSafe strict call held' (some []) k d') :
    PgSafe strict call held (some []) (Pg.lockAccounted pre k) d := by
  unfold Pg.lockAccounted
  split
  · exact .advisoryLock fun held' d' inv' _ _ => next held' d' inv'
  · exact next held d inv

variable {leaseId : String}

theorem lockLease {k : Option LeaseRecord → Pg A}
    (absent : ∀ (held' : PgLock → Prop) (d' : Committed), d'.db.WellFormed →
      PgSafe strict call held' (some []) (k none) d')
    (granted : ∀ (held' : PgLock → Prop) (d' : Committed) (row : LeaseRow), d'.db.WellFormed →
      (∀ l, held l → held' l) → held' (.lease leaseId) → d'.db.leases[leaseId]? = some row →
      PgSafe strict call held' (some []) (k (some row.record)) d') :
    PgSafe strict call held (some []) (Pg.sql (.lockLease leaseId) k) d := by
  refine .sql fun d' _ inv _ => ?_
  have hview : d'.db.applyAll [] = d'.db := rfl
  simp only [hview, Sql.ask, List.append_nil]
  cases found : d'.db.leases[leaseId]? with
  | none => exact absent _ d' inv
  | some row =>
    refine granted _ d' row inv (fun _ h => .inr h) (.inl ?_) found
    have hcontains : d'.db.leases.contains leaseId = true :=
      (OrdMap.contains_iff_get _ _).mpr ⟨row, found⟩
    simp only [Sql.lock, hcontains, ↓reduceIte]

theorem lockUnclaimedLease {k : Bool → Pg A} (refused : ∀ (held' : PgLock → Prop) (d' : Committed),
      PgSafe strict call held' (some []) (k false) d')
    (granted : ∀ (held' : PgLock → Prop) (d' : Committed), d'.db.WellFormed →
      (∀ l, held l → held' l) → held' (.lease leaseId) →
      PgSafe strict call held' (some []) (k true) d') :
    PgSafe strict call held (some []) (Pg.lockUnclaimedLease leaseId k) d := by
  refine lockLease (fun held' d' _ => refused held' d') fun held1 d1 row _ sub1 owned _ => ?_
  refine .peek (fun _ => rfl) (fun _ => rfl) fun d2 _ inv2 => ?_
  cases (Sql.ask (d2.db.applyAll []) (.claimed leaseId)).1 with
  | true => exact refused held1 d2
  | false => exact granted held1 d2 inv2 sub1 owned

end PgSafe

theorem Sql.inState_eq_some {db : Db} {leaseId : String} {source : LeaseState} {row : LeaseRow} :
    Sql.inState db leaseId source = some row ↔
      db.leases[leaseId]? = some row ∧ row.record.state = source := by
  simp only [Sql.inState, Option.filter_eq_some_iff, decide_eq_true_eq]

/-! ## Transitions -/

section Transition

variable {held : PgLock → Prop} {d : Committed} {leaseId : String} {target : RunnerState}
  {nowMs : Nat}

theorem transitionOff_safe :
    PgSafe strict call held none (Pg.transitionOff leaseId target nowMs) d := by
  unfold Pg.transitionOff
  refine PgRuns.start (PgSafe.lockUnclaimedLease (fun _ _ => PgSafe.rollback) ?_)
  intro held1 d1 _ _ owned
  refine .sql fun d2 _ _ cond2 => ?_
  have hview : d2.db.applyAll [] = d2.db := rfl
  simp only [hview, Sql.ask]
  cases hrow : Sql.inState d2.db leaseId (legalFromFor target) with
  | none => trivial
  | some row =>
    obtain ⟨found, legal⟩ := Sql.inState_eq_some.mp hrow
    refine .commit (fun d3 rely3 _ => ?_) fun _ _ => trivial
    have found3 : d3.db.leases[leaseId]? = some row := by
      rw [rely3.lease leaseId (.inr owned), found]
    refine .move (.inr owned) found3 legal fun hstrict terminal => ?_
    simpa [PgCond, hstrict, terminal, hview, hrow] using cond2

variable {row : LeaseRow}

theorem LeaseRow.movedStamped_of_not_terminal (h : target.isTerminal = false) :
    row.movedStamped target nowMs = row.moved target nowMs := by
  simp [LeaseRow.movedStamped, h, LeaseRow.moved]

theorem terminalAccrual_eq (vcpu createdAtMs nowMs : Nat) {reserved : Nat}
    (h : reserved ≤ maxLedgerVcpuMs) : terminalAccrual vcpu reserved createdAtMs nowMs =
      min (vcpu * (nowMs - createdAtMs)) reserved := by
  have hbound : maxLedgerVcpuMs < Word.maxU64 := by decide
  unfold terminalAccrual vcpuMs Word.satMul fitsLedger
  rw [if_neg]
  · split <;> omega
  · simp only [Bool.not_eq_true', decide_eq_false_iff_not, not_not]
    split <;> omega

theorem accrue_total (db : Db) (tenant : String) (periodKey : Nat) {amount : Nat}
    (hamount : amount ≤ maxLedgerVcpuMs)
    (haccrued : db.accrued tenant periodKey ≤ maxLedgerVcpuMs) :
    (Sql.ask db (.accrue tenant periodKey amount)).2 =
      [.accrual tenant periodKey (min (db.accrued tenant periodKey + amount) maxLedgerVcpuMs)] := by
  unfold Db.accrued at haccrued ⊢
  simp only [Sql.ask]
  cases h : db.computeAccrual[(tenant, periodKey)]? with
  | none => simp [hamount]
  | some total =>
    rw [h] at haccrued
    simp only [Option.getD_some] at haccrued ⊢
    congr 2
    omega

variable {tenant : String} {periodKey : Option Nat}

theorem accrueTerminal_safe (locked : held (.advisory tenant)) (owned : held (.lease leaseId))
    (found : d.db.leases[leaseId]? = some row) (legal : row.record.state = legalFromFor target)
    (terminal : target.isTerminal = true) (hcall : call = .transition leaseId target nowMs) :
    PgSafe strict call held (some [.lease leaseId (some (row.movedStamped target nowMs))])
      (Pg.accrueTerminal leaseId tenant periodKey (row.movedStamped target nowMs) nowMs) d := by
  unfold Pg.accrueTerminal
  split
  next vcpu reserved hvcpu hreserved =>
    cases periodKey with
    | none => exact .rollback
    | some periodKey =>
      refine .sql fun d2 rely2 inv2 cond2 => ?_
      -- the promise of the run: the upsert names the tenant and the period of the row
      obtain ⟨htenant, hperiod⟩ : row.record.tenant.raw = tenant ∧
          row.accrualPeriodKey = some periodKey := by
        simpa [PgCond, LeaseRow.movedStamped, LeaseRow.moved] using cond2
      subst htenant
      have found2 : d2.db.leases[leaseId]? = some row := by rw [rely2.lease leaseId owned, found]
      have hbound : reserved ≤ maxLedgerVcpuMs := by
        rcases inv2.columns leaseId row found2 with ⟨hnone, -, -⟩ | ⟨_, _, r, -, -, hr, hle⟩
        · nomatch hnone.symm.trans hvcpu
        · cases hr.symm.trans hreserved
          exact hle
      have hamount := terminalAccrual_eq vcpu row.record.createdAtMs nowMs hbound
      have hfits : terminalAccrual vcpu reserved row.record.createdAtMs nowMs ≤
          maxLedgerVcpuMs := by
        rw [hamount]
        exact Nat.le_trans (Nat.min_le_right _ _) hbound
      have htotal := accrue_total
        (d2.db.applyAll [.lease leaseId (some (row.movedStamped target nowMs))])
        row.record.tenant.raw periodKey hfits (inv2.bounded _ _)
      refine .commit (fun d3 rely3 _ => ?_) fun _ _ => trivial
      have found3 : d3.db.leases[leaseId]? = some row := by
        rw [rely3.lease leaseId (.inr owned), found2]
      have hsame := rely3.accrued_eq (.inr locked) periodKey
      have hcreated : (row.movedStamped target nowMs).record.createdAtMs = row.record.createdAtMs :=
        rfl
      rw [hcreated, htotal, hamount]
      show PgMove strict call _ d3.db
        [_, .accrual _ _ (min (d2.db.accrued row.record.tenant.raw periodKey + _) _)]
      rw [← hsame]
      exact .close (.inr locked) (.inr owned) found3 legal terminal hvcpu hperiod hreserved hcall
  · exact .rollback

theorem transitionOn_safe (hcall : call = .transition leaseId target nowMs) :
    PgSafe strict call held none (Pg.transitionOn leaseId tenant periodKey target nowMs) d := by
  unfold Pg.transitionOn
  refine .start (.advisoryLock fun held0 d0 _ _ locked => ?_)
  refine PgSafe.lockUnclaimedLease (fun _ _ => PgSafe.rollback) fun held1 d1 _ sub1 owned => ?_
  refine PgRuns.sql fun d2 _ inv2 _ => ?_
  have hview : d2.db.applyAll [] = d2.db := rfl
  simp only [hview, Sql.ask]
  cases hrow : Sql.inState d2.db leaseId (legalFromFor target) with
  | none => exact PgSafe.rollback
  | some row =>
    obtain ⟨found, legal⟩ := Sql.inState_eq_some.mp hrow
    -- a lease that can still move has not been accrued
    have unlatched := inv2.unlatched leaseId row found (by rw [legal, legalFromFor_active])
    cases terminal : target.isTerminal with
    | true =>
      simp only [unlatched, Option.isNone_none, Bool.and_self, ↓reduceIte, List.nil_append]
      exact accrueTerminal_safe (.inr (sub1 _ locked)) (.inr owned) found legal terminal hcall
    | false =>
      simp only [Bool.false_and, Bool.false_eq_true, ↓reduceIte, List.nil_append,
        LeaseRow.movedStamped_of_not_terminal terminal]
      refine .commit (fun d3 rely3 _ => ?_) fun _ _ => trivial
      have found3 : d3.db.leases[leaseId]? = some row := by
        rw [rely3.lease leaseId (.inr owned), found]
      exact .move (.inr owned) found3 legal fun _ h => nomatch terminal.symm.trans h

theorem transition_safe (hcall : call = .transition leaseId target nowMs) :
    PgSafe strict call held none (Pg.transition leaseId target nowMs) d := by
  unfold Pg.transition
  refine .read (fun _ => rfl) fun d' _ => ?_
  split
  · exact transitionOn_safe hcall
  · exact transitionOff_safe

end Transition

/-! ## Admission -/

section Admission

variable {held : PgLock → Prop} {d : Committed} {rec : LeaseRecord} {cap : Nat}

theorem not_contains_of_get {K V : Type} [Ord K] [Std.TransOrd K] {m : OrdMap K V} {k : K}
    (h : ¬ m.contains k = true) : m[k]? = none :=
  (OrdMap.contains_eq_false_iff_get m k).mp (Bool.not_eq_true _ ▸ h)

theorem tryAdmit_safe (admits : call.admits = some (rec, cap, none)) :
    PgSafe strict call held none (Pg.tryAdmit rec cap) d := by
  unfold Pg.tryAdmit
  refine .start (.advisoryLock fun held1 d1 _ _ locked => ?_)
  refine .sql fun d2 _ _ _ => ?_
  have hview : d2.db.applyAll [] = d2.db := rfl
  simp only [hview, Sql.ask, Sql.lock]
  by_cases room : d2.db.activeCount rec.tenant.raw < cap
  · have room' : d2.db.activeCount (LeaseRow.admitted rec none).record.tenant.raw < cap := room
    simp only [if_pos room']
    split
    · exact PgSafe.rollback
    next hfresh =>
      refine .commit (fun d3 rely3 _ => ?_) fun _ _ => trivial
      have fresh : d2.db.leases[rec.leaseId]? = none := not_contains_of_get hfresh
      have owned : Takes (some (.lease rec.leaseId)) held1 (.lease rec.leaseId) := .inl rfl
      have fresh3 : d3.db.leases[rec.leaseId]? = none := by rw [rely3.lease _ owned, fresh]
      have room3 := Nat.lt_of_le_of_lt (rely3.active _ (.inr locked)) room
      show PgMove strict call _ d3.db [.lease rec.leaseId (some (.admitted rec none))]
      exact .reserve admits (.inr locked) owned fresh3 room3 fun g hg => nomatch hg
  · have room' : ¬ d2.db.activeCount (LeaseRow.admitted rec none).record.tenant.raw < cap := room
    simp only [if_neg room']
    exact PgSafe.commit_idle fun _ _ => trivial

theorem admitGated_safe {gate : ComputeGate} (admits : call.admits = some (rec, cap, some gate))
    (hnew : gate.newReservedVcpuMs ≤ maxLedgerVcpuMs)
    (hceiling : gate.ceilingVcpuMs ≤ maxLedgerVcpuMs) :
    PgSafe strict call held none (Pg.admitGated rec cap gate) d := by
  unfold Pg.admitGated
  refine .start (.advisoryLock fun held1 d1 _ _ locked => ?_)
  refine .peek (fun _ => rfl) (fun _ => rfl) fun d2 _ _ => ?_
  show PgSafe strict call held1 (some [])
    (if d2.db.projected rec.tenant.raw gate > gate.ceilingVcpuMs then _
      else if d2.db.activeCount rec.tenant.raw ≥ cap then _ else _) d2
  split
  · exact .rollback
  next hwithin =>
    split
    · exact .rollback
    next hroom =>
      refine .sql fun d3 rely3 _ _ => ?_
      have hview : d3.db.applyAll [] = d3.db := rfl
      simp only [hview, Sql.ask, Sql.lock]
      split
      · exact PgSafe.rollback
      next hfresh =>
        refine .commit (fun d4 rely4 _ => ?_) fun _ _ => trivial
        have owned : Takes (some (.lease rec.leaseId)) held1 (.lease rec.leaseId) := .inl rfl
        have fresh : d3.db.leases[rec.leaseId]? = none := not_contains_of_get hfresh
        have fresh4 : d4.db.leases[rec.leaseId]? = none := by rw [rely4.lease _ owned, fresh]
        have room4 : d4.db.activeCount rec.tenant.raw < cap := by
          have h3 := rely3.active _ locked
          have h4 := rely4.active _ (.inr locked)
          omega
        have within4 : d4.db.projected rec.tenant.raw gate ≤ gate.ceilingVcpuMs := by
          have h3 := rely3.projected_le locked gate
          have h4 := rely4.projected_le (.inr locked) gate
          omega
        show PgMove strict call _ d4.db [.lease rec.leaseId (some (.admitted rec (some gate)))]
        refine .reserve admits (.inr locked) owned fresh4 room4 ?_
        rintro g ⟨⟩
        exact ⟨hnew, hceiling, within4⟩

theorem tryAdmitWithCompute_safe {gate : Option ComputeGate}
    (admits : call.admits = some (rec, cap, gate.filter fun g => g.ceilingVcpuMs > 0)) :
    PgSafe strict call held none (Pg.tryAdmitWithCompute rec cap gate) d := by
  unfold Pg.tryAdmitWithCompute
  split
  next hgate =>
    rw [hgate] at admits
    exact (tryAdmit_safe admits).map _
  next g hgate =>
    rw [hgate] at admits
    split
    · trivial
    next hnew =>
      split
      · trivial
      next hceiling =>
        simp only [fitsLedger, Bool.not_eq_true', decide_eq_false_iff_not, not_not] at hnew hceiling
        exact admitGated_safe admits hnew hceiling

end Admission

/-! ## Binding, removal and claims -/

section Pending

variable {held : PgLock → Prop} {d : Committed} {leaseId : String} {providerRef : String}

theorem bindLocked_safe (owned : held (.lease leaseId)) :
    PgSafe strict call held (some []) (Pg.bindLocked leaseId providerRef) d := by
  unfold Pg.bindLocked
  refine .peek (fun _ => rfl) (fun _ => rfl) fun d1 _ _ => ?_
  split
  · exact PgSafe.rollback
  next current _ =>
    split
    · exact PgSafe.rollback
    split
    · exact PgSafe.commit_idle fun _ _ => trivial
    split
    · exact PgSafe.rollback
    refine .sql fun d2 _ _ _ => ?_
    have hview : d2.db.applyAll [] = d2.db := rfl
    simp only [hview, Sql.ask]
    cases hrow : (Sql.inState d2.db leaseId .pending).filter
        (fun row => row.record.boxRef = "box:" ++ leaseId) with
    | none => exact PgSafe.rollback
    | some row =>
      obtain ⟨hstate, -⟩ := Option.filter_eq_some_iff.mp hrow
      obtain ⟨found, -⟩ := Sql.inState_eq_some.mp hstate
      refine .commit (fun d3 rely3 _ => ?_) fun _ _ => trivial
      have found3 : d3.db.leases[leaseId]? = some row := by
        rw [rely3.lease leaseId (.inr owned), found]
      exact .rebind (.inr owned) found3

theorem bindProviderRef_safe [SerdeJson] :
    PgSafe strict call held none (Pg.bindProviderRef leaseId providerRef) d := by
  unfold Pg.bindProviderRef
  split
  · trivial
  refine .read (fun _ => rfl) fun d1 inv1 => ?_
  split
  · trivial
  next pre _ =>
    refine PgRuns.start (PgSafe.lockAccounted inv1 fun held2 d2 _ => ?_)
    refine PgSafe.lockUnclaimedLease (fun _ _ => PgSafe.rollback) fun held3 d3 _ _ owned => ?_
    exact bindLocked_safe owned

variable {pendingOnly : Bool}

theorem deleteLease_safe {k : Bool → Pg A} (owned : held (.lease leaseId))
    (kept : ∀ (held' : PgLock → Prop) (d' : Committed),
      PgSafe strict call held' (some []) (k false) d') {a : A}
    (deleted : k true = Pg.commit (Pg.answer a)) :
    PgSafe strict call held (some []) (Pg.sql (.deleteLease leaseId pendingOnly) k) d := by
  refine .sql fun d2 _ _ _ => ?_
  have hview : d2.db.applyAll [] = d2.db := rfl
  simp only [hview, Sql.ask]
  cases hrow : Sql.removable d2.db leaseId pendingOnly with
  | none => exact kept _ d2
  | some row =>
    obtain ⟨found, -⟩ := Option.filter_eq_some_iff.mp hrow
    simp only [deleted]
    refine .commit (fun d3 rely3 _ => ?_) fun _ _ => trivial
    have found3 : d3.db.leases[leaseId]? = some row := by
      rw [rely3.lease leaseId (.inr owned), found]
    exact .delete (.inr owned) found3

theorem removeLocked_safe (owned : held (.lease leaseId)) :
    PgSafe strict call held (some []) (Pg.removeLocked leaseId pendingOnly) d := by
  unfold Pg.removeLocked
  refine deleteLease_safe owned (fun held' d' => ?_) rfl
  cases pendingOnly with
  | true => exact .commit_idle fun _ _ => trivial
  | false =>
    refine .peek (fun _ => rfl) (fun _ => rfl) fun d3 _ _ => ?_
    split
    · exact PgSafe.rollback
    · exact PgSafe.commit_idle fun _ _ => trivial

theorem removeWith_safe : PgSafe strict call held none (Pg.removeWith leaseId pendingOnly) d := by
  unfold Pg.removeWith
  refine .read (fun _ => rfl) fun d1 inv1 => ?_
  split
  · trivial
  next pre _ =>
    refine PgRuns.start (PgSafe.lockAccounted inv1 fun held2 d2 _ => ?_)
    refine PgSafe.lockUnclaimedLease (fun _ _ => PgSafe.rollback) fun held3 d3 _ _ owned => ?_
    exact removeLocked_safe owned

theorem finishPendingCleanup_safe :
    PgSafe strict call held none (Pg.finishPendingCleanup leaseId) d := by
  unfold Pg.finishPendingCleanup
  refine .read (fun _ => rfl) fun d1 inv1 => ?_
  split
  · trivial
  next pre _ =>
    refine PgRuns.start (PgSafe.lockAccounted inv1 fun held2 d2 _ => ?_)
    refine PgSafe.lockLease (fun _ _ _ => PgSafe.rollback) fun held3 d3 row _ _ owned _ => ?_
    dsimp only
    split
    · exact .rollback
    refine .peek (fun _ => rfl) (fun _ => rfl) fun d4 _ _ => ?_
    split
    · exact deleteLease_safe owned (fun _ _ => PgSafe.commit_idle fun _ _ => trivial) rfl
    · exact PgSafe.rollback

variable {predicate : Pg.ClaimPredicate} {claimedAtMs : Nat}

theorem claimOne_safe {k : Result (Option LeaseRecord) → Pg A}
    (next : ∀ (res : Result (Option LeaseRecord)) (d' : Committed), d'.db.WellFormed →
      PgSafe strict call noLocks none (k res) d') :
    PgSafe strict call noLocks none (Pg.claimOne leaseId predicate claimedAtMs k) d := by
  unfold Pg.claimOne
  refine .read (fun _ => rfl) fun d1 inv1 => ?_
  split
  · exact next _ d1 inv1
  next pre _ =>
    refine PgRuns.start (PgSafe.lockAccounted inv1 fun held2 d2 inv2 => ?_)
    refine PgSafe.lockLease (fun _ d' inv' => PgSafe.rollback_then (next _ d' inv')) ?_
    intro held3 d3 row inv3 _ owned _
    dsimp only
    split
    · exact .rollback_then (next _ d3 inv3)
    refine .peek (fun _ => rfl) (fun _ => rfl) fun d4 _ inv4 => ?_
    split
    · exact PgSafe.commit_idle (next _)
    split
    · exact PgSafe.rollback_then (next _ d4 inv4)
    split
    · exact PgSafe.rollback_then (next _ d4 inv4)
    refine .sql fun d5 _ inv5 _ => ?_
    have hview : d5.db.applyAll [] = d5.db := rfl
    simp only [hview, Sql.ask]
    split
    · exact PgSafe.rollback_then (next _ d5 inv5)
    · exact .commit (fun _ _ _ => .claim (.inr owned)) fun _ => next _ _

variable {nowMs : Nat}

theorem claimPendingCleanup_safe :
    PgSafe strict call noLocks none (Pg.claimPendingCleanup leaseId nowMs) d := by
  unfold Pg.claimPendingCleanup
  split
  · trivial
  · exact claimOne_safe fun _ _ _ => trivial

theorem claimEach_safe (ids : List String) (claimed : List LeaseRecord) :
    PgSafe strict call noLocks none (Pg.claimEach predicate claimedAtMs ids claimed) d := by
  induction ids generalizing claimed d with
  | nil => trivial
  | cons leaseId ids ih =>
    refine claimOne_safe fun res d' _ => ?_
    rcases res with e | (_ | record)
    · trivial
    · exact ih claimed
    · exact ih (claimed ++ [record])

theorem claimStalePendingCleanup_safe {maxAgeMs : Nat} :
    PgSafe strict call noLocks none (Pg.claimStalePendingCleanup nowMs maxAgeMs) d := by
  unfold Pg.claimStalePendingCleanup
  split
  · trivial
  · exact .read (fun _ => rfl) fun d1 _ => claimEach_safe _ []

end Pending

/-! ## External reservations -/

section External

open External

variable {held : PgLock → Prop} {d : Committed} {cond : Committed → List Write → Sql → Prop}

/-- The reservation is stored, as this tuple, and `p` holds of its row. -/
def Db.Stores (db : Db) (r : ExternalComputeReservation) (p : ExternalRow → Prop) : Prop :=
  ∃ row, db.externalComputeReservations[r.reservationId]? = some row ∧ row.grant = r ∧ p row

variable {db : Db} {row : ExternalRow}

theorem Db.Stores.of_written {p : ExternalRow → Prop} (now : p row) :
    (db.apply (.external row)).Stores row.grant p :=
  ⟨row, OrdMap.get_insert_self _ _ _, rfl, now⟩

theorem initializePeriod_safe {b : ExternalComputeBaseline} (hcall : call = .initializePeriod b) :
    PgSafe strict call held none (initializePeriod b) d := by
  unfold initializePeriod
  split
  · refine .start (.advisoryLock fun held1 d1 _ _ locked => ?_)
    refine .peek (fun _ => rfl) (fun _ => rfl) fun d2 _ _ => ?_
    split
    · split
      · exact PgSafe.commit_idle fun _ _ => trivial
      · exact PgSafe.rollback
    next fresh =>
      refine .peek (fun _ => rfl) (fun _ => rfl) fun d3 rely3 _ => ?_
      split
      · exact PgSafe.rollback
      next hfits =>
        refine .sql fun d4 rely4 _ _ => PgRuns.sql fun d5 rely5 _ _ => ?_
        refine .commit (fun d6 rely6 _ => ?_) fun _ _ => trivial
        have rely : PgRely held1 d3.db d6.db :=
          (rely4.trans (rely5.mono fun _ h => .inr h)).trans (rely6.mono fun _ h => .inr (.inr h))
        have haccrued := rely.accrued_eq locked b.periodKey
        have fresh6 : d6.db.externalComputePeriods[(b.tenantId, b.periodKey)]? = none := by
          rw [rely.period _ _ locked, rely3.period _ _ locked]
          exact fresh
        show PgMove strict call _ d6.db
          [_, .accrual b.tenantId b.periodKey (d3.db.accrued b.tenantId b.periodKey + _)]
        rw [← haccrued]
        refine .baseline hcall (.inr (.inr locked)) fresh6 ?_
        rw [haccrued]
        exact Nat.le_of_not_lt hfits
  · trivial

theorem PgRely.unreserved {db db' : Db} {id : String} (h : PgRely held db db')
    (owned : held (.reservation id))
    (missing : ¬db.externalComputeReservations.contains id = true) :
    db'.externalComputeReservations[id]? = none := by
  rw [h.reservation _ owned, not_contains_of_get missing]

variable {r : ExternalComputeReservation} {clock : PgClock}

theorem reserveFresh_runs {reserved : Nat} (hcall : call = .reserve r clock)
    (locked : held (.advisory r.tenantId)) :
    PgRuns strict cond call (fun res d => ∀ receipt, res = .ok (.admitted receipt) →
      d.db.Stores r fun _ => True) held (some []) (reserveFresh r reserved) d := by
  unfold reserveFresh
  refine .peek (fun _ => rfl) (fun _ => rfl) fun d1 _ _ => ?_
  split
  · exact .rollback nofun
  refine .peek (fun _ => rfl) (fun _ => rfl) fun d2 _ _ => ?_
  split
  · exact .rollback nofun
  split
  · exact .rollback nofun
  next hwithin =>
    refine .sql fun d3 rely3 _ _ => ?_
    have hview : d3.db.applyAll [] = d3.db := rfl
    simp only [hview, Sql.ask]
    split
    · exact .rollback nofun
    next hfresh =>
      refine .commit (fun d4 rely4 _ => ?_) fun _ _ _ _ => Db.Stores.of_written trivial
      have fresh4 := rely4.unreserved (.inl rfl) hfresh
      have within4 : d4.db.usedIn r.tenantId r.periodKey + reserved ≤ r.ceilingVcpuMs := by
        have h2 : d2.db.usedIn r.tenantId r.periodKey + reserved ≤ r.ceilingVcpuMs :=
          Nat.le_of_not_lt hwithin
        have h3 := rely3.usedIn_le locked r.periodKey
        have h4 := rely4.usedIn_le (.inr locked) r.periodKey
        omega
      exact .reserveExternal hcall (.inr locked) (.inl rfl) fresh4 within4

theorem reserve_runs (hcall : call = .reserve r clock) :
    PgRuns strict cond call (fun res d => ∀ receipt, res = .ok (.admitted receipt) →
      (∃ reserved, validate r = .ok reserved) ∧ r.grantExpiresAtMs + r.maximumWallMs ≤ Word.maxI64 ∧
        d.db.Stores r fun _ => True) held none (reserve r clock) d := by
  unfold reserve
  split
  · exact nofun
  next reserved valid =>
    refine .start (.advisoryLock fun held1 d1 _ _ locked => ?_)
    dsimp only
    split
    · exact .rollback nofun
    next inTime =>
      have bound : r.grantExpiresAtMs + r.maximumWallMs ≤ Word.maxI64 := by
        rw [not_or, not_or] at inTime
        exact Nat.le_of_not_lt inTime.2.1
      split
      · exact .rollback nofun
      refine .peek (fun _ => rfl) (fun _ => rfl) fun d2 _ _ => ?_
      split
      next row found =>
        split
        next same =>
          refine .rollback fun receipt _ => ⟨⟨reserved, valid⟩, bound, ?_⟩
          exact ⟨row, found, same.1, trivial⟩
        · exact .rollback nofun
      · refine .weaken (fun res d stores receipt admitted => ?_) (reserveFresh_runs hcall locked)
        exact ⟨⟨reserved, valid⟩, bound, stores receipt admitted⟩

theorem reservation_contains {id : String}
    (found : db.externalComputeReservations[id]? = some row) :
    db.externalComputeReservations.contains id = true :=
  (OrdMap.contains_iff_get _ _).mpr ⟨row, found⟩

theorem externalTransition_runs {target : ExternalComputeState}
    (aim : target = .active ∨ target = .cancelled) :
    PgRuns strict cond call (fun res d => ∀ receipt, res = .ok receipt →
      (∃ reserved, validate r = .ok reserved) ∧ receipt = ⟨r.reservationId, target⟩ ∧
        d.db.Stores r fun row => row.state = target)
      held none (External.transition r target clock) d := by
  unfold External.transition
  split
  · exact nofun
  next reserved valid =>
    refine .start (.advisoryLock fun held1 d1 _ _ locked => ?_)
    refine .peek (fun _ => rfl) (fun _ => rfl) fun d2 _ _ => ?_
    split
    · split
      next htarget =>
        subst htarget
        refine .sql fun d3 rely3 _ _ => ?_
        have hview : d3.db.applyAll [] = d3.db := rfl
        simp only [hview, Sql.ask]
        split
        · exact .rollback nofun
        next hfresh =>
          refine .commit (fun d4 rely4 _ => ?_) fun d4 _ receipt answered => ?_
          · exact .fence (.inr locked) (.inl rfl) (rely4.unreserved (.inl rfl) hfresh)
          · cases answered
            exact ⟨⟨reserved, valid⟩, rfl, Db.Stores.of_written rfl⟩
      · exact .rollback nofun
    next row found =>
      split
      · exact .rollback nofun
      next hgrant =>
        rw [ne_eq, not_not] at hgrant
        subst hgrant
        split
        next there =>
          refine .rollback fun receipt answered => ?_
          cases answered
          exact ⟨⟨reserved, valid⟩, rfl, row, found, rfl, there⟩
        · split
          · exact .rollback nofun
          next hprepared =>
            split
            · exact .rollback nofun
            rw [ne_eq, not_not] at hprepared
            refine .sql fun d3 rely3 _ _ => ?_
            have found3 : d3.db.externalComputeReservations[row.grant.reservationId]? = some row :=
              rely3.grant _ _ row locked rfl found
            have hview : d3.db.applyAll [] = d3.db := rfl
            simp only [hview, Sql.ask, Sql.lock, reservation_contains found3, ↓reduceIte, found3,
              Option.filter_some, hprepared, decide_true]
            refine .commit (fun d4 rely4 _ => ?_) fun d4 _ receipt answered => ?_
            · have owned : Takes (some (.reservation row.grant.reservationId)) held1
                  (.reservation row.grant.reservationId) := .inl rfl
              have found4 : d4.db.externalComputeReservations[row.grant.reservationId]? =
                  some row := by
                rw [rely4.reservation _ owned, found3]
              exact .turn (.inr locked) owned found4 hprepared aim
            · cases answered
              exact ⟨⟨reserved, valid⟩, rfl, Db.Stores.of_written rfl⟩

theorem settle_runs {s : ExternalComputeSettlement} (hcall : call = .settle r s) :
    PgRuns strict cond call (fun res d => ∀ receipt, res = .ok receipt →
      (∃ reserved, validate r = .ok reserved) ∧
        (digest s.terminalEvidenceDigest && s.actualVcpuMs ≤ Word.maxI64) = true ∧
        receipt = ⟨r.reservationId, .settled⟩ ∧
        d.db.Stores r fun row => row.state = .settled ∧ row.actualVcpuMs = some s.actualVcpuMs ∧
          row.terminalEvidenceDigest = some s.terminalEvidenceDigest) held none (settle r s) d := by
  unfold settle
  split
  · exact nofun
  next reserved valid =>
    split
    next fits =>
      refine .start (.advisoryLock fun held1 d1 _ _ locked => ?_)
      refine .peek (fun _ => rfl) (fun _ => rfl) fun d2 _ _ => ?_
      split
      · exact .rollback nofun
      next row found =>
        split
        · exact .rollback nofun
        next hgrant =>
          rw [ne_eq, not_not] at hgrant
          subst hgrant
          split
          next settled =>
            split
            next same =>
              refine .rollback fun receipt answered => ?_
              cases answered
              exact ⟨⟨reserved, valid⟩, fits, rfl, row, found, rfl, settled, same⟩
            · exact .rollback nofun
          · split
            · exact .rollback nofun
            next hactive =>
              rw [ne_eq, not_not] at hactive
              refine .peek (fun _ => rfl) (fun _ => rfl) fun d3 rely3 _ => ?_
              split
              · exact .rollback nofun
              next hfits =>
                refine .sql fun d4 rely4 _ _ => ?_
                have found3 := rely3.grant _ _ row locked rfl found
                have found4 :
                    d4.db.externalComputeReservations[row.grant.reservationId]? = some row :=
                  rely4.grant _ _ row locked rfl found3
                have hview : d4.db.applyAll [] = d4.db := rfl
                simp only [hview, Sql.ask, Sql.lock, reservation_contains found4, ↓reduceIte,
                  found4, List.nil_append]
                refine .sql fun d5 rely5 _ _ => ?_
                refine .commit (fun d6 rely6 _ => ?_) fun d6 _ receipt answered => ?_
                · have rely : PgRely held1 d3.db d6.db :=
                    (rely4.trans (rely5.mono fun _ h => .inr h)).trans
                      (rely6.mono fun _ h => .inr (.inr h))
                  have haccrued := rely.accrued_eq locked row.grant.periodKey
                  have found6 :
                      d6.db.externalComputeReservations[row.grant.reservationId]? = some row :=
                    rely.grant _ _ row locked rfl found3
                  show PgMove strict call _ d6.db
                    [_, .accrual _ _ (d3.db.accrued row.grant.tenantId row.grant.periodKey + _)]
                  rw [← haccrued]
                  refine .settle hcall (.inr (.inr locked)) (.inr (.inl rfl)) found6 ?_ hactive
                  rw [haccrued]
                  exact Nat.le_of_not_lt hfits
                · cases answered
                  exact ⟨⟨reserved, valid⟩, fits, rfl, Db.Stores.of_written ⟨rfl, rfl, rfl⟩⟩
    · exact nofun

end External

/-- **Every call is safe**, from every well-formed state. -/
theorem PgCall.exec_safe [SerdeJson] (call : PgCall) (d : Committed) :
    PgSafe strict call noLocks none call.exec d := by
  cases call with
  | tryAdmit rec cap => exact (tryAdmit_safe rfl).map _
  | tryAdmitWithCompute rec cap gate => exact (tryAdmitWithCompute_safe rfl).map _
  | transition leaseId target nowMs => exact (transition_safe rfl).map _
  | bindProviderRef leaseId providerRef => exact bindProviderRef_safe.map _
  | remove leaseId => exact removeWith_safe.map _
  | removeIfPending leaseId => exact removeWith_safe.map _
  | claimPendingCleanup leaseId nowMs => exact claimPendingCleanup_safe.map _
  | claimStalePendingCleanup nowMs maxAgeMs => exact claimStalePendingCleanup_safe.map _
  | finishPendingCleanup leaseId => exact finishPendingCleanup_safe.map _
  | initializePeriod baseline => exact (initializePeriod_safe rfl).map _
  | reserve r clock => exact .map _ (.weaken (fun _ _ _ => trivial) (reserve_runs rfl))
  | activate r clock =>
    exact .map _ (.weaken (fun _ _ _ => trivial) (externalTransition_runs (.inl rfl)))
  | cancel r clock =>
    exact .map _ (.weaken (fun _ _ _ => trivial) (externalTransition_runs (.inr rfl)))
  | settle r settlement => exact .map _ (.weaken (fun _ _ _ => trivial) (settle_runs rfl))

end CorelinkRunners
