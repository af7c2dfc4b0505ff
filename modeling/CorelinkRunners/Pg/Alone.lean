import CorelinkRunners.Pg.Safety

/-!
# Calls run alone

With no other session about, a call is an operation on the tables. `Pg.alone` runs a program from
its start, `Pg.inside` from within a transaction, over the writes it has made so far.
-/

namespace CorelinkRunners

open Kit Sql

/-- The tables under transactions, with nothing kept beside them. -/
def tables : Store Sql Sql.Ans PgLock Write Db where
  lock q db ws := q.lock (db.applyAll ws)
  ask q db ws := q.ask (db.applyAll ws)
  publish db ws := db.applyAll ws

namespace Pg

variable {A B : Type} {db : Db} {ws : List Write}

def alone (p : Pg A) (db : Db) : A × Db := tables.runAlone none p db

def inside (ws : List Write) (p : Pg A) (db : Db) : A × Db := tables.runAlone (some ws) p db

@[simp]
theorem alone_answer (a : A) : alone (answer a) db = (a, db) := rfl

@[simp]
theorem alone_start (p : Pg A) : alone (start p) db = inside [] p db := rfl

variable {q : Sql} {k : q.Ans → Pg A} {a : q.Ans}

theorem alone_read (asked : q.ask db = (a, [])) : alone (sql q k) db = alone (k a) db := by
  have h : alone (sql q k) db = alone (k (q.ask db).1) (db.applyAll (q.ask db).2) := rfl
  rw [h, asked]
  rfl

@[simp]
theorem inside_commit (p : Pg A) : inside ws (commit p) db = alone p (db.applyAll ws) := rfl

variable {w : List Write}

theorem inside_sql (asked : q.ask (db.applyAll ws) = (a, w)) :
    inside ws (sql q k) db = inside (ws ++ w) (k a) db := by
  have h : inside ws (sql q k) db =
      inside (ws ++ (q.ask (db.applyAll ws)).2) (k (q.ask (db.applyAll ws)).1) db := rfl
  rw [h, asked]

theorem inside_first (asked : q.ask db = (a, w)) : inside [] (sql q k) db = inside w (k a) db :=
  inside_sql asked

theorem alone_map (f : A → B) (p : Pg A) :
    alone (p.map f) db = ((alone p db).1 |> f, (alone p db).2) := by
  have h : ∀ (w : Option (List Write)) (db : Db), tables.runAlone w (p.map f) db =
      (f (tables.runAlone w p db).1, (tables.runAlone w p db).2) := by
    induction p with
    | pure a => exact fun _ _ => rfl
    | vis e k ih =>
      intro w db
      cases e with
      | start => exact ih () _ _
      | rollback => exact ih () _ _
      | commit => cases w <;> exact ih () _ _
      | query q => cases w <;> exact ih _ _ _
  exact h none db

/-! ## What the calls do -/

section Shared

variable {leaseId : String}

theorem inside_advisoryLock (tenant : String) (k : Unit → Pg A) :
    inside [] (sql (.advisoryLock tenant) k) db = inside [] (k ()) db := rfl

theorem inside_lockAccounted (pre : Attribution) (p : Pg A) :
    inside [] (lockAccounted pre p) db = inside [] p db := by
  unfold lockAccounted
  split
  · exact inside_first rfl
  · rfl

theorem inside_lockUnclaimedLease (k : Bool → Pg A) : inside [] (lockUnclaimedLease leaseId k) db =
      inside [] (k (db.leases[leaseId]?.isSome && !db.pendingCleanupClaims.contains leaseId))
      db := by
  unfold lockUnclaimedLease
  cases found : db.leases[leaseId]? with
  | none =>
    have locks : ask db (.lockLease leaseId) = (none, []) := by
      show (db.leases[leaseId]?.map LeaseRow.record, []) = _
      rw [found]
      rfl
    rw [inside_first locks]
    rfl
  | some row =>
    have locks : ask db (.lockLease leaseId) = (some row.record, []) := by
      show (db.leases[leaseId]?.map LeaseRow.record, []) = _
      rw [found]
      rfl
    rw [inside_first locks]
    exact inside_first rfl

variable {row : LeaseRow} {k : Bool → Pg A}

theorem inside_lockUnclaimed (found : db.leases[leaseId]? = some row)
    (unclaimed : db.pendingCleanupClaims.contains leaseId = false) :
    inside [] (lockUnclaimedLease leaseId k) db = inside [] (k true) db := by
  rw [inside_lockUnclaimedLease, found, unclaimed]
  rfl

theorem inside_lockClaimed (claimed : db.pendingCleanupClaims.contains leaseId = true) :
    inside [] (lockUnclaimedLease leaseId k) db = inside [] (k false) db := by
  rw [inside_lockUnclaimedLease, claimed, Bool.not_true, Bool.and_false]

variable (db leaseId) in
theorem ask_attribution : Sql.ask db (.attribution leaseId) = (db.leases[leaseId]?.map fun row =>
    ⟨row.record.tenant.raw, row.boxVcpuCount, row.accrualPeriodKey⟩, []) := rfl

theorem ask_attribution_some (found : db.leases[leaseId]? = some row) :
    Sql.ask db (.attribution leaseId) =
      (some ⟨row.record.tenant.raw, row.boxVcpuCount, row.accrualPeriodKey⟩, []) := by
  rw [ask_attribution, found]
  rfl

theorem ask_attribution_none (absent : db.leases[leaseId]? = none) :
    Sql.ask db (.attribution leaseId) = (none, []) := by
  rw [ask_attribution, absent]
  rfl

theorem ask_lockLease (found : db.leases[leaseId]? = some row) :
    Sql.ask db (.lockLease leaseId) = (some row.record, []) := by
  show (db.leases[leaseId]?.map LeaseRow.record, []) = _
  rw [found]
  rfl

end Shared

section Transition

variable {leaseId tenant : String} {periodKey : Option Nat} {target : RunnerState} {nowMs : Nat}
  {row : LeaseRow}

section

variable (refused : db.pendingCleanupClaims.contains leaseId = true ∨
  Sql.inState db leaseId (legalFromFor target) = none)
include refused

theorem transitionOff_refused :
    ∃ e, (transitionOff leaseId target nowMs).alone db = (.error e, db) := by
  unfold transitionOff
  rw [alone_start]
  rcases refused with claimed | absent
  · rw [inside_lockClaimed claimed]
    exact ⟨_, rfl⟩
  · have updates : ask db (.updateState leaseId (legalFromFor target) target nowMs) =
        (none, []) := by simp only [ask, absent]
    rw [inside_lockUnclaimedLease]
    split
    · rw [inside_first updates]
      exact ⟨_, rfl⟩
    · exact ⟨_, rfl⟩

theorem transitionOn_refused :
    ∃ e, (transitionOn leaseId tenant periodKey target nowMs).alone db = (.error e, db) := by
  unfold transitionOn
  rw [alone_start, inside_advisoryLock]
  rcases refused with claimed | absent
  · rw [inside_lockClaimed claimed]
    exact ⟨_, rfl⟩
  · have updates : ask db (.updateStamped leaseId (legalFromFor target) target nowMs) =
        (none, []) := by simp only [ask, absent]
    rw [inside_lockUnclaimedLease]
    split
    · rw [inside_first updates]
      exact ⟨_, rfl⟩
    · exact ⟨_, rfl⟩

theorem transition_refused : ∃ e, (transition leaseId target nowMs).alone db = (.error e, db) := by
  unfold transition
  rw [alone_read (ask_attribution db leaseId)]
  split
  · exact transitionOn_refused refused
  · exact transitionOff_refused refused

end

theorem transition_off (found : db.leases[leaseId]? = some row)
    (unclaimed : db.pendingCleanupClaims.contains leaseId = false)
    (legal : row.record.state = legalFromFor target) (off : row.boxVcpuCount = none) :
    (transition leaseId target nowMs).alone db = (.ok (row.moved target nowMs).record,
      db.apply (.lease leaseId (some (row.moved target nowMs)))) := by
  have source : inState db leaseId (legalFromFor target) = some row :=
    inState_eq_some.mpr ⟨found, legal⟩
  have updates : ask db (.updateState leaseId (legalFromFor target) target nowMs) =
      (some (row.moved target nowMs).record,
        [.lease leaseId (some (row.moved target nowMs))]) := by simp only [ask, source]
  unfold transition
  rw [alone_read (ask_attribution_some found), off]
  unfold transitionOff
  rw [alone_start, inside_lockUnclaimed found unclaimed, if_pos rfl, inside_first updates]
  rfl

theorem transition_on {vcpu period reserved : Nat} (found : db.leases[leaseId]? = some row)
    (unclaimed : db.pendingCleanupClaims.contains leaseId = false)
    (legal : row.record.state = legalFromFor target) (hvcpu : row.boxVcpuCount = some vcpu)
    (hperiod : row.accrualPeriodKey = some period) (hreserved : row.reservedVcpuMs = some reserved)
    (unlatched : row.accruedAtMs = none) (bound : reserved ≤ maxLedgerVcpuMs)
    (accrued : db.accrued row.record.tenant.raw period ≤ maxLedgerVcpuMs) :
    (transition leaseId target nowMs).alone db = (.ok (row.moved target nowMs).record,
      if target.isTerminal = true then
        (db.apply (.lease leaseId (some (row.movedStamped target nowMs)))).apply
          (.accrual row.record.tenant.raw period
            (min (db.accrued row.record.tenant.raw period +
              min (vcpu * (nowMs - row.record.createdAtMs)) reserved) maxLedgerVcpuMs))
      else db.apply (.lease leaseId (some (row.moved target nowMs)))) := by
  have source : inState db leaseId (legalFromFor target) = some row :=
    inState_eq_some.mpr ⟨found, legal⟩
  have updates : ask db (.updateStamped leaseId (legalFromFor target) target nowMs) =
      (some (row.movedStamped target nowMs, true),
        [.lease leaseId (some (row.movedStamped target nowMs))]) := by
    simp only [ask, source, unlatched, Option.isNone_none]
  unfold transition
  rw [alone_read (ask_attribution_some found), hvcpu]
  unfold transitionOn
  rw [alone_start, inside_advisoryLock, inside_lockUnclaimed found unclaimed, if_pos rfl,
    inside_first updates]
  cases terminal : target.isTerminal with
  | false =>
    rw [LeaseRow.movedStamped_of_not_terminal terminal]
    rfl
  | true =>
    have hamount := terminalAccrual_eq vcpu row.record.createdAtMs nowMs bound
    have hfits : terminalAccrual vcpu reserved row.record.createdAtMs nowMs ≤ maxLedgerVcpuMs := by
      omega
    have hvcpu' : (row.movedStamped target nowMs).boxVcpuCount = some vcpu := hvcpu
    have hreserved' : (row.movedStamped target nowMs).reservedVcpuMs = some reserved := hreserved
    have accrues : ask (db.applyAll [.lease leaseId (some (row.movedStamped target nowMs))])
        (.accrue row.record.tenant.raw period (terminalAccrual vcpu reserved
          (row.movedStamped target nowMs).record.createdAtMs nowMs)) =
        ((), [.accrual row.record.tenant.raw period (min (db.accrued row.record.tenant.raw period +
          terminalAccrual vcpu reserved row.record.createdAtMs nowMs) maxLedgerVcpuMs)]) :=
      Prod.ext rfl (accrue_total
        (db.applyAll [.lease leaseId (some (row.movedStamped target nowMs))])
        row.record.tenant.raw period hfits accrued)
    show inside _ (accrueTerminal leaseId row.record.tenant.raw row.accrualPeriodKey
      (row.movedStamped target nowMs) nowMs) db = _
    unfold accrueTerminal
    rw [hvcpu', hreserved', hperiod]
    rw [inside_sql accrues, ← hamount]
    rfl

end Transition

section Admission

variable {rec : LeaseRecord} {cap : Nat}

theorem tryAdmit_alone : (tryAdmit rec cap).alone db =
    if db.activeCount rec.tenant.raw < cap then
      if db.leases.contains rec.leaseId = true then
        (.error ("try_admit failed for lease " ++ rec.leaseId ++ " (duplicate id or DB error): "
          ++ duplicateKey "leases_pkey"), db)
      else (.ok true, db.apply (.lease rec.leaseId (some (.admitted rec none))))
    else (.ok false, db) := by
  unfold tryAdmit
  rw [alone_start, inside_advisoryLock]
  by_cases room : db.activeCount rec.tenant.raw < cap
  · rw [if_pos room]
    by_cases duplicate : db.leases.contains rec.leaseId = true
    · have inserts : ask db (.countAndInsert (.admitted rec none) cap) =
          (.error (duplicateKey "leases_pkey"), []) := (if_pos room).trans (if_pos duplicate)
      rw [if_pos duplicate, inside_first inserts]
      rfl
    · have inserts : ask db (.countAndInsert (.admitted rec none) cap) =
          (.ok true, [.lease rec.leaseId (some (.admitted rec none))]) :=
        (if_pos room).trans (if_neg duplicate)
      rw [if_neg duplicate, inside_first inserts]
      rfl
  · have full : ask db (.countAndInsert (.admitted rec none) cap) = (.ok false, []) := if_neg room
    rw [if_neg room, inside_first full]
    rfl

theorem admitGated_alone {gate : ComputeGate} : (admitGated rec cap gate).alone db =
    if db.projected rec.tenant.raw gate > gate.ceilingVcpuMs then (.ok .overCompute, db)
    else if db.activeCount rec.tenant.raw ≥ cap then (.ok .overConcurrency, db)
    else if db.leases.contains rec.leaseId = true then
      (.error ("try_admit_with_compute failed for lease " ++ rec.leaseId
        ++ " (duplicate id or DB error): " ++ duplicateKey "leases_pkey"), db)
    else (.ok .admitted, db.apply (.lease rec.leaseId (some (.admitted rec (some gate))))) := by
  unfold admitGated
  rw [alone_start, inside_advisoryLock]
  show inside [] (if db.projected rec.tenant.raw gate > gate.ceilingVcpuMs then _
    else if db.activeCount rec.tenant.raw ≥ cap then _ else _) db = _
  split
  · rfl
  split
  · rfl
  by_cases duplicate : db.leases.contains rec.leaseId = true
  · have inserts : ask db (.insertLease (.admitted rec (some gate))) =
        (.error (duplicateKey "leases_pkey"), []) := if_pos duplicate
    rw [if_pos duplicate, inside_first inserts]
    rfl
  · have inserts : ask db (.insertLease (.admitted rec (some gate))) =
        (.ok (), [.lease rec.leaseId (some (.admitted rec (some gate)))]) := if_neg duplicate
    rw [if_neg duplicate, inside_first inserts]
    rfl

end Admission

section Binding

variable {leaseId providerRef : String} {row : LeaseRow}

theorem bindLocked_alone (found : db.leases[leaseId]? = some row)
    (keyed : row.record.leaseId = leaseId) : inside [] (bindLocked leaseId providerRef) db =
      match bind row.record providerRef with
      | .error e => (.error e, db)
      | .ok updated =>
        (.ok updated, db.apply (.lease leaseId (some { row with record := updated }))) := by
  subst keyed
  have selects : ask db (.selectLease row.record.leaseId) = (some row.record, []) := by
    show (db.leases[row.record.leaseId]?.map LeaseRow.record, []) = _
    rw [found]
    rfl
  unfold bindLocked bind
  rw [inside_first selects]
  dsimp only
  by_cases pending : row.record.state.isPending = true
  · have notRefused : ¬ (!row.record.state.isPending) = true :=
      by rw [pending]; exact Bool.false_ne_true
    rw [if_neg notRefused, if_neg notRefused]
    by_cases same : row.record.boxRef = providerRef
    · -- bound already: the row is written back as it is
      rw [if_pos same, if_pos same, inside_commit, alone_answer]
      have unchanged : db.apply (.lease row.record.leaseId (some row)) = db :=
        congrArg (fun leases => { db with leases }) (OrdMap.insert_of_get found)
      show (_, db) = (_, db.apply (.lease row.record.leaseId (some row)))
      rw [unchanged]
    · rw [if_neg same, if_neg same]
      by_cases other : row.record.boxRef ≠ "box:" ++ row.record.leaseId
      · rw [if_pos other, if_pos other]
        rfl
      · have placeholder : (inState db row.record.leaseId .pending).filter
            (fun r => r.record.boxRef = "box:" ++ row.record.leaseId) = some row := by
          rw [inState_eq_some.mpr ⟨found, LeaseState.isPending_iff.mp pending⟩]
          simpa using other
        have updates :
            ask db (.updateBoxRef row.record.leaseId providerRef ("box:" ++ row.record.leaseId)) =
            (some { row.record with boxRef := providerRef },
              [.lease row.record.leaseId (some { row with
                record := { row.record with boxRef := providerRef } })]) := by
          simp only [ask, placeholder]
        rw [if_neg other, if_neg other, inside_first updates]
        rfl
  · have refused : (!row.record.state.isPending) = true := by
      rw [Bool.eq_false_of_not_eq_true pending]
      rfl
    rw [if_pos refused, if_pos refused]
    rfl

theorem bindProviderRef_refused [SerdeJson]
    (refused : (∃ e, validateProviderRef providerRef = .error e) ∨
      db.leases[leaseId]? = none ∨ db.pendingCleanupClaims.contains leaseId = true) :
    ∃ e, (bindProviderRef leaseId providerRef).alone db = (.error e, db) := by
  unfold bindProviderRef
  cases hvalid : validateProviderRef providerRef with
  | error e => exact ⟨e, rfl⟩
  | ok =>
    cases found : db.leases[leaseId]? with
    | none =>
      rw [alone_read (ask_attribution_none found)]
      exact ⟨_, rfl⟩
    | some row =>
      rcases refused with ⟨e, he⟩ | absent | claimed
      · nomatch hvalid.symm.trans he
      · nomatch found.symm.trans absent
      · dsimp only
        rw [alone_read (ask_attribution_some found)]
        rw [alone_start, inside_lockAccounted, inside_lockClaimed claimed]
        exact ⟨_, rfl⟩

end Binding

section Cleanup

variable {leaseId : String} {row : LeaseRow}

theorem ask_deletePending (found : db.leases[leaseId]? = some row)
    (pending : row.record.state.isPending = true) :
    Sql.ask db (.deleteLease leaseId true) = (true, [.lease leaseId none]) := by
  have removable : removable db leaseId true = some row := by simp [removable, found, pending]
  simp only [ask, removable]

theorem removeIfPending_kept (kept : ∀ row, db.leases[leaseId]? = some row →
      db.pendingCleanupClaims.contains leaseId = true ∨ row.record.state.isPending = false) :
    (removeIfPending leaseId).alone db = (.ok false, db) := by
  unfold removeIfPending removeWith
  cases found : db.leases[leaseId]? with
  | none =>
    rw [alone_read (ask_attribution_none found)]
    rfl
  | some row =>
    rw [alone_read (ask_attribution_some found)]
    rw [alone_start, inside_lockAccounted]
    rcases kept row found with claimed | moved
    · rw [inside_lockClaimed claimed]
      rfl
    · have removable : removable db leaseId true = none := by
        unfold removable
        rw [found, Option.filter_some, moved]
        rfl
      have deletes : ask db (.deleteLease leaseId true) = (false, []) := by
        simp only [ask, removable]
      rw [inside_lockUnclaimedLease]
      split
      · unfold removeLocked
        rw [inside_first deletes]
        rfl
      · rfl

theorem removeIfPending_removed (found : db.leases[leaseId]? = some row)
    (unclaimed : db.pendingCleanupClaims.contains leaseId = false)
    (pending : row.record.state.isPending = true) :
    (removeIfPending leaseId).alone db = (.ok true, db.apply (.lease leaseId none)) := by
  unfold removeIfPending removeWith
  rw [alone_read (ask_attribution_some found)]
  rw [alone_start, inside_lockAccounted, inside_lockUnclaimed found unclaimed, if_pos rfl]
  unfold removeLocked
  rw [inside_first (ask_deletePending found pending)]
  rfl

theorem finishPendingCleanup_kept (kept : ∀ row, db.leases[leaseId]? = some row →
      db.pendingCleanupClaims.contains leaseId = false ∨ row.record.state.isPending = false) :
    (finishPendingCleanup leaseId).alone db = (.ok false, db) := by
  unfold finishPendingCleanup
  cases found : db.leases[leaseId]? with
  | none =>
    rw [alone_read (ask_attribution_none found)]
    rfl
  | some row =>
    rw [alone_read (ask_attribution_some found)]
    rw [alone_start, inside_lockAccounted, inside_first (ask_lockLease found)]
    dsimp only
    cases pending : row.record.state.isPending with
    | false => rfl
    | true =>
      rcases kept row found with unclaimed | moved
      · have owned : ask db (.claimed leaseId) = (false, []) := congrArg (·, []) unclaimed
        rw [Bool.not_true, if_neg Bool.false_ne_true, inside_first owned]
        rfl
      · nomatch moved.symm.trans pending

theorem finishPendingCleanup_finished (found : db.leases[leaseId]? = some row)
    (claimed : db.pendingCleanupClaims.contains leaseId = true)
    (pending : row.record.state.isPending = true) :
    (finishPendingCleanup leaseId).alone db = (.ok true, db.apply (.lease leaseId none)) := by
  have owned : ask db (.claimed leaseId) = (true, []) := congrArg (·, []) claimed
  unfold finishPendingCleanup
  rw [alone_read (ask_attribution_some found)]
  rw [alone_start, inside_lockAccounted, inside_first (ask_lockLease found)]
  dsimp only
  rw [pending, Bool.not_true, if_neg Bool.false_ne_true, inside_first owned, if_pos rfl,
    inside_first (ask_deletePending found pending)]
  rfl

variable {predicate : ClaimPredicate} {claimedAtMs : Nat} {k : Result (Option LeaseRecord) → Pg A}

theorem claimOne_none
    (moved : ∀ row, db.leases[leaseId]? = some row → row.record.state.isPending = false) :
    (claimOne leaseId predicate claimedAtMs k).alone db = (k (.ok none)).alone db := by
  unfold claimOne
  cases found : db.leases[leaseId]? with
  | none => rw [alone_read (ask_attribution_none found)]
  | some row =>
    rw [alone_read (ask_attribution_some found)]
    rw [alone_start, inside_lockAccounted, inside_first (ask_lockLease found)]
    dsimp only
    rw [moved row found]
    rfl

theorem claimOne_again (found : db.leases[leaseId]? = some row)
    (pending : row.record.state.isPending = true)
    (claimed : db.pendingCleanupClaims.contains leaseId = true) :
    (claimOne leaseId predicate claimedAtMs k).alone db = (k (.ok (some row.record))).alone db := by
  have owned : ask db (.claimed leaseId) = (true, []) := congrArg (·, []) claimed
  unfold claimOne
  rw [alone_read (ask_attribution_some found)]
  rw [alone_start, inside_lockAccounted, inside_first (ask_lockLease found)]
  dsimp only
  rw [pending, Bool.not_true, if_neg Bool.false_ne_true, inside_first owned]
  rfl

theorem claimOne_claims (found : db.leases[leaseId]? = some row)
    (pending : row.record.state.isPending = true)
    (unclaimed : db.pendingCleanupClaims.contains leaseId = false)
    (sound : predicate.corrupt row.record.createdAtMs = false)
    (stale : predicate.spares row.record.createdAtMs = false) :
    (claimOne leaseId predicate claimedAtMs k).alone db =
      (k (.ok (some row.record))).alone (db.apply (.claim leaseId claimedAtMs)) := by
  have owned : ask db (.claimed leaseId) = (false, []) := congrArg (·, []) unclaimed
  have inserts : ask db (.insertClaim leaseId claimedAtMs) =
      (.ok (), [.claim leaseId claimedAtMs]) := if_neg (by rw [unclaimed]; exact Bool.false_ne_true)
  unfold claimOne
  rw [alone_read (ask_attribution_some found)]
  rw [alone_start, inside_lockAccounted, inside_first (ask_lockLease found)]
  dsimp only
  rw [pending, Bool.not_true, if_neg Bool.false_ne_true, inside_first owned,
    if_neg Bool.false_ne_true, sound, if_neg Bool.false_ne_true, stale, if_neg Bool.false_ne_true,
    inside_first inserts]
  rfl

end Cleanup

end Pg

end CorelinkRunners
