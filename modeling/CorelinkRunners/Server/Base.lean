import CorelinkRunners.Ledger.Replay
import CorelinkRunners.Scheduler.Conservation
import CorelinkRunners.Server.Programs

/-!
# What the effects do to the world

One lemma for each ledger call says everything it can do to the records. The effects of the other
families leave the ledger alone, and touch the tables of their own process only.

`World.Based` is what every reachable world keeps: the ledger is well formed, and a parked acquire
has a Pending record.
-/

namespace CorelinkRunners

open Kit

/-! ## The ledger -/

namespace InMemoryInner

variable (s : InMemoryInner) {row : LeaseRecord}

theorem mem_sortById {rows : List LeaseRecord} :
    row ∈ sortById rows ↔ row ∈ rows := List.mem_insertionSort _

theorem mem_held :
    row ∈ s.held ↔ (∃ id : String, s.records[id]? = some row) ∧ row.state = .wire .held := by
  simp only [held, mem_sortById, List.mem_filter, OrdMap.mem_vals, LeaseState.isHeld_iff]

theorem mem_byTenant {tenant : TenantId} :
    row ∈ s.byTenant tenant ↔ (∃ id : String, s.records[id]? = some row) ∧ row.tenant = tenant := by
  simp only [byTenant, mem_sortById, List.mem_filter, OrdMap.mem_vals, decide_eq_true_eq]

variable (rec : LeaseRecord)

theorem put_cases : (s.put rec = (.error (existsError rec.leaseId), s)) ∨
    (s.records[rec.leaseId]? = none ∧
      s.put rec = (.ok (), { s with records := s.records.insert rec.leaseId rec })) := by
  unfold put
  split
  · exact .inl rfl
  next absent =>
    exact .inr ⟨(OrdMap.contains_eq_false_iff_get _ _).mp (Bool.eq_false_iff.mpr absent), rfl⟩

variable (cap : Nat)

theorem concurrencyOnlyAdmit_cases :
    (∃ refused, s.concurrencyOnlyAdmit rec cap = (refused, s) ∧ refused ≠ .ok .admitted) ∨
    (s.records[rec.leaseId]? = none ∧ s.concurrencyOnlyAdmit rec cap =
      (.ok .admitted, { s with records := s.records.insert rec.leaseId rec })) := by
  unfold concurrencyOnlyAdmit tryAdmit
  by_cases room : Word.asU32 (s.active rec.tenant).length < cap
  · rw [if_pos room]
    rcases s.put_cases rec with put | ⟨fresh, put⟩
    · rw [put]
      exact .inl ⟨_, rfl, nofun⟩
    · rw [put]
      exact .inr ⟨fresh, rfl⟩
  · rw [if_neg room]
    exact .inl ⟨_, rfl, nofun⟩

/-- **An admission** puts a fresh record, or changes nothing. -/
theorem tryAdmitWithCompute_cases (gate : Option ComputeGate) :
    (∃ refused, s.tryAdmitWithCompute rec cap gate = (refused, s) ∧ refused ≠ .ok .admitted) ∨
    (s.records[rec.leaseId]? = none ∧ ∃ reservations, s.tryAdmitWithCompute rec cap gate =
      (.ok .admitted,
        { s with records := s.records.insert rec.leaseId rec, reservations := reservations })) := by
  have plain : (∃ refused, s.concurrencyOnlyAdmit rec cap = (refused, s) ∧
      refused ≠ .ok .admitted) ∨
      (s.records[rec.leaseId]? = none ∧ ∃ reservations, s.concurrencyOnlyAdmit rec cap =
        (.ok .admitted,
          { s with records := s.records.insert rec.leaseId rec, reservations := reservations })) :=
    (s.concurrencyOnlyAdmit_cases rec cap).imp_right fun ⟨fresh, same⟩ => ⟨fresh, _, same⟩
  unfold tryAdmitWithCompute
  split
  · exact plain
  next gate =>
    split
    · exact plain
    split
    next res _ =>
      rcases s.put_cases rec with put | ⟨fresh, put⟩
      · rw [put]
        exact .inl ⟨_, rfl, nofun⟩
      · rw [put]
        exact .inr ⟨fresh, _, rfl⟩
    next outcome other _ decided =>
      refine .inl ⟨_, rfl, ?_⟩
      rintro ⟨⟩
      unfold admitDecision at decided
      dsimp only at decided
      split at decided
      · nomatch decided
      · split at decided
        · nomatch decided
        · cases decided
          rename_i never
          exact never _ rfl rfl

variable (leaseId : String)

/-- **A transition** that is legal from the record it finds stamps that record; any other is refused
and changes nothing. -/
theorem transition_cases (target : RunnerState) (nowMs : Nat) :
    (∃ e, s.transition leaseId target nowMs = (.error e, s)) ∨
    (∃ rec s', s.records[leaseId]? = some rec ∧ transitionIsLegal rec.state target = true ∧
      leaseId ∉ s.pendingCleanupClaims ∧
      s.transition leaseId target nowMs = (.ok (rec.stamped target nowMs), s') ∧
      s'.records = s.records.insert leaseId (rec.stamped target nowMs) ∧
      s'.checkpoints = s.checkpoints ∧ s'.pendingCleanupClaims = s.pendingCleanupClaims) := by
  unfold transition
  split
  · exact .inl ⟨_, rfl⟩
  next unclaimed =>
    rw [Std.ExtTreeSet.contains_iff_mem] at unclaimed
    rcases s.transitionCapturing_cases leaseId target nowMs with
      ⟨_, e, refused⟩ | ⟨rec, found, legal, moved⟩ | ⟨rec, res, found, legal, _, _, _, moved⟩
    · rw [refused]
      exact .inl ⟨e, rfl⟩
    · rw [moved]
      exact .inr ⟨rec, _, found, legal, unclaimed, rfl, rfl, rfl, rfl⟩
    · rw [moved]
      exact .inr ⟨rec, _, found, legal, unclaimed, rfl, rfl, rfl, rfl⟩

/-- **A binding** writes the reference of a Pending record, or changes nothing. -/
theorem bindProviderRef_cases [SerdeJson] (providerRef : String) :
    (∃ e, s.bindProviderRef leaseId providerRef = (.error e, s)) ∨
    (∃ rec, s.records[leaseId]? = some rec ∧ rec.state = .pending ∧
      leaseId ∉ s.pendingCleanupClaims ∧ s.bindProviderRef leaseId providerRef =
        (.ok { rec with boxRef := providerRef },
          { s with records := s.records.insert leaseId { rec with boxRef := providerRef } })) := by
  unfold bindProviderRef
  split
  · exact .inl ⟨_, rfl⟩
  split
  · exact .inl ⟨_, rfl⟩
  next unclaimed =>
    rw [Std.ExtTreeSet.contains_iff_mem] at unclaimed
    split
    · exact .inl ⟨_, rfl⟩
    next current found =>
      split
      · exact .inl ⟨_, rfl⟩
      next updated bound =>
        obtain ⟨pending, rfl⟩ := bind_ok bound
        exact .inr ⟨current, found, pending, unclaimed, rfl⟩

/-- **The end of a cleanup** removes a claimed Pending record, or changes nothing. -/
theorem finishPendingCleanup_cases : (s.finishPendingCleanup leaseId = (.ok false, s)) ∨
    (∃ rec, s.records[leaseId]? = some rec ∧ rec.state = .pending ∧
      s.finishPendingCleanup leaseId = (.ok true, s.finish leaseId)) := by
  unfold finishPendingCleanup
  split
  · exact .inl rfl
  next claimed =>
    rw [Bool.not_eq_true', Bool.not_eq_false, claimedPending_iff] at claimed
    obtain ⟨rec, found, pending⟩ := isPendingAt_iff.mp claimed.2
    have there : s.records.contains leaseId = true :=
      (OrdMap.contains_iff_get _ _).mpr ⟨rec, found⟩
    rw [there]
    exact .inr ⟨rec, found, pending, rfl⟩

/-- **A claim** is put on a Pending record, or nothing changes. -/
theorem claimPendingCleanup_cases : (s.claimPendingCleanup leaseId = (.ok none, s)) ∨
    (∃ rec, s.records[leaseId]? = some rec ∧ rec.state = .pending ∧
      s.claimPendingCleanup leaseId = (.ok (some rec), s.claim leaseId)) := by
  unfold claimPendingCleanup
  split
  · exact .inl rfl
  next rec found =>
    split
    · exact .inl rfl
    next pending =>
      rw [Bool.not_eq_true', Bool.not_eq_false, LeaseState.isPending_iff] at pending
      exact .inr ⟨rec, found, pending, rfl⟩

theorem claimStalePendingCleanup_records (nowMs maxAgeMs : Nat) :
    (s.claimStalePendingCleanup nowMs maxAgeMs).2.records = s.records := by
  have claims : ∀ (rows : List LeaseRecord) (s : InMemoryInner),
      (rows.foldl (fun s row => s.claim row.leaseId) s).records = s.records := by
    intro rows
    induction rows with
    | nil => exact fun _ => rfl
    | cons row rest ih => exact fun s => ih (s.claim row.leaseId)
  exact claims _ s

theorem setEnvelopeCheckpoint_records (json : String) :
    (s.setEnvelopeCheckpoint leaseId json).2.records = s.records := by
  unfold setEnvelopeCheckpoint
  split
  · rfl
  · rfl

variable {s} in
theorem WellFormed.get_self (wf : s.WellFormed)
    (listed : ∃ id : String, s.records[id]? = some row) :
    s.records[row.leaseId]? = some row := by
  obtain ⟨id, found⟩ := listed
  rw [wf.keyed id row found]
  exact found

end InMemoryInner

namespace Server

open Envelope World

variable {B : Type}

/-! ## The state of a lease -/

def World.stateAt (w : World B) (id : String) : Option LeaseState :=
  w.ledger.records[id]?.map LeaseRecord.state

def behind : Option LeaseState → List RunnerState
  | none | some .pending => []
  | some (.wire .held) => [.held]
  | some (.wire state) => [.held, state]

def World.Alike (w w' : World B) : Prop := ∀ id, behind (w'.stateAt id) = behind (w.stateAt id)

section StateAt

variable {w w' : World B} {id : String} {rec : LeaseRecord}

theorem World.stateAt_of_get (found : w.ledger.records[id]? = some rec) :
    w.stateAt id = some rec.state :=
  congrArg (Option.map LeaseRecord.state) found

theorem World.stateAt_insert (inserted : w'.ledger.records = w.ledger.records.insert id rec)
    (other : String) : w'.stateAt other = if id = other then some rec.state
    else w.stateAt other := by
  rw [stateAt, inserted, OrdMap.get_insert]
  split
  · rfl
  · rfl

theorem World.alike_same (same : w'.ledger.records = w.ledger.records) : w.Alike w' := by
  intro id
  rw [stateAt, same, stateAt]

theorem World.alike_insert (inserted : w'.ledger.records = w.ledger.records.insert id rec)
    (pending : rec.state = .pending) (unmoved : behind (w.stateAt id) = []) : w.Alike w' := by
  intro other
  rw [stateAt_insert inserted, pending]
  split
  next same => rw [← same, unmoved, behind]
  · rfl

theorem World.alike_erase (erased : w'.ledger.records = w.ledger.records.erase id)
    (unmoved : behind (w.stateAt id) = []) : w.Alike w' := by
  intro other
  rw [stateAt, erased, OrdMap.get_erase]
  split
  next same => rw [← same, unmoved, Option.map_none, behind]
  · rfl

end StateAt

/-! ## Ledger calls -/

/-- What a ledger call of a handler does. A quiet one moves no lease; the rows it reads as Held are
rows of the ledger. -/
inductive RowDoes (w : World B) : (op : RowOp) → op.Ans → World B → Prop
  | quiet {op : RowOp} {x : op.Ans} {ledger : InMemoryInner} (new : List LeaseRecord)
      (alike : w.Alike { w with ledger })
      (read : ∀ row ∈ new, w.ledger.records[row.leaseId]? = some row ∧ row.state = .wire .held)
      (after : ∀ g, Stage.afterRow g op x = g.reads new) : RowDoes w op x { w with ledger }
  | refused {id : String} {target : RunnerState} {nowMs : Option Nat} {e : String} :
      RowDoes w (.transition id target nowMs) (.error e) (w.note (.transitionRefused id target))
  | moved {id : String} {target : RunnerState} {nowMs : Option Nat} {rec : LeaseRecord} {at_ : Nat}
      {ledger : InMemoryInner} (found : w.ledger.records[id]? = some rec) (named : rec.leaseId = id)
      (legal : transitionIsLegal rec.state target = true)
      (inserted : ledger.records = w.ledger.records.insert id (rec.stamped target at_)) :
      RowDoes w (.transition id target nowMs) (.ok (rec.stamped target at_))
        ({ w with ledger }.note (.moved (rec.stamped target at_)))

variable {w w' : World B} {op : RowOp} {x : op.Ans}

theorem RowDoes.inst (does : RowDoes w op x w') : w'.inst = w.inst := by
  cases does <;> rfl

theorem RowDoes.unread {ledger : InMemoryInner} (alike : w.Alike { w with ledger })
    (after : ∀ g, Stage.afterRow g op x = g) : RowDoes w op x { w with ledger } :=
  .quiet [] alike nofun after

section Ledger

variable [SerdeJson] {w : World B} {env : Outside}

/-- **Everything a ledger call of a handler can do.** -/
theorem World.rowOp_does (wf : w.ledger.WellFormed) {op : RowOp} {g : Stage}
    (permits : g.Permits (.row op)) : RowDoes w op (w.rowOp env op).1 (w.rowOp env op).2 := by
  have same : w.Alike w := alike_same rfl
  cases down : env.ledgerError with
  | some e =>
    cases op <;> simp only [rowOp, onLedger, down]
    case transition => exact .refused
    all_goals exact .unread same fun _ => rfl
  | none =>
    cases op <;> simp only [rowOp, onLedger, down]
    case get id =>
      cases found : w.ledger.get id with
      | none => exact .unread same fun _ => rfl
      | some row =>
        refine .quiet _ same (fun other only => ?_) fun g => rfl
        obtain ⟨only, held⟩ := List.mem_filter.mp only
        rw [List.mem_singleton] at only
        subst only
        exact ⟨wf.get_self ⟨id, found⟩, LeaseState.isHeld_iff.mp held⟩
    case held =>
      refine .quiet w.ledger.held same (fun row known => ?_) fun _ => rfl
      obtain ⟨listed, held⟩ := w.ledger.mem_held.mp known
      exact ⟨wf.get_self listed, held⟩
    case byTenant tenant =>
      refine .quiet _ same (fun row known => ?_) fun _ => rfl
      obtain ⟨listed, held⟩ := List.mem_filter.mp known
      exact ⟨wf.get_self (w.ledger.mem_byTenant.mp listed).1, LeaseState.isHeld_iff.mp held⟩
    case tryAdmitWithCompute rec cap gate =>
      rcases w.ledger.tryAdmitWithCompute_cases rec cap gate with
        ⟨refused, tried, _⟩ | ⟨absent, reservations, tried⟩
      all_goals rw [tried]
      · exact .unread same fun _ => rfl
      · refine .unread (alike_insert rfl permits ?_) fun _ => rfl
        rw [stateAt, absent, Option.map_none, behind]
    case transition id target nowMs =>
      rcases w.ledger.transition_cases id target (nowMs.getD env.nowMs) with
        ⟨e, tried⟩ | ⟨rec, ledger, found, legal, _, tried, inserted, _⟩
      all_goals rw [tried]
      · exact .refused
      · exact .moved found (wf.keyed id rec found) legal inserted
    case bindProviderRef id providerRef =>
      rcases w.ledger.bindProviderRef_cases id providerRef with
        ⟨e, tried⟩ | ⟨rec, found, pending, _, tried⟩
      all_goals rw [tried]
      · exact .unread same fun _ => rfl
      · refine .unread (alike_insert rfl pending ?_) fun _ => rfl
        rw [stateAt_of_get found, pending, behind]
    case finishPendingCleanup id =>
      rcases w.ledger.finishPendingCleanup_cases id with tried | ⟨rec, found, pending, tried⟩
      all_goals rw [tried]
      · exact .unread same fun _ => rfl
      · refine .unread (alike_erase rfl ?_) fun _ => rfl
        rw [stateAt_of_get found, pending, behind]
    case claimPendingCleanup id =>
      rcases w.ledger.claimPendingCleanup_cases id with tried | ⟨_, _, _, tried⟩
      all_goals
        rw [tried]
        exact .unread (alike_same rfl) fun _ => rfl
    case claimStalePendingCleanup nowMs maxAgeMs =>
      exact .unread (alike_same (w.ledger.claimStalePendingCleanup_records nowMs maxAgeMs))
        fun _ => rfl
    case getEnvelopeCheckpoint => exact .unread same fun _ => rfl
    case setEnvelopeCheckpoint id json =>
      exact .unread (alike_same (w.ledger.setEnvelopeCheckpoint_records id json)) fun _ => rfl

end Ledger

/-! ## The other families -/

def movedTo (id : String) : Happening → Option RunnerState
  | .moved row =>
    match row.state with
    | .wire state => if row.leaseId = id then some state else none
    | .pending => none
  | _ => none

def slotFor (id : String) : Happening → Option SlotEventKind
  | .slot _ ev => if ev.leaseId = id then some ev.kind else none
  | _ => none

def Happening.Silent (what : Happening) : Prop :=
  ∀ id, movedTo id what = none ∧ slotFor id what = none

/-- What every effect but a ledger call and a slot event leaves: the ledger, the waiters that are
not Pending, and a log with no move and no slot event added. -/
structure World.Spares (w w' : World B) : Prop where
  ledger : w'.ledger = w.ledger
  waiters : ∀ (j : Nat) (id : String) (queued : QueuedAcquire),
    (w'.inst j).waiters[id]? = some queued →
      (w.inst j).waiters[id]? = some queued ∨ queued.pending.state = .pending
  log : ∃ new, w'.log = w.log ++ new ∧ ∀ what ∈ new, what.Silent

namespace World.Spares

variable {w w' w'' : World B} {i : Nat}

theorem trans (first : w.Spares w') (rest : w'.Spares w'') : w.Spares w'' := by
  obtain ⟨new, log, silent⟩ := first.log
  obtain ⟨new', log', silent'⟩ := rest.log
  refine ⟨rest.ledger.trans first.ledger, fun j id queued found => ?_, new ++ new', ?_, ?_⟩
  · exact (rest.waiters j id queued found).elim (first.waiters j id queued) .inr
  · rw [log', log, List.append_assoc]
  · exact List.forall_mem_append.mpr ⟨silent, silent'⟩

theorem note (spares : w.Spares w') {what : Happening} (silent : what.Silent) :
    w.Spares (w'.note what) := by
  refine spares.trans ⟨rfl, fun _ _ _ found => .inl found, [what], rfl, fun other only => ?_⟩
  rw [List.mem_singleton.mp only]
  exact silent

theorem of_same (ledger : w'.ledger = w.ledger) (inst : w'.inst = w.inst) (log : w'.log = w.log) :
    w.Spares w' := by
  refine ⟨ledger, fun j id queued found => .inl ?_, [], ?_, List.forall_mem_nil _⟩
  · rw [← inst]
    exact found
  · rw [log, List.append_nil]

theorem refl (w : World B) : w.Spares w := of_same rfl rfl rfl

theorem onInst {f : Instance → Instance} (waiters : ∀ (id : String) (queued : QueuedAcquire),
      (f (w.inst i)).waiters[id]? = some queued →
        (w.inst i).waiters[id]? = some queued ∨ queued.pending.state = .pending) :
    w.Spares (w.onInst i f) := by
  refine ⟨rfl, fun j id queued found => ?_, [], (List.append_nil _).symm, List.forall_mem_nil _⟩
  dsimp only [World.onInst] at found
  split at found
  next here =>
    subst here
    exact waiters id queued found
  · exact .inl found

theorem aside {f : Instance → Instance} (same : (f (w.inst i)).waiters = (w.inst i).waiters) :
    w.Spares (w.onInst i f) :=
  onInst fun _ _ found => .inl (same ▸ found)

end World.Spares

inductive BoxDoes (w : World B) (i : Nat) : (op : BoxOp) → op.Ans → World B → Prop
  | quiet {op : BoxOp} {x : op.Ans} {w' : World B} (spares : w.Spares w')
      (after : ∀ g, Stage.afterBox g op x = g) : BoxDoes w i op x w'
  | spawned {id : String} {spec : ContainerSpec} {x : Except ProvisionError String} {boxes : B} :
      BoxDoes w i (.provision id spec) x ({ w with boxes }.note (.provisioned i id))
  | torn {id : String} {boxes : B} :
      BoxDoes w i (.teardown id) true ({ w with boxes }.note (.torn i id))

theorem BoxDoes.spares {i : Nat} {op : BoxOp} {x : op.Ans} (does : BoxDoes w i op x w') :
    w.Spares w' := by
  cases does with
  | quiet spares => exact spares
  | spawned | torn =>
    refine Spares.note ?_ fun _ => ⟨rfl, rfl⟩
    exact .of_same rfl rfl rfl

section Effects

variable (w : World B) (prov : BoxProvisioner B) (env : Outside) (i : Nat)

theorem World.restoreForOperation_boxes (leaseId : String) :
    ∃ answer boxes, w.restoreForOperation prov env i leaseId = (answer, { w with boxes }) := by
  unfold restoreForOperation
  split
  · exact ⟨_, _, rfl⟩
  split
  · exact ⟨_, _, rfl⟩
  split
  · exact ⟨_, _, rfl⟩
  · exact ⟨_, _, rfl⟩

/-- **Everything an effect on the provider can do.** -/
theorem World.boxOp_does (op : BoxOp) :
    BoxDoes w i op (w.boxOp prov env i op).1 (w.boxOp prov env i op).2 := by
  have failed {boxes : B} {id : String} :
      BoxDoes w i (.teardown id) false ({ w with boxes }.note (.tearFailed i id)) := by
    refine .quiet (Spares.note ?_ fun _ => ⟨rfl, rfl⟩) fun _ => rfl
    exact .of_same rfl rfl rfl
  cases op with
  | provision id spec =>
    dsimp only [boxOp, provision]
    split
    · exact .quiet (.of_same rfl rfl rfl) fun _ => rfl
    split
    · exact .spawned
    split
    · exact .spawned
    · exact .spawned
  | teardown id =>
    obtain ⟨answer, boxes, restored⟩ := w.restoreForOperation_boxes prov env i id
    dsimp only [boxOp, teardown]
    rw [restored]
    cases answer with
    | error e => exact failed
    | ok _ =>
      dsimp only
      split
      · exact .torn
      · exact failed
  | teardownPending id | probe id =>
    obtain ⟨answer, boxes, restored⟩ := w.restoreForOperation_boxes prov env i id
    dsimp only [boxOp, teardownPending, probe]
    rw [restored]
    cases answer with
    | error e => exact .quiet (.of_same rfl rfl rfl) fun _ => rfl
    | ok _ =>
      dsimp only
      split
      · exact .quiet (.of_same rfl rfl rfl) fun _ => rfl
      · exact .quiet (.of_same rfl rfl rfl) fun _ => rfl
  | forgetPendingCleanup id => exact .quiet (.of_same rfl rfl rfl) fun _ => rfl

theorem World.credOp_spares (op : CredOp) : w.Spares (w.credOp env i op).2 := by
  cases op with
  | mintJit => exact .refl w
  | mintCasPat id =>
    dsimp only [credOp]
    split
    · exact (Spares.refl w).note fun _ => ⟨rfl, rfl⟩
    · exact .refl w
  | recordPat =>
    dsimp only [credOp]
    exact .aside rfl
  | revokePatFor id =>
    have cleared : w.Spares (w.onInst i fun self => { self with
        patIds := self.patIds.erase id
        pendingCred := self.pendingCred.erase id }) := by
      exact .aside rfl
    dsimp only [credOp, revokePatFor]
    split
    · exact cleared.note fun _ => ⟨rfl, rfl⟩
    · exact cleared

theorem World.sideOp_spares (op : SideOp) : w.Spares (w.sideOp prov i op) := by
  cases op with
  | forgetLease =>
    dsimp only [sideOp]
    refine .trans ?_ (.aside rfl)
    exact .of_same rfl rfl rfl
  | _ =>
    dsimp only [sideOp]
    exact .aside rfl

variable (id : String)

theorem World.onHook_spares {A : Type} (absent : A) (call : Inner → A × Inner) :
    w.Spares (w.onHook i id absent call).2 := by
  unfold onHook
  split
  · exact .refl w
  dsimp only
  exact .aside rfl

theorem World.hookOp_spares (op : HookOp) : w.Spares (w.hookOp env i op).2 := by
  cases op with
  | register | unregister =>
    dsimp only [hookOp]
    exact .aside rfl
  | closeHandle | closeHandleAny | closeAckGate => exact .refl w
  | closeBegin | closeEnd | closeAbnormal | write | snapshotMetrics => exact w.onHook_spares i _ _ _
  | emitForensic => exact (Spares.refl w).note fun _ => ⟨rfl, rfl⟩

theorem World.gateOp_spares (op : GateOp) : w.Spares (w.gateOp env i op).2 := by
  cases op with
  | isTenantSuspended => exact (Spares.refl w).note fun _ => ⟨rfl, rfl⟩
  | suspendTenantWithEvent tenant | unsuspendTenant tenant =>
    dsimp only [gateOp]
    split
    · exact .refl w
    refine Spares.note (.trans ?_ (.aside rfl)) fun _ => ⟨rfl, rfl⟩
    exact .of_same rfl rfl rfl

theorem World.onDurable_spares {A : Type} (call : QueueDb → Result A × QueueDb) :
    w.Spares (w.onDurable env call).2 := by
  unfold onDurable
  split
  · exact .refl w
  · exact .of_same rfl rfl rfl

theorem World.onChannel_spares (f : Channel → Channel) : w.Spares (w.onChannel i id f) := by
  unfold onChannel
  split
  · exact .aside rfl
  · exact .refl w

theorem World.dropWaiter_spares : w.Spares (w.dropWaiter i id) := by
  refine .onInst fun other queued found => ?_
  rw [OrdMap.get_erase] at found
  split at found
  · nomatch found
  · exact .inl found

theorem World.queueOp_spares {op : QueueOp} {g : Stage} (permits : g.Permits (.queue i op)) :
    w.Spares (w.queueOp env i op).2 := by
  cases op with
  | parkPermit id tenant cap =>
    dsimp only [queueOp]
    split
    · dsimp only
      exact .aside rfl
    · exact .refl w
  | releasePark | openChannel | enqueue | select =>
    dsimp only [queueOp]
    exact .aside rfl
  | insertWaiter id queued =>
    dsimp only [queueOp]
    refine .onInst fun other found at_other => ?_
    rw [OrdMap.get_insert] at at_other
    split at at_other
    · cases at_other
      exact .inr permits
    · exact .inl at_other
  | takeWaiter id => exact w.dropWaiter_spares i id
  | discardWaiter id =>
    dsimp only [queueOp]
    split
    · exact (w.onChannel_spares i id _).trans (dropWaiter_spares _ i id)
    · exact .refl w
  | poll => exact .refl w
  | dropReceiver id => exact w.onChannel_spares i id _
  | send id response =>
    dsimp only [queueOp]
    split
    · exact .refl w
    split
    · exact w.onChannel_spares i id _
    · exact w.onChannel_spares i id _
  | durableEnqueue | durableRemove | dequeueNextLocal | durableAdmit =>
    exact w.onDurable_spares env _

variable (ev : SlotOccupancyEvent)

theorem World.recordSlot_same : (w.recordSlot i ev).ledger = w.ledger ∧
    ∀ j, ((w.recordSlot i ev).inst j).waiters = (w.inst j).waiters := by
  refine ⟨rfl, fun j => ?_⟩
  show (if j = i then { w.inst i with meter := (w.inst i).meter.record ev }
    else w.inst j).waiters = _
  split
  next here =>
    subst here
    rfl
  · rfl

end Effects

theorem World.enter_spares {call : Call} (enters : w.enter call = some w') : w.Spares w' := by
  unfold World.enter at enters
  split at enters
  · split at enters
    · nomatch enters
    · cases enters
      exact .of_same rfl rfl rfl
  · split at enters
    · nomatch enters
    · cases enters
      exact .aside rfl
  · cases enters
    exact .refl w

theorem World.leave_spares (w : World B) (call : Call) (reply : Reply) :
    w.Spares (w.leave call reply) := by
  unfold World.leave
  split
  · exact .aside rfl
  · exact (Spares.refl w).note fun _ => ⟨rfl, rfl⟩
  · exact .refl w
  · exact .refl w

/-! ## What every reachable world keeps -/

/-- The ledger is well formed, and a parked acquire has a Pending record. -/
structure World.Based (w : World B) : Prop where
  ledger : w.ledger.WellFormed
  waiters : ∀ (i : Nat) (id : String) (queued : QueuedAcquire),
    (w.inst i).waiters[id]? = some queued → queued.pending.state = .pending

namespace World.Based

variable {w w' : World B} {prov : BoxProvisioner B} {env : Outside}

theorem empty (boxes : B) (tickSlots : Nat) : (World.empty boxes tickSlots).Based :=
  ⟨InMemoryInner.empty_wellFormed, fun _ _ _ found => by
    simp [World.empty, Instance.new] at found⟩

theorem spared (based : w.Based) (spares : w.Spares w') : w'.Based :=
  ⟨spares.ledger ▸ based.ledger, fun j id queued found =>
    (spares.waiters j id queued found).elim (based.waiters j id queued) fun pending => pending⟩

theorem tick_candidates (self : Instance) (underCap : Nat → TenantId → Bool) (nowMs : Nat) :
    (self.scheduler.tickEnd (self.seams underCap) nowMs (0, [])).env.2 =
      (self.scheduler.tickEnd (self.seams underCap) nowMs (0, [])).turns.map
        fun turn => self.snapshot turn.item := by
  unfold FairScheduler.tickEnd
  apply FairScheduler.passes_keeps (fun st : TickState (Nat × List Candidate) =>
    st.env.2 = st.turns.map fun turn => self.snapshot turn.item)
  case flag => exact fun _ h => h
  case h => rfl
  intro st tenant h
  unfold FairScheduler.turn
  split
  · exact h
  split
  · exact h
  dsimp only [Instance.seams]
  split
  next env checked =>
    obtain ⟨_, rfl⟩ := Prod.mk.inj checked
    simpa [TickState.turns, List.filterMap_cons, TickStep.turn?] using h
  next env checked =>
    obtain ⟨_, rfl⟩ := Prod.mk.inj checked
    split
    · exact h
    · simpa [TickState.turns, List.filterMap_cons, TickStep.turn?] using h

theorem selected_fits (based : w.Based) (i : Nat) (nowMs : Nat) :
    ∀ candidate ∈ (w.queueOp env i (.select nowMs)).1, candidate.Fits := by
  intro candidate selected
  have known : candidate ∈ ((w.inst i).scheduler.tickEnd ((w.inst i).seams env.underCap) nowMs
    (0, [])).env.2 := selected
  rw [tick_candidates] at known
  obtain ⟨turn, _, rfl⟩ := List.mem_map.mp known
  intro reservation waiting
  obtain ⟨queued, found, rfl⟩ := Option.map_eq_some_iff.mp waiting
  exact based.waiters i turn.item.id queued found

/-- **The answers of the effects are possible ones.** -/
theorem possible [SerdeJson] (based : w.Based) (op : Op) :
    op.Possible (w.perform prov env op).1 := by
  cases op with
  | row op =>
    cases op with
    | get id =>
      cases down : env.ledgerError with
      | some e =>
        simp only [World.perform, rowOp, onLedger, down]
        trivial
      | none =>
        simp only [World.perform, rowOp, onLedger, down]
        cases found : w.ledger.get id with
        | none => trivial
        | some row => exact based.ledger.keyed id row found
    | _ => trivial
  | queue i op =>
    cases op with
    | takeWaiter id =>
      cases found : (w.inst i).waiters[id]? with
      | none =>
        have none_there : (w.perform prov env (.queue i (.takeWaiter id))).1 = none := found
        rw [none_there]
        trivial
      | some queued =>
        have there : (w.perform prov env (.queue i (.takeWaiter id))).1 = some queued := found
        rw [there]
        exact based.waiters i id queued found
    | select nowMs => exact based.selected_fits i nowMs
    | _ => trivial
  | _ => trivial

theorem onLedger_wellFormed {A : Type} {call : InMemoryInner → Result A × InMemoryInner}
    (wf : w.ledger.WellFormed) (kept : (call w.ledger).2.WellFormed) :
    (w.onLedger env call).2.ledger.WellFormed := by
  unfold onLedger
  split
  · exact wf
  · exact kept

theorem rowOp_wellFormed [SerdeJson] (wf : w.ledger.WellFormed) (op : RowOp) :
    (w.rowOp env op).2.ledger.WellFormed := by
  have runs (call : LedgerOp) : (w.ledger.exec call).2.WellFormed :=
    (InMemoryInner.exec_steps wf call).wellFormed wf
  cases op with
  | get | held | byTenant | getEnvelopeCheckpoint => exact onLedger_wellFormed wf wf
  | tryAdmitWithCompute rec cap gate =>
    exact onLedger_wellFormed wf (runs (.tryAdmitWithCompute rec cap gate))
  | transition id target nowMs =>
    have noted (r : Result LeaseRecord × World B) :
        (noteTransition id target r).2.ledger = r.2.ledger := by
      rcases r with ⟨_ | _, _⟩ <;> rfl
    dsimp only [rowOp]
    rw [noted]
    exact onLedger_wellFormed wf (runs (.transition id target (nowMs.getD env.nowMs)))
  | claimPendingCleanup id => exact onLedger_wellFormed wf (runs (.claimPendingCleanup id 0))
  | claimStalePendingCleanup nowMs maxAgeMs =>
    exact onLedger_wellFormed wf (runs (.claimStalePendingCleanup nowMs maxAgeMs))
  | finishPendingCleanup id => exact onLedger_wellFormed wf (runs (.finishPendingCleanup id))
  | bindProviderRef id providerRef =>
    exact onLedger_wellFormed wf (runs (.bindProviderRef id providerRef))
  | setEnvelopeCheckpoint id json =>
    exact onLedger_wellFormed wf (runs (.setEnvelopeCheckpoint id json))

/-- **Every effect keeps what every reachable world keeps.** -/
theorem perform [SerdeJson] (based : w.Based) {g : Stage} {op : Op} (permits : g.Permits op) :
    (w.perform prov env op).2.Based := by
  cases op with
  | row op =>
    refine ⟨rowOp_wellFormed based.ledger op, fun j id queued found => ?_⟩
    have does : RowDoes w op (w.rowOp env op).1 (w.rowOp env op).2 :=
      rowOp_does based.ledger permits
    have same := does.inst
    exact based.waiters j id queued (congrFun same j ▸ found)
  | box i op => exact based.spared (w.boxOp_does prov env i op).spares
  | cred i op => exact based.spared (w.credOp_spares env i op)
  | side i op => exact based.spared (w.sideOp_spares prov i op)
  | hook i op => exact based.spared (w.hookOp_spares env i op)
  | gate i op => exact based.spared (w.gateOp_spares env i op)
  | queue i op => exact based.spared (w.queueOp_spares env i permits)
  | outer => exact based
  | meter i op =>
    cases op with
    | count => exact based.spared ((Spares.refl w).note fun _ => ⟨rfl, rfl⟩)
    | recordSlot id tenant kind stamp =>
      obtain ⟨ledger, waiters⟩ := w.recordSlot_same i ⟨tenant, id, kind, env.nowMs, stamp⟩
      refine ⟨?_, fun j other queued found => ?_⟩
      · exact ledger ▸ based.ledger
      · exact based.waiters j other queued (waiters j ▸ found)

end World.Based

/-! ## Invariants of all runs -/

structure Keeps [SerdeJson] (prov : BoxProvisioner B)
    (terms : Terms Op Op.Ans Outside Call Reply (World B))
    (Inv : World B → Stages Call Stage → Prop) : Prop where
  enter : ∀ {w w' gs i call}, Inv w gs → gs i = none → terms.starts call →
    w.enter call = some w' → Inv w' (gs.set i (some (call, {})))
  perform : ∀ {t : Running B} {gs i call g op env}, t.shared.Based → Inv t.shared gs →
    t.Agrees rule gs → gs i = some (call, g) → g.Allows call op → terms.performs t call op env →
    Inv (t.shared.perform prov env op).2
      (gs.set i (some (call, g.after op (t.shared.perform prov env op).1)))
  finish : ∀ {w gs i call reply g}, Inv w gs → gs i = some (call, g) → g.due = none →
    Inv (w.leave call reply) (gs.set i none)
  drop : ∀ {w gs i call g op}, Inv w gs → gs i = some (call, g) → g.Allows call op →
    terms.drops call → call.isRequest = true → op.awaits = true →
    Inv w (gs.set i none) ∧ Inv w (gs.set i (some (call, g)))

def anyTerms : Terms Op Op.Ans Outside Call Reply (World B) where
  starts _ := True
  drops _ := True
  performs _ _ _ _ := True

abbrev Running.run [SerdeJson] (cfg : ServerConfig) (prov : BoxProvisioner B)
    (events : List (TaskEvent Call Outside)) (w : World B) : Running B :=
  events.foldl (Tasks.step (server cfg prov)) (Tasks.initial w)

abbrev Running.Within [SerdeJson] (cfg : ServerConfig) (prov : BoxProvisioner B)
    (terms : Terms Op Op.Ans Outside Call Reply (World B)) (events : List (TaskEvent Call Outside))
    (w : World B) : Prop :=
  Along (Tasks.step (server cfg prov)) (Tasks.Meets terms) (Tasks.initial w) events

section Runs

variable [SerdeJson] {cfg : ServerConfig} {prov : BoxProvisioner B}
  {terms : Terms Op Op.Ans Outside Call Reply (World B)}
  {Inv : World B → Stages Call Stage → Prop} {events : List (TaskEvent Call Outside)} {w : World B}

theorem Keeps.sound (cfg : ServerConfig) (keeps : Keeps prov terms Inv) :
    rule.Sound (server cfg prov) terms fun w gs => w.Based ∧ Inv w gs where
  enter inv idle starts enters :=
    ⟨inv.1.spared (enter_spares enters), keeps.enter inv.2 idle starts enters⟩
  perform inv agrees at_i allows performs :=
    ⟨inv.1.possible _, inv.1.perform allows.permits,
      keeps.perform inv.1 inv.2 agrees at_i allows performs⟩
  finish inv at_i ends := ⟨inv.1.spared (leave_spares _ _ _), keeps.finish inv.2 at_i ends⟩
  drop inv at_i allows drops request awaits :=
    ⟨⟨inv.1, (keeps.drop inv.2 at_i allows drops request awaits).1⟩,
      ⟨inv.1, (keeps.drop inv.2 at_i allows drops request awaits).2⟩⟩

/-- **What every event within the terms keeps holds along every run.** -/
theorem Keeps.run (keeps : Keeps prov terms Inv) (within : Running.Within cfg prov terms events w)
    (based : w.Based) (inv : Inv w fun _ => none) :
    ∃ gs, (Running.run cfg prov events w).shared.Based ∧
      Inv (Running.run cfg prov events w).shared gs ∧
      (Running.run cfg prov events w).Agrees rule gs := by
  obtain ⟨gs, ⟨based', inv'⟩, agrees⟩ := Tasks.Staged.run (keeps.sound cfg)
    (rule_covers cfg prov terms) within (Tasks.Staged.initial ⟨based, inv⟩)
  exact ⟨gs, based', inv', agrees⟩

end Runs

/-! ## Leases nobody works on -/

/-- No operation for the lease is in progress: no call names it, and no task is about to do
something about it. -/
def Running.Rests (t : Running B) (id : String) : Prop :=
  ∀ j task, t.tasks j = some task →
    task.call.lease? ≠ some id ∧ ∀ op ∈ task.asks, op.about ≠ some id

section Rests

variable {t : Running B} {gs : Stages Call Stage} {id : String} {j : Nat} {call : Call} {g : Stage}

theorem Agrees.task (agrees : t.Agrees rule gs) (at_j : gs j = some (call, g)) :
    ∃ prog, t.tasks j = some ⟨call, prog⟩ ∧ Obeys rule call (rule.ends call) prog g := by
  cases there : t.tasks j with
  | none =>
    rw [agrees.idle j there] at at_j
    nomatch at_j
  | some task =>
    obtain ⟨g', at_j', follows⟩ := agrees.each j task there
    rw [at_j] at at_j'
    cases at_j'
    exact ⟨task.prog, rfl, follows⟩

theorem Running.Rests.due (rests : t.Rests id) (agrees : t.Agrees rule gs)
    (at_j : gs j = some (call, g)) (kind : SlotEventKind) : g.due ≠ some (id, kind) := by
  intro owed
  obtain ⟨prog, there, follows⟩ := Agrees.task agrees at_j
  cases prog with
  | pure reply => nomatch (follows : g.due = none).symm.trans owed
  | vis op k => exact (rests j _ there).2 op rfl (follows.1.busy _ owed)

end Rests

end Server

end CorelinkRunners
