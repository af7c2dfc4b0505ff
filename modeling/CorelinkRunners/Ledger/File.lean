import CorelinkRunners.Kit.Prog
import CorelinkRunners.Ledger.Journal

/-!
# The file ledger

`FileInner` is an in-memory index in front of an append-only journal. Its operations are programs
whose only effect is appending a line (`Kit.Appending`): an append is answered with success or with
an error, and what the program does with an error is in its text. The answer of a program is the
call's result together with the index it leaves.

Each is a chain of steps, every one of them appended before it is published, except that an accepted
transition publishes first (`exec_files`). Without failed appends a run is the in-memory ledger's
(`settle_exec`).
-/

namespace CorelinkRunners

open Kit InMemoryInner

/-- A call on the file ledger: its appends, then its result and the index it leaves. -/
abbrev FileOp (α : Type) : Type := Appending JournalLine String (Result α × InMemoryInner)

/-- Append a line and go on; a failed append ends the call with the index as it stands. -/
def appendLine {α : Type} (index : InMemoryInner) (line : JournalLine) (next : FileOp α) :
    FileOp α :=
  .vis line fun
    | .ok () => next
    | .error e => .pure (.error e, index)

def FileOp.map {α β : Type} (f : α → β) (op : FileOp α) : FileOp β :=
  op.bind fun answer => .pure (answer.1.map f, answer.2)

namespace FileInner

/-! ## Operations -/

def put (index : InMemoryInner) (rec : LeaseRecord) : FileOp Unit :=
  if index.records.contains rec.leaseId then
    .pure (.error (InMemoryInner.existsError rec.leaseId), index)
  else
    appendLine index (.record rec)
      (.pure (.ok (), { index with records := index.records.insert rec.leaseId rec }))

/-- The index is moved first and journaled second, so a failed append leaves it moved. -/
def transition (index : InMemoryInner) (leaseId : String) (target : RunnerState) (nowMs : Nat) :
    FileOp LeaseRecord :=
  if index.pendingCleanupClaims.contains leaseId then
    .pure (.error (InMemoryInner.fencedError leaseId), index)
  else match index.transitionCapturing leaseId target nowMs with
    | (.error e, index) => .pure (.error e, index)
    | (.ok (updated, some event), index) =>
      let reservation := index.reservations[event.leaseId]?
      appendLine index
        (.terminalTransition updated
          (some (event.tenant, event.periodKey, event.newAccrualTotal)) reservation)
        (.pure (.ok updated, index))
    | (.ok (updated, none), index) => appendLine index (.record updated)
        (.pure (.ok updated, index))

def tryAdmit (index : InMemoryInner) (rec : LeaseRecord) (maxConcurrency : Nat) : FileOp Bool :=
  if Word.asU32 (index.active rec.tenant).length < maxConcurrency then
    (put index rec).map fun _ => true
  else .pure (.ok false, index)

def tryAdmitWithCompute (index : InMemoryInner) (rec : LeaseRecord) (maxConcurrency : Nat)
    (gate : Option ComputeGate) : FileOp AdmitOutcome :=
  match gate with
  | none => (tryAdmit index rec maxConcurrency).map InMemoryInner.concurrencyOnlyOutcome
  | some gate =>
    if gate.ceilingVcpuMs = 0 then
      (tryAdmit index rec maxConcurrency).map InMemoryInner.concurrencyOnlyOutcome
    else match index.admitDecision rec maxConcurrency gate with
      | (.admitted, some res) =>
        if index.records.contains rec.leaseId then
          .pure (.error (InMemoryInner.existsError rec.leaseId), index)
        else
          appendLine index (.admitCommit rec res)
            (.pure (.ok .admitted,
              { index with
                records := index.records.insert rec.leaseId rec
                reservations := index.reservations.insert rec.leaseId res }))
      | (outcome, _) => .pure (.ok outcome, index)

def setEnvelopeCheckpoint (index : InMemoryInner) (leaseId checkpointJson : String) : FileOp Unit :=
  if !index.records.contains leaseId then
    .pure (.error (InMemoryInner.absentError leaseId), index)
  else
    appendLine index (.checkpoint leaseId checkpointJson)
      (.pure (.ok (),
        { index with checkpoints := index.checkpoints.insert leaseId checkpointJson }))

def remove (index : InMemoryInner) (leaseId : String) : FileOp Bool :=
  if index.pendingCleanupClaims.contains leaseId then
    .pure (.error (InMemoryInner.fencedError leaseId), index)
  else if !index.records.contains leaseId then .pure (.ok false, index)
  else if index.heldWithReservation leaseId then
    .pure (.error (InMemoryInner.heldReservationError leaseId), index)
  else appendLine index (.tombstone leaseId) (.pure (.ok true, index.forget leaseId))

def removeIfPending (index : InMemoryInner) (leaseId : String) : FileOp Bool :=
  if index.pendingCleanupClaims.contains leaseId then .pure (.ok false, index)
  else match index.get leaseId with
    | some rec => if rec.state.isPending then remove index leaseId else .pure (.ok false, index)
    | none => .pure (.ok false, index)

def bindProviderRef [SerdeJson] (index : InMemoryInner) (leaseId providerRef : String) :
    FileOp LeaseRecord :=
  match validateProviderRef providerRef with
  | .error e => .pure (.error e, index)
  | .ok () =>
    if index.pendingCleanupClaims.contains leaseId then
      .pure (.error (InMemoryInner.cleanupClaimedError leaseId), index)
    else match index.records[leaseId]? with
      | none => .pure (.error ("unknown lease " ++ leaseId), index)
      | some current =>
        match bind current providerRef with
        | .error e => .pure (.error e, index)
        | .ok updated =>
          if updated.boxRef = current.boxRef then .pure (.ok updated, index)
          else
            appendLine index (.record updated)
              (.pure (.ok updated, { index with records := index.records.insert leaseId updated }))

def claimPendingCleanup (index : InMemoryInner) (leaseId : String) : FileOp (Option LeaseRecord) :=
  match index.records[leaseId]? with
  | none => .pure (.ok none, index)
  | some record =>
    if !record.state.isPending then .pure (.ok none, index)
    else if !index.pendingCleanupClaims.contains leaseId then
      appendLine index (.pendingCleanupClaim leaseId)
        (.pure (.ok (some record), index.claim leaseId))
    else .pure (.ok (some record), index)

/-- Claim the rows one by one: a row outside the prior claims is journaled before it is fenced. -/
def claimRows (prior : OrdSet String) (rows : List LeaseRecord) :
    List LeaseRecord → InMemoryInner → FileOp (List LeaseRecord)
  | [], index => .pure (.ok rows, index)
  | row :: rest, index =>
    let next := claimRows prior rows rest (index.claim row.leaseId)
    if !prior.contains row.leaseId then
      appendLine index (.pendingCleanupClaim row.leaseId) next
    else next

def claimStalePendingCleanup (index : InMemoryInner) (nowMs maxAgeMs : Nat) :
    FileOp (List LeaseRecord) :=
  let rows := index.candidates nowMs maxAgeMs
  claimRows index.pendingCleanupClaims rows rows index

def finishPendingCleanup (index : InMemoryInner) (leaseId : String) : FileOp Bool :=
  if !index.claimedPending leaseId then .pure (.ok false, index)
  else appendLine index (.tombstone leaseId) (.pure (.ok true, index.finish leaseId))

def exec [SerdeJson] (index : InMemoryInner) : LedgerOp → FileOp Reply
  | .put rec => (put index rec).map fun _ => .unit
  | .tryAdmit rec cap => (tryAdmit index rec cap).map .flag
  | .tryAdmitWithCompute rec cap gate => (tryAdmitWithCompute index rec cap gate).map .outcome
  | .transition id target nowMs => (transition index id target nowMs).map .record
  | .bindProviderRef id providerRef => (bindProviderRef index id providerRef).map .record
  | .setEnvelopeCheckpoint id json => (setEnvelopeCheckpoint index id json).map fun _ => .unit
  | .remove id => (remove index id).map .flag
  | .removeIfPending id => (removeIfPending index id).map .flag
  | .claimPendingCleanup id _ => (claimPendingCleanup index id).map .candidate
  | .claimStalePendingCleanup nowMs maxAgeMs =>
    (claimStalePendingCleanup index nowMs maxAgeMs).map .records
  | .finishPendingCleanup id => (finishPendingCleanup index id).map .flag

end FileInner

/-! ## The shape of every call -/

def LedgerOp.Allows : LedgerOp → Move → Prop
  | .put rec, m => m = .insert rec
  | .tryAdmit rec _, m => m = .insert rec
  | .tryAdmitWithCompute rec _ gate, m => m = .insert rec ∨ ∃ g, gate = some g ∧ m = .reserve rec g
  | .transition id target nowMs, m => m = .transition id target nowMs
  | .bindProviderRef id providerRef, m => m = .rebind id providerRef
  | .setEnvelopeCheckpoint id json, m => m = .checkpoint id json
  | .remove id, m => m = .remove id
  | .removeIfPending id, m => m = .remove id
  | .claimPendingCleanup id _, m => m = .claim id
  | .claimStalePendingCleanup _ _, m => ∃ id, m = .claim id
  | .finishPendingCleanup id, m => m = .finish id

/-- A transition the index accepts: the lease is known and unfenced, and the pair is legal. -/
def LedgerOp.MovesEarly (s : InMemoryInner) : LedgerOp → Prop
  | .transition id target _ => id ∉ s.pendingCleanupClaims ∧
      ∃ rec, s.records[id]? = some rec ∧ transitionIsLegal rec.state target = true
  | _ => False

def LedgerOp.Sweeps : LedgerOp → Bool
  | .claimStalePendingCleanup _ _ => true
  | _ => false

/-- A call from the index `s` is a chain of steps, each appended and then published. -/
inductive Files (allows : Move → Prop) {α : Type} : InMemoryInner → FileOp α → Prop
  | done {s : InMemoryInner} (r : Result α) : Files allows s (.pure (r, s))
  | publish {s s' : InMemoryInner} {m : Move} {l : JournalLine} {next : FileOp α}
      (allowed : allows m) (step : Step s m l s') (rest : Files allows s' next) :
      Files allows s (appendLine s l next)

/-- A call from the index `s` is at most one step, appended and then published. -/
inductive Once (allows : Move → Prop) {α : Type} : InMemoryInner → FileOp α → Prop
  | done {s : InMemoryInner} (r : Result α) : Once allows s (.pure (r, s))
  | single {s s' : InMemoryInner} {m : Move} {l : JournalLine} (allowed : allows m)
      (step : Step s m l s') (r : Result α) : Once allows s (appendLine s l (.pure (r, s')))

/-- A call from the index `s` is one step, published and then appended. -/
inductive Eager (allows : Move → Prop) {α : Type} : InMemoryInner → FileOp α → Prop
  | intro {s s' : InMemoryInner} {m : Move} {l : JournalLine} (allowed : allows m)
      (step : Step s m l s') (a : α) : Eager allows s (appendLine s' l (.pure (.ok a, s')))

section Shape

variable {α β : Type} {allows : Move → Prop} {s : InMemoryInner}

theorem FileOp.map_appendLine (f : α → β) (l : JournalLine) (next : FileOp α) :
    (appendLine s l next).map f = appendLine s l (next.map f) := by
  simp only [FileOp.map, appendLine, Prog.bind]
  congr 1
  funext answer
  cases answer <;> rfl

variable {op : FileOp α}

theorem Files.map (f : α → β) (h : Files allows s op) : Files allows s (op.map f) := by
  induction h with
  | done r => exact .done _
  | publish allowed step rest ih =>
    rw [FileOp.map_appendLine]
    exact .publish allowed step ih

theorem Eager.map (f : α → β) (h : Eager allows s op) : Eager allows s (op.map f) := by
  obtain ⟨allowed, step, a⟩ := h
  rw [FileOp.map_appendLine]
  exact .intro allowed step _

theorem Once.map (f : α → β) (h : Once allows s op) : Once allows s (op.map f) := by
  cases h with
  | done r => exact .done _
  | single allowed step r =>
    rw [FileOp.map_appendLine]
    exact .single allowed step _

theorem Once.mono {allows' : Move → Prop} (h : Once allows s op) (le : ∀ m, allows m → allows' m) :
    Once allows' s op := by
  cases h with
  | done r => exact .done r
  | single allowed step r => exact .single (le _ allowed) step r

theorem Once.files (h : Once allows s op) : Files allows s op := by
  cases h with
  | done r => exact .done r
  | single allowed step r => exact .publish allowed step (.done r)

end Shape

namespace FileInner

variable {s : InMemoryInner} (rec : LeaseRecord)

theorem put_once : Once (· = .insert rec) s (put s rec) := by
  simp only [put]
  split
  · exact .done _
  next h =>
    rw [Bool.not_eq_true, OrdMap.contains_eq_false_iff_get] at h
    exact .single (by rfl) (.insert h) _

variable (cap : Nat)

theorem tryAdmit_once : Once (· = .insert rec) s (tryAdmit s rec cap) := by
  simp only [tryAdmit]
  split
  · exact (put_once rec).map _
  · exact .done _

theorem tryAdmitWithCompute_once (gate : Option ComputeGate) :
    Once (fun m => m = .insert rec ∨ ∃ g, gate = some g ∧ m = .reserve rec g) s
      (tryAdmitWithCompute s rec cap gate) := by
  have ungated : Once (fun m => m = .insert rec ∨ ∃ g, gate = some g ∧ m = .reserve rec g) s
      ((tryAdmit s rec cap).map concurrencyOnlyOutcome) :=
    ((tryAdmit_once rec cap).map _).mono fun m hm => .inl hm
  cases gate with
  | none => exact ungated
  | some gate =>
    simp only [tryAdmitWithCompute]
    split
    · exact ungated
    next hc =>
      split
      next res decided =>
        obtain rfl : res = gate.reservation := by
          simp only [InMemoryInner.admitDecision] at decided
          grind
        split
        · exact .done _
        next h =>
          rw [Bool.not_eq_true, OrdMap.contains_eq_false_iff_get] at h
          exact .single (.inr ⟨gate, rfl, rfl⟩) (.reserve h hc (by rw [decided])) _
      · exact .done _

variable (leaseId : String)

theorem transition_once (target : RunnerState) (nowMs : Nat) :
    ¬ (LedgerOp.transition leaseId target nowMs).MovesEarly s ∧
        Once (· = .transition leaseId target nowMs) s (transition s leaseId target nowMs) ∨
      (LedgerOp.transition leaseId target nowMs).MovesEarly s ∧
        Eager (· = .transition leaseId target nowMs) s (transition s leaseId target nowMs) := by
  simp only [transition]
  split
  next claimed =>
    rw [Std.ExtTreeSet.contains_iff_mem] at claimed
    exact .inl ⟨fun early => early.1 claimed, .done _⟩
  next unclaimed =>
    rw [Std.ExtTreeSet.contains_iff_mem] at unclaimed
    rcases s.transitionCapturing_cases leaseId target nowMs with ⟨refused, e, h⟩ |
      ⟨rec, found, legal, h⟩ | ⟨rec, res, found, legal, terminal, reserved, unlatched, h⟩
    · rw [h]
      exact .inl ⟨fun early => refused early.2, .done _⟩
    · rw [h]
      refine .inr ⟨⟨unclaimed, rec, found, legal⟩, ?_⟩
      exact .intro (by rfl) (.transition unclaimed found legal) _
    · rw [h]
      refine .inr ⟨⟨unclaimed, rec, found, legal⟩, ?_⟩
      simp only [OrdMap.get_insert_self]
      exact .intro (by rfl) (.accrue unclaimed found legal terminal reserved unlatched) _

theorem setEnvelopeCheckpoint_once (json : String) :
    Once (· = .checkpoint leaseId json) s (setEnvelopeCheckpoint s leaseId json) := by
  simp only [setEnvelopeCheckpoint]
  split
  · exact .done _
  next h =>
    rw [Bool.not_eq_true, Bool.not_eq_false', OrdMap.contains_iff_get] at h
    obtain ⟨rec, found⟩ := h
    exact .single (by rfl) (.checkpoint found) _

theorem remove_once : Once (· = .remove leaseId) s (remove s leaseId) := by
  simp only [remove]
  split
  · exact .done _
  next unclaimed =>
    rw [Std.ExtTreeSet.contains_iff_mem] at unclaimed
    split
    · exact .done _
    next h =>
      rw [Bool.not_eq_true, Bool.not_eq_false', OrdMap.contains_iff_get] at h
      obtain ⟨rec, found⟩ := h
      split
      · exact .done _
      next free => exact .single (by rfl) (.remove found unclaimed (Bool.not_eq_true _ ▸ free)) _

theorem removeIfPending_once : Once (· = .remove leaseId) s (removeIfPending s leaseId) := by
  simp only [removeIfPending]
  split
  · exact .done _
  · split
    · split
      · exact remove_once leaseId
      · exact .done _
    · exact .done _

theorem bindProviderRef_once [SerdeJson] (providerRef : String) :
    Once (· = .rebind leaseId providerRef) s (bindProviderRef s leaseId providerRef) := by
  simp only [bindProviderRef]
  split
  · exact .done _
  split
  · exact .done _
  next unclaimed =>
    rw [Std.ExtTreeSet.contains_iff_mem] at unclaimed
    split
    · exact .done _
    next current found =>
      split
      · exact .done _
      next updated bound =>
        obtain ⟨pending, rfl⟩ := bind_ok bound
        split
        · exact .done _
        · exact .single (by rfl) (.rebind found pending unclaimed) _

theorem claimPendingCleanup_once : Once (· = .claim leaseId) s (claimPendingCleanup s leaseId) := by
  simp only [claimPendingCleanup]
  split
  · exact .done _
  next record found =>
    split
    · exact .done _
    next pending =>
      simp only [Bool.not_eq_true, Bool.not_eq_false', LeaseState.isPending_iff] at pending
      split
      · exact .single (by rfl) (.claim (isPendingAt_iff.mpr ⟨record, found, pending⟩)) _
      · exact .done _

/-- The loop claims rows that are Pending when it starts; a claim moves no record, so they still
are when their turn comes. -/
theorem claimRows_files {prior : OrdSet String} {rows rest : List LeaseRecord}
    (pending : ∀ row ∈ rest, s.isPendingAt row.leaseId = true)
    (claimed : ∀ id ∈ prior, id ∈ s.pendingCleanupClaims) :
    Files (fun m => ∃ id, m = .claim id) s (claimRows prior rows rest s) := by
  induction rest generalizing s with
  | nil => exact .done _
  | cons row rest ih =>
    have hnext : Files (fun m => ∃ id, m = .claim id) (s.claim row.leaseId)
        (claimRows prior rows rest (s.claim row.leaseId)) := by
      refine ih (fun r hr => pending r (List.mem_cons_of_mem _ hr)) fun id hid => ?_
      exact (OrdSet.mem_insert_iff _ _ _).mpr (.inr (claimed id hid))
    simp only [claimRows]
    split
    · exact .publish ⟨_, rfl⟩ (.claim (pending row List.mem_cons_self)) hnext
    next h =>
      rw [Bool.not_eq_true, Bool.not_eq_false', Std.ExtTreeSet.contains_iff_mem] at h
      have same : s.claim row.leaseId = s := by
        simp only [claim, OrdSet.insert_of_mem (claimed _ h)]
      rwa [same] at hnext ⊢

theorem finishPendingCleanup_once :
    Once (· = .finish leaseId) s (finishPendingCleanup s leaseId) := by
  simp only [finishPendingCleanup]
  split
  · exact .done _
  next h =>
    rw [Bool.not_eq_true, Bool.not_eq_false'] at h
    exact .single (by rfl) (.finish h) _

/-- Every call but a sweep makes at most one step, appended before it is published, except that an
accepted transition publishes first. -/
theorem exec_once [SerdeJson] (s : InMemoryInner) (op : LedgerOp) (single : op.Sweeps = false) :
    ¬ op.MovesEarly s ∧ Once op.Allows s (exec s op) ∨
      op.MovesEarly s ∧ Eager op.Allows s (exec s op) := by
  cases op with
  | put rec => exact .inl ⟨id, (put_once rec).map _⟩
  | tryAdmit rec cap => exact .inl ⟨id, (tryAdmit_once rec cap).map _⟩
  | tryAdmitWithCompute rec cap gate =>
    exact .inl ⟨id, (tryAdmitWithCompute_once rec cap gate).map _⟩
  | transition leaseId target nowMs =>
    rcases transition_once leaseId target nowMs with ⟨late, h⟩ | ⟨early, h⟩
    · exact .inl ⟨late, h.map _⟩
    · exact .inr ⟨early, h.map _⟩
  | bindProviderRef leaseId providerRef =>
    exact .inl ⟨id, (bindProviderRef_once leaseId providerRef).map _⟩
  | setEnvelopeCheckpoint leaseId json =>
    exact .inl ⟨id, (setEnvelopeCheckpoint_once leaseId json).map _⟩
  | remove leaseId => exact .inl ⟨id, (remove_once leaseId).map _⟩
  | removeIfPending leaseId => exact .inl ⟨id, (removeIfPending_once leaseId).map _⟩
  | claimPendingCleanup leaseId nowMs => exact .inl ⟨id, (claimPendingCleanup_once leaseId).map _⟩
  | claimStalePendingCleanup nowMs maxAgeMs => nomatch single
  | finishPendingCleanup leaseId => exact .inl ⟨id, (finishPendingCleanup_once leaseId).map _⟩

/-- **Every call is a chain of steps**, appended before they are published, except that an accepted
transition publishes first. -/
theorem exec_files [SerdeJson] (wf : s.WellFormed) (op : LedgerOp) :
    ¬ op.MovesEarly s ∧ Files op.Allows s (exec s op) ∨
      op.MovesEarly s ∧ Eager op.Allows s (exec s op) := by
  cases hsweep : op.Sweeps with
  | false =>
    rcases exec_once s op hsweep with ⟨late, h⟩ | h
    · exact .inl ⟨late, h.files⟩
    · exact .inr h
  | true =>
    cases op with
    | claimStalePendingCleanup nowMs maxAgeMs =>
      exact .inl ⟨id, (claimRows_files (fun _ hrow => wf.candidates_pending hrow)
        fun _ hid => hid).map _⟩
    | _ => nomatch hsweep

end FileInner

/-! ## Runs without failed appends -/

theorem FileOp.settle_map {α β : Type} (f : α → β) (op : FileOp α) :
    (op.map f).settle = ((op.settle.1.1.map f, op.settle.1.2), op.settle.2) := by
  induction op with
  | pure answer => rfl
  | vis line k ih =>
    have hk := ih (.ok ())
    simp only [FileOp.map] at hk
    simp only [FileOp.map, Prog.bind, Appending.settle, hk]

namespace FileInner

variable {s : InMemoryInner}

variable (rec : LeaseRecord)

theorem settle_put : (put s rec).settle.1 = s.put rec := by
  simp only [put, InMemoryInner.put]
  split <;> rfl

variable (cap : Nat)

theorem settle_tryAdmit : (tryAdmit s rec cap).settle.1 = s.tryAdmit rec cap := by
  simp only [tryAdmit, InMemoryInner.tryAdmit]
  split
  · rw [FileOp.settle_map, settle_put]
    rcases s.put rec with ⟨_ | _, _⟩ <;> rfl
  · rfl

theorem settle_concurrencyOnlyAdmit :
    ((tryAdmit s rec cap).map InMemoryInner.concurrencyOnlyOutcome).settle.1 =
      s.concurrencyOnlyAdmit rec cap := by
  rw [FileOp.settle_map, settle_tryAdmit, InMemoryInner.concurrencyOnlyAdmit]
  rcases s.tryAdmit rec cap with ⟨_ | _, _⟩ <;> rfl

theorem settle_tryAdmitWithCompute (gate : Option ComputeGate) :
    (tryAdmitWithCompute s rec cap gate).settle.1 = s.tryAdmitWithCompute rec cap gate := by
  cases gate with
  | none => exact settle_concurrencyOnlyAdmit rec cap
  | some gate =>
    simp only [tryAdmitWithCompute, InMemoryInner.tryAdmitWithCompute]
    split
    · exact settle_concurrencyOnlyAdmit rec cap
    rcases s.admitDecision rec cap gate with ⟨_ | _ | _, _ | _⟩
    case admitted.some =>
      simp only [InMemoryInner.put]
      split <;> rfl
    all_goals rfl

variable (leaseId : String)

theorem settle_transition (target : RunnerState) (nowMs : Nat) :
    (transition s leaseId target nowMs).settle.1 = s.transition leaseId target nowMs := by
  simp only [transition, InMemoryInner.transition]
  split
  · rfl
  rcases s.transitionCapturing leaseId target nowMs with ⟨_ | ⟨_, _ | _⟩, _⟩ <;> rfl

theorem settle_remove (wf : s.WellFormed) (leaseId : String) :
    (remove s leaseId).settle.1 = s.remove leaseId := by
  simp only [remove, InMemoryInner.remove]
  split
  · rfl
  next unclaimed =>
    cases found : s.records[leaseId]? with
    | none =>
      have absent : s.forget leaseId = s := by
        simp only [forget, OrdMap.erase_of_get_none found,
          OrdMap.erase_of_get_none (wf.fresh found).1,
          OrdMap.erase_of_get_none (wf.fresh found).2.1]
      have gone := (OrdMap.contains_eq_false_iff_get _ _).mpr found
      simp only [gone, absent, InMemoryInner.heldWithReservation, found]
      rfl
    | some rec =>
      have here := (OrdMap.contains_iff_get _ _).mpr ⟨rec, found⟩
      simp only [here, Bool.not_true, Bool.false_eq_true, ↓reduceIte]
      split <;> rfl

theorem settle_removeIfPending (wf : s.WellFormed) (leaseId : String) :
    (removeIfPending s leaseId).settle.1 = s.removeIfPending leaseId := by
  simp only [removeIfPending, InMemoryInner.removeIfPending]
  split
  · rfl
  cases s.get leaseId with
  | none => rfl
  | some rec =>
    dsimp only
    split
    · exact settle_remove wf leaseId
    · rfl

theorem settle_bindProviderRef [SerdeJson] (providerRef : String) :
    (bindProviderRef s leaseId providerRef).settle.1 = s.bindProviderRef leaseId providerRef := by
  simp only [bindProviderRef, InMemoryInner.bindProviderRef]
  cases validateProviderRef providerRef with
  | error e => rfl
  | ok _ =>
    dsimp only
    split
    · rfl
    cases found : s.records[leaseId]? with
    | none => rfl
    | some current =>
      cases bound : bind current providerRef with
      | error e => simp only [bound]; rfl
      | ok updated =>
        simp only [bound]
        split
        next unmoved =>
          obtain ⟨-, rfl⟩ := bind_ok bound
          -- the reference is bound already: writing the record back changes nothing
          have same : { current with boxRef := providerRef } = current := by
            cases current
            simp only [LeaseRecord.mk.injEq, true_and, and_true]
            exact unmoved
          simp only [same, OrdMap.insert_of_get found]
          rfl
        · rfl

theorem settle_claimPendingCleanup :
    (claimPendingCleanup s leaseId).settle.1 = s.claimPendingCleanup leaseId := by
  simp only [claimPendingCleanup, InMemoryInner.claimPendingCleanup]
  cases s.records[leaseId]? with
  | none => rfl
  | some record =>
    dsimp only
    split
    · rfl
    split
    · rfl
    next h =>
      rw [Bool.not_eq_true, Bool.not_eq_false', Std.ExtTreeSet.contains_iff_mem] at h
      simp only [InMemoryInner.claim, OrdSet.insert_of_mem h]
      rfl

theorem settle_claimRows (prior : OrdSet String) (rows rest : List LeaseRecord) :
    (claimRows prior rows rest s).settle.1 =
      (.ok rows, rest.foldl (fun s row => s.claim row.leaseId) s) := by
  induction rest generalizing s with
  | nil => rfl
  | cons row rest ih =>
    simp only [claimRows]
    split
    · exact ih
    · exact ih

theorem settle_finishPendingCleanup :
    (finishPendingCleanup s leaseId).settle.1 = s.finishPendingCleanup leaseId := by
  simp only [finishPendingCleanup, InMemoryInner.finishPendingCleanup]
  split
  · rfl
  next h =>
    rw [Bool.not_eq_true, Bool.not_eq_false'] at h
    obtain ⟨r, found, -⟩ :=
      InMemoryInner.isPendingAt_iff.mp (InMemoryInner.claimedPending_iff.mp h).2
    rw [(OrdMap.contains_iff_get _ _).mpr ⟨r, found⟩]
    rfl

/-- **The file ledger refines the in-memory ledger**: where every append succeeds, a call answers
the same and leaves the same index. -/
theorem settle_exec [SerdeJson] (wf : s.WellFormed) (op : LedgerOp) :
    (exec s op).settle.1 = s.exec op := by
  cases op with
  | put rec => simp only [exec, FileOp.settle_map, settle_put]; rfl
  | tryAdmit rec cap => simp only [exec, FileOp.settle_map, settle_tryAdmit]; rfl
  | tryAdmitWithCompute rec cap gate =>
    simp only [exec, FileOp.settle_map, settle_tryAdmitWithCompute]; rfl
  | transition id target nowMs => simp only [exec, FileOp.settle_map, settle_transition]; rfl
  | bindProviderRef id providerRef =>
    simp only [exec, FileOp.settle_map, settle_bindProviderRef]; rfl
  | setEnvelopeCheckpoint id json =>
    simp only [exec, InMemoryInner.exec, FileOp.settle_map, setEnvelopeCheckpoint,
      InMemoryInner.setEnvelopeCheckpoint]
    split <;> rfl
  | remove id => simp only [exec, FileOp.settle_map, settle_remove wf]; rfl
  | removeIfPending id => simp only [exec, FileOp.settle_map, settle_removeIfPending wf]; rfl
  | claimPendingCleanup id nowMs =>
    simp only [exec, FileOp.settle_map, settle_claimPendingCleanup]; rfl
  | claimStalePendingCleanup nowMs maxAgeMs =>
    simp only [exec, FileOp.settle_map, claimStalePendingCleanup, settle_claimRows]
    rfl
  | finishPendingCleanup id =>
    simp only [exec, FileOp.settle_map, settle_finishPendingCleanup]; rfl

end FileInner

end CorelinkRunners
