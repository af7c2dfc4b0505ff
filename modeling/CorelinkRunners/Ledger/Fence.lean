import CorelinkRunners.Ledger.Disk

/-!
# The cleanup-claim fence

A claim fences a Pending lease: from the step that claims it until a `finish_pending_cleanup` of it
returns true, its record stays as it is and nothing else removes it (`FenceHolds`).

`FileProcess` is the file ledger as a process in front of its journal's bytes. Its appends may fail
and leave a part of the line, a crash cuts an operation's output after any number of bytes, and the
journal is opened again any number of times. The fence holds in its runs as long as nothing is
appended behind a line that lacks its line feed, and a failed append leaves less than the line's
text. The last section is a run that does append there and loses a claim.

The file ledger needs one relation of its own. An accepted transition whose append fails moves the
live index and not the journal, so the two can part. `Shadows live disk` is what is left of their
agreement: the same ids, the same claims and checkpoints, and the same record wherever the live one
is Pending. That is enough to carry a fence over any re-open.
-/

namespace CorelinkRunners

open Kit InMemoryInner JournalCodec

/-! ## Live index and journal -/

/-- The journal's index is behind the live one by transitions at most. -/
structure Shadows (live disk : InMemoryInner) : Prop where
  liveWellFormed : live.WellFormed
  diskWellFormed : disk.WellFormed
  claims : disk.pendingCleanupClaims = live.pendingCleanupClaims
  checkpoints : disk.checkpoints = live.checkpoints
  present : ∀ k : String, (∃ r, live.records[k]? = some r) ↔ ∃ r, disk.records[k]? = some r
  pending : ∀ (k : String) (r : LeaseRecord), live.records[k]? = some r → r.state = .pending →
    disk.records[k]? = some r

variable {s : InMemoryInner}

theorem Shadows.refl (wf : s.WellFormed) : Shadows s s :=
  ⟨wf, wf, rfl, rfl, fun _ => Iff.rfl, fun _ _ h _ => h⟩

namespace Shadows

variable {live disk live' : InMemoryInner} {m : Move} {l : JournalLine}

variable (h : Shadows live disk)
include h

theorem absent {k : String} (fresh : live.records[k]? = none) : disk.records[k]? = none := by
  rw [Option.eq_none_iff_forall_ne_some]
  intro r hr
  obtain ⟨r', hr'⟩ := (h.present k).mpr ⟨r, hr⟩
  rw [fresh] at hr'
  nomatch hr'

theorem finish (id : String) : Shadows (live.finish id) (disk.finish id) := by
  refine ⟨h.liveWellFormed.finish id, h.diskWellFormed.finish id, ?_, ?_, ?_, ?_⟩
  · simp only [InMemoryInner.finish, h.claims]
  · simp only [InMemoryInner.finish, InMemoryInner.forget, h.checkpoints]
  · intro k
    simp only [InMemoryInner.finish, InMemoryInner.forget, OrdMap.get_erase]
    split
    · exact Iff.rfl
    · exact h.present k
  · intro k r hr hp
    simp only [InMemoryInner.finish, InMemoryInner.forget, OrdMap.get_erase] at hr ⊢
    split at hr
    · cases hr
    next hk =>
      rw [if_neg hk]
      exact h.pending k r hr hp

theorem isPendingAt {id : String} (hp : live.isPendingAt id = true) :
    disk.isPendingAt id = true := by
  obtain ⟨r, hr, hs⟩ := isPendingAt_iff.mp hp
  exact isPendingAt_iff.mpr ⟨r, h.pending id r hr hs, hs⟩

/-- The record a step writes, written on both sides, keeps the relation: it is not Pending only
where no claim fences it. -/
theorem insert_record (r : LeaseRecord)
    (fence : r.leaseId ∈ live.pendingCleanupClaims → r.state = .pending) :
    Shadows { live with records := live.records.insert r.leaseId r }
      { disk with records := disk.records.insert r.leaseId r } := by
  refine ⟨h.liveWellFormed.insert_record r fence, h.diskWellFormed.insert_record r ?_, h.claims,
    h.checkpoints, fun k => ?_, fun k r' hr' hp => ?_⟩
  · rwa [h.claims]
  · simp only [OrdMap.get_insert]
    split
    · exact Iff.rfl
    · exact h.present k
  · simp only [OrdMap.get_insert] at hr' ⊢
    split at hr'
    next hk => rwa [if_pos hk]
    next hk =>
      rw [if_neg hk]
      exact h.pending k r' hr' hp

theorem insert_stamped {rec : LeaseRecord} (unclaimed : rec.leaseId ∉ live.pendingCleanupClaims)
    (target : RunnerState) (nowMs : Nat) :
    Shadows { live with records := live.records.insert rec.leaseId (rec.stamped target nowMs) }
      { disk with records := disk.records.insert rec.leaseId (rec.stamped target nowMs) } := by
  have hid := rec.stamped_leaseId target nowMs
  have hrec := h.insert_record (rec.stamped target nowMs) fun hmem =>
    absurd (hid ▸ hmem) unclaimed
  rwa [hid] at hrec

theorem with_reservations {liveReservations diskReservations : OrdMap String LeaseReservation}
    {liveAccruals diskAccruals : OrdMap (TenantId × Nat) Nat}
    (hlive : { live with reservations := liveReservations, accruals := liveAccruals }.WellFormed)
    (hdisk : { disk with reservations := diskReservations, accruals := diskAccruals }.WellFormed) :
    Shadows { live with reservations := liveReservations, accruals := liveAccruals }
      { disk with reservations := diskReservations, accruals := diskAccruals } :=
  ⟨hlive, hdisk, h.claims, h.checkpoints, h.present, h.pending⟩

/-- **A journaled step keeps the relation**, replayed on the journal's side. -/
theorem step (step : Step live m l live') : Shadows live' (disk.replayLine l) := by
  have wf := h.liveWellFormed
  have wf' := step.wellFormed wf
  cases step with
  | insert fresh => exact h.insert_record _ fun hmem => absurd hmem (wf.fresh fresh).2.2
  | @reserve rec cap gate fresh gated decided =>
    have hrec := h.insert_record rec fun hmem => absurd hmem (wf.fresh fresh).2.2
    exact hrec.with_reservations wf'
      (hrec.diskWellFormed.insert_reservation _ (OrdMap.get_insert_self _ _ _))
  | @rebind id providerRef current found pending unclaimed =>
    obtain rfl := wf.keyed _ _ found
    exact h.insert_record { current with boxRef := providerRef } fun _ => pending
  | @transition id target nowMs rec unclaimed found legal =>
    obtain rfl := wf.keyed _ _ found
    simpa only [replayLine, LeaseRecord.stamped_leaseId] using h.insert_stamped unclaimed _ _
  | @accrue id target nowMs rec res unclaimed found legal terminal reserved unlatched =>
    obtain rfl := wf.keyed _ _ found
    have hrec := h.insert_stamped unclaimed target nowMs
    have hres := hrec.diskWellFormed.insert_reservation { res with accruedAtMs := some nowMs }
      (OrdMap.get_insert_self _ _ _)
    simp only [replayLine, LeaseRecord.stamped_leaseId]
    exact hrec.with_reservations wf' (hres.with_accruals _)
  | @claim id pending =>
    have hdisk := h.isPendingAt pending
    simp only [replayLine, hdisk, ↓reduceIte]
    refine ⟨wf', (Step.claim hdisk).wellFormed h.diskWellFormed, ?_, h.checkpoints, h.present,
      h.pending⟩
    simp only [claim, h.claims]
  | @checkpoint id json rec found =>
    obtain ⟨r, hr⟩ := (h.present id).mp ⟨rec, found⟩
    refine ⟨wf', (Step.checkpoint hr).wellFormed h.diskWellFormed, h.claims, ?_, h.present,
      h.pending⟩
    simp only [replayLine, h.checkpoints]
  | remove found unclaimed free =>
    rw [forget_eq_finish unclaimed]
    exact h.finish _
  | finish claimed => exact h.finish _

/-- **A step the journal lost keeps the relation** when it is a transition: the id keeps a record,
and the live one is no longer Pending. -/
theorem lost_transition {id : String} {target : RunnerState} {nowMs : Nat}
    (step : Step live (.transition id target nowMs) l live') : Shadows live' disk := by
  have wf' := step.wellFormed h.liveWellFormed
  have present : ∀ rec, live.records[id]? = some rec → ∀ k : String,
      (∃ r, (live.records.insert id (rec.stamped target nowMs))[k]? = some r) ↔
        ∃ r, disk.records[k]? = some r := by
    intro rec found k
    rw [← h.present k, OrdMap.get_insert]
    split
    next hk =>
      subst hk
      exact ⟨fun _ => ⟨rec, found⟩, fun _ => ⟨_, rfl⟩⟩
    · exact Iff.rfl
  have pending : ∀ rec : LeaseRecord, ∀ (k : String) (r : LeaseRecord),
      (live.records.insert id (rec.stamped target nowMs))[k]? = some r → r.state = .pending →
        disk.records[k]? = some r := by
    intro rec k r hr hp
    rw [OrdMap.get_insert] at hr
    split at hr
    · cases hr
      rw [LeaseRecord.stamped_state] at hp
      nomatch hp
    · exact h.pending k r hr hp
  cases step with
  | transition unclaimed found legal =>
    exact ⟨wf', h.diskWellFormed, h.claims, h.checkpoints, present _ found, pending _⟩
  | accrue unclaimed found legal terminal reserved unlatched =>
    exact ⟨wf', h.diskWellFormed, h.claims, h.checkpoints, present _ found, pending _⟩

end Shadows

theorem Steps.shadows {allows : Move → Prop} {live disk live' : InMemoryInner}
    {ls : List JournalLine} (steps : Steps allows live ls live') (h : Shadows live disk) :
    Shadows live' (disk.replay ls) := by
  induction steps generalizing disk with
  | nil => exact h
  | cons allowed step rest ih => exact ih (h.step step)

/-! ## The fence, step by step -/

/-- The id is claimed and its record is `r`. -/
structure Fenced (s : InMemoryInner) (id : String) (r : LeaseRecord) : Prop where
  claimed : id ∈ s.pendingCleanupClaims
  found : s.records[id]? = some r

namespace Fenced

variable {s s' : InMemoryInner} {id : String} {r : LeaseRecord} {k : String}

variable (h : Fenced s id r)
include h

theorem insert_other (hk : k ≠ id) (r' : LeaseRecord) : (s.records.insert k r')[id]? = some r := by
  rw [OrdMap.get_insert, if_neg hk]
  exact h.found

theorem ne_of_fresh (fresh : s.records[k]? = none) : k ≠ id := by
  rintro rfl
  rw [h.found] at fresh
  nomatch fresh

theorem ne_of_unclaimed (unclaimed : k ∉ s.pendingCleanupClaims) : k ≠ id := by
  rintro rfl
  exact unclaimed h.claimed

theorem finish_other (hk : k ≠ id) : Fenced (s.finish k) id r := by
  refine ⟨(OrdSet.mem_erase_iff _ _ _).mpr ⟨hk, h.claimed⟩, ?_⟩
  simp only [finish, forget, OrdMap.get_erase, if_neg hk]
  exact h.found

/-- **No move but its finish touches a fenced lease.** -/
theorem step {m : Move} {l : JournalLine} (other : m ≠ .finish id)
    (step : Step s m l s') : Fenced s' id r := by
  cases step with
  | insert fresh => exact ⟨h.claimed, h.insert_other (h.ne_of_fresh fresh) _⟩
  | reserve fresh gated decided => exact ⟨h.claimed, h.insert_other (h.ne_of_fresh fresh) _⟩
  | rebind found pending unclaimed =>
    exact ⟨h.claimed, h.insert_other (h.ne_of_unclaimed unclaimed) _⟩
  | transition unclaimed found legal =>
    exact ⟨h.claimed, h.insert_other (h.ne_of_unclaimed unclaimed) _⟩
  | accrue unclaimed found legal terminal reserved unlatched =>
    exact ⟨h.claimed, h.insert_other (h.ne_of_unclaimed unclaimed) _⟩
  | claim pending => exact ⟨(OrdSet.mem_insert_iff _ _ _).mpr (.inr h.claimed), h.found⟩
  | checkpoint found => exact ⟨h.claimed, h.found⟩
  | remove found unclaimed free =>
    rw [forget_eq_finish unclaimed]
    exact h.finish_other (h.ne_of_unclaimed unclaimed)
  | finish claimed => exact h.finish_other fun hk => other (by rw [hk])

theorem steps {allows : Move → Prop} {ls : List JournalLine} (other : ¬ allows (.finish id))
    (steps : Steps allows s ls s') : Fenced s' id r := by
  induction steps with
  | nil => exact h
  | cons allowed step rest ih => exact ih (h.step (fun hm => other (hm ▸ allowed)) step)

theorem shadow {disk : InMemoryInner} (sh : Shadows s disk) : Fenced disk id r := by
  obtain ⟨r', hr', hp⟩ := isPendingAt_iff.mp (sh.liveWellFormed.claimed id h.claimed)
  obtain rfl : r' = r := Option.some.inj (hr'.symm.trans h.found)
  exact ⟨sh.claims ▸ h.claimed, sh.pending id r' hr' hp⟩

end Fenced

/-! ## The fence over whole runs -/

structure Gone (s : InMemoryInner) (id : String) : Prop where
  record : s.records[id]? = none
  claim : id ∉ s.pendingCleanupClaims
  checkpoint : s.checkpoints[id]? = none
  reservation : s.reservations[id]? = none

variable {id : String}

theorem InMemoryInner.WellFormed.gone (wf : s.WellFormed) (h : s.records[id]? = none) : Gone s id :=
  ⟨h, (wf.fresh h).2.2, (wf.fresh h).2.1, (wf.fresh h).1⟩

theorem InMemoryInner.WellFormed.pending (wf : s.WellFormed) (h : id ∈ s.pendingCleanupClaims) :
    ∃ r, s.records[id]? = some r ∧ r.leaseId = id ∧ r.state = .pending := by
  obtain ⟨r, hr, hp⟩ := isPendingAt_iff.mp (wf.claimed id h)
  exact ⟨r, hr, wf.keyed id r hr, hp⟩

/-- A machine with a ledger in it. -/
structure LedgerMachine (σ ε : Type) where
  initial : σ
  step : σ → ε → σ
  /-- The index that answers calls, while there is one. -/
  live : σ → Option InMemoryInner
  /-- The indexes there are to see: the live one, and the one that the journal opens to. -/
  shown : σ → List InMemoryInner
  /-- The call that an event makes, and its answer if it comes to one. -/
  call : σ → ε → Option (LedgerOp × Option (Result Reply))

/-- The call's answer hands out the lease `id` as claimed, with the record `r`. -/
def LedgerOp.Claims (id : String) (r : LeaseRecord) (answer : Result Reply) : LedgerOp → Prop
  | .claimPendingCleanup id' _ => id' = id ∧ answer = .ok (.candidate (some r))
  | .claimStalePendingCleanup _ _ =>
    r.leaseId = id ∧ ∃ rows, answer = .ok (.records rows) ∧ r ∈ rows
  | _ => False

theorem LedgerOp.Claims.answered {id : String} {r : LeaseRecord} {answer : Result Reply}
    {op : LedgerOp} (h : op.Claims id r answer) : ∃ a, answer = .ok a := by
  cases op with
  | claimPendingCleanup id' nowMs => exact ⟨_, h.2⟩
  | claimStalePendingCleanup nowMs maxAgeMs =>
    obtain ⟨-, rows, answered, -⟩ := h
    exact ⟨_, answered⟩
  | _ => exact h.elim

namespace LedgerMachine

variable {σ ε : Type} (m : LedgerMachine σ ε)

def run (events : List ε) : σ := events.foldl m.step m.initial

/-- The event is a finish of the lease that answers true or never answers. -/
def MayFinish (s : σ) (event : ε) (id : String) : Prop :=
  ∃ answer, m.call s event = some (.finishPendingCleanup id, answer) ∧
    ∀ a, answer = some a → a = .ok (.flag true)

end LedgerMachine

/-- **The fence**, in the runs of a machine whose events all meet a condition. -/
structure FenceHolds {σ ε : Type} (m : LedgerMachine σ ε) (meets : σ → ε → Prop) : Prop where
  /-- Every claimed id is the id of a Pending record. -/
  pending : ∀ events, Along m.step meets m.initial events → ∀ s ∈ m.shown (m.run events),
    ∀ id ∈ s.pendingCleanupClaims, ∃ r, s.records[id]? = some r ∧ r.leaseId = id ∧
    r.state = .pending
  /-- A lease that a call has handed out as claimed stays claimed, under the record handed out,
  until it is finished. -/
  claimed : ∀ before event later op answer id r,
    Along m.step meets m.initial (before ++ event :: later) →
    m.call (m.run before) event = some (op, some answer) → op.Claims id r answer →
    Along m.step (fun s e => ¬ m.MayFinish s e id) (m.step (m.run before) event) later →
    ∀ s ∈ m.shown (m.run (before ++ event :: later)), Fenced s id r
  /-- So does a lease that a live index has as claimed. -/
  fenced : ∀ before later id r s, Along m.step meets m.initial (before ++ later) →
    m.live (m.run before) = some s → Fenced s id r →
    Along m.step (fun s e => ¬ m.MayFinish s e id) (m.run before) later →
    ∀ s ∈ m.shown (m.run (before ++ later)), Fenced s id r
  /-- A finished lease leaves nothing behind. -/
  finished : ∀ before event id, Along m.step meets m.initial (before ++ [event]) →
    m.call (m.run before) event = some (.finishPendingCleanup id, some (.ok (.flag true))) →
    ∀ s ∈ m.shown (m.step (m.run before) event), Gone s id

/-- **The fence from what one event keeps**: an invariant of the states, and the states that keep a
lease fenced. -/
theorem FenceHolds.of_steps {σ ε : Type} {m : LedgerMachine σ ε} {meets : σ → ε → Prop}
    (Inv : σ → Prop) (Keeps : String → LeaseRecord → σ → Prop)
    (initial : Inv m.initial) (step : ∀ {s e}, Inv s → meets s e → Inv (m.step s e))
    (shown : ∀ {s i}, Inv s → i ∈ m.shown s → i.WellFormed)
    (live : ∀ {s i id r}, Inv s → m.live s = some i → Fenced i id r → Keeps id r s)
    (keeps : ∀ {s e id r}, Keeps id r s → meets s e → ¬ m.MayFinish s e id →
      Keeps id r (m.step s e))
    (fenced : ∀ {s i id r}, Keeps id r s → i ∈ m.shown s → Fenced i id r)
    (claimed : ∀ {s e op answer id r}, Inv s → meets s e → m.call s e = some (op, some answer) →
      op.Claims id r answer → Keeps id r (m.step s e))
    (finished : ∀ {s e id i}, Inv s → meets s e →
      m.call s e = some (.finishPendingCleanup id, some (.ok (.flag true))) →
      i ∈ m.shown (m.step s e) → Gone i id) : FenceHolds m meets := by
  have runs : ∀ events, Along m.step meets m.initial events → Inv (m.run events) :=
    fun events along => along.invariant Inv step initial
  have kept : ∀ s later id r, Keeps id r s → Along m.step meets s later →
      Along m.step (fun s e => ¬ m.MayFinish s e id) s later →
      Keeps id r (later.foldl m.step s) :=
    fun s later id r hs along unfinished =>
      (along.and unfinished).invariant (Keeps id r) (fun h he => keeps h he.1 he.2) hs
  refine ⟨?_, ?_, ?_, ?_⟩
  · intro events along s hs id hid
    exact (shown (runs events along) hs).pending hid
  · intro before event later op answer id r along answered claims unfinished s hs
    obtain ⟨first, meets, rest⟩ := Along.append_iff.mp along
    have now := claimed (runs before first) meets answered claims
    refine fenced (kept _ later id r now rest unfinished) ?_
    rwa [LedgerMachine.run, List.foldl_append] at hs
  · intro before later id r s along up hs unfinished i hi
    obtain ⟨first, rest⟩ := Along.append_iff.mp along
    refine fenced (kept _ later id r (live (runs before first) up hs) rest unfinished) ?_
    rwa [LedgerMachine.run, List.foldl_append] at hi
  · intro before event id along answered i hi
    obtain ⟨first, meets, -⟩ := Along.append_iff.mp along
    exact finished (runs before first) meets answered hi

theorem LedgerOp.Allows.finish {op : LedgerOp} (h : op.Allows (.finish id)) :
    op = .finishPendingCleanup id := by
  cases op with
  | finishPendingCleanup id' =>
    cases h
    rfl
  | tryAdmitWithCompute rec cap gate =>
    rcases h with h | ⟨g, -, h⟩
    · nomatch h
    · nomatch h
  | claimStalePendingCleanup nowMs maxAgeMs =>
    obtain ⟨id', h⟩ := h
    nomatch h
  | _ => nomatch h

/-- A finish of a lease that is not fenced Pending does nothing; of one that is, it appends the
tombstone and forgets the lease. -/
theorem FileInner.exec_finish [SerdeJson] (s : InMemoryInner) (id : String) :
    exec s (.finishPendingCleanup id) =
      if s.claimedPending id = true then
        appendLine s (.tombstone id) (.pure (.ok (.flag true), s.finish id))
      else .pure (.ok (.flag false), s) := by
  simp only [exec, finishPendingCleanup]
  cases s.claimedPending id with
  | false => rfl
  | true =>
    simp only [Bool.not_true, Bool.false_eq_true, ↓reduceIte, FileOp.map_appendLine]
    rfl

section Machines

variable [SerdeJson]

/-! ## The in-memory ledger -/

def InMemoryInner.machine : LedgerMachine InMemoryInner LedgerOp where
  initial := .empty
  step s op := (s.exec op).2
  live := some
  shown s := [s]
  call s op := some (op, some (s.exec op).1)

variable {s : InMemoryInner} {id : String} {r : LeaseRecord} {op : LedgerOp}

theorem InMemoryInner.exec_finished (wf : s.WellFormed)
    (answered : (s.exec (.finishPendingCleanup id)).1 = .ok (.flag true)) :
    Gone (s.exec (.finishPendingCleanup id)).2 id := by
  have wf' := (exec_steps wf (.finishPendingCleanup id)).wellFormed wf
  refine wf'.gone ?_
  rw [← FileInner.settle_exec wf, FileInner.exec_finish] at answered ⊢
  split
  · simp [Appending.settle, appendLine, finish, forget]
  next hclaimed =>
    rw [if_neg hclaimed] at answered
    cases answered

omit [SerdeJson] in
theorem InMemoryInner.claim_rows (rows : List LeaseRecord) (s : InMemoryInner) :
    (rows.foldl (fun s row => s.claim row.leaseId) s).records = s.records ∧
      ∀ id, id ∈ s.pendingCleanupClaims ∨ (∃ row ∈ rows, row.leaseId = id) →
        id ∈ (rows.foldl (fun s row => s.claim row.leaseId) s).pendingCleanupClaims := by
  induction rows generalizing s with
  | nil => exact ⟨rfl, fun id h => h.resolve_right nofun⟩
  | cons row rows ih =>
    obtain ⟨same, claims⟩ := ih (s.claim row.leaseId)
    refine ⟨same, fun id h => claims id ?_⟩
    rcases h with h | ⟨row', hrow, rfl⟩
    · exact .inl ((OrdSet.mem_insert_iff _ _ _).mpr (.inr h))
    · rcases List.mem_cons.mp hrow with rfl | hrow
      · exact .inl ((OrdSet.mem_insert_iff _ _ _).mpr (.inl rfl))
      · exact .inr ⟨row', hrow, rfl⟩

/-- **A claim that is answered fences the lease.** -/
theorem InMemoryInner.exec_claimed (wf : s.WellFormed) (h : op.Claims id r (s.exec op).1) :
    Fenced (s.exec op).2 id r := by
  cases op with
  | claimPendingCleanup id' nowMs =>
    obtain ⟨rfl, answered⟩ := h
    simp only [exec, replying, claimPendingCleanup] at answered ⊢
    cases found : s.records[id']? with
    | none =>
      rw [found] at answered
      cases answered
    | some record =>
      rw [found] at answered
      cases pending : record.state.isPending with
      | false =>
        simp only [pending] at answered
        cases answered
      | true =>
        simp only [pending] at answered ⊢
        cases answered
        exact ⟨(OrdSet.mem_insert_iff _ _ _).mpr (.inl rfl), found⟩
  | claimStalePendingCleanup nowMs maxAgeMs =>
    obtain ⟨rfl, rows, answered, hr⟩ := h
    cases answered
    obtain ⟨same, claims⟩ := claim_rows (s.candidates nowMs maxAgeMs) s
    refine ⟨claims _ (.inr ⟨r, hr, rfl⟩), ?_⟩
    show (((s.candidates nowMs maxAgeMs).foldl _ s).records)[r.leaseId]? = some r
    rw [same]
    exact (wf.candidates_stored hr).1
  | _ => exact h.elim

/-! ## A call whose appends may fail -/

namespace FileInner

variable {env : Nat → Except String Unit}

/-- A call that answers without an error has lost no append, and did what the in-memory ledger
does. -/
theorem run_ok (wf : s.WellFormed) {a : Reply}
    (answered : ((exec s op).run env).1.1 = .ok a) : ((exec s op).run env).1 = s.exec op := by
  rw [← settle_exec wf op]
  rcases exec_files wf op with ⟨-, hfiles⟩ | ⟨-, heager⟩
  · rw [hfiles.run_ok answered]
  · generalize exec s op = p at heager answered
    obtain ⟨allowed, step, a⟩ := heager
    cases henv : env 0 with
    | ok _ => simp only [appendLine, Appending.run, Appending.settle, henv]
    | error e =>
      simp only [appendLine, Appending.run, henv] at answered
      cases answered

theorem run_shadows {disk : InMemoryInner} (h : Shadows s disk) (op : LedgerOp) :
    Shadows ((exec s op).run env).1.2 (disk.replay ((exec s op).run env).2) := by
  rcases exec_files h.liveWellFormed op with ⟨-, hfiles⟩ | ⟨early, heager⟩
  · exact (hfiles.run_steps env).shadows h
  · cases henv : env 0 with
    | ok _ => exact (heager.run_steps henv).shadows h
    | error e =>
      obtain ⟨m, l, s', allowed, step, hindex⟩ := heager.run_index
      obtain ⟨id, target, nowMs, rfl⟩ := early.allows allowed
      rw [(hindex env).1, (hindex env).2 e henv]
      exact h.lost_transition step

theorem run_fenced (wf : s.WellFormed) (h : Fenced s id r)
    (unfinished : op = .finishPendingCleanup id → ((exec s op).run env).1.1 ≠ .ok (.flag true)) :
    Fenced ((exec s op).run env).1.2 id r := by
  by_cases hop : op = .finishPendingCleanup id
  · -- a finish that does not return true has lost its append and left the index
    subst hop
    have hclaimed := claimedPending_iff.mpr ⟨h.claimed, wf.claimed id h.claimed⟩
    have hexec := exec_finish s id
    rw [if_pos hclaimed] at hexec
    cases henv : env 0 with
    | ok _ =>
      refine absurd ?_ (unfinished rfl)
      simp only [hexec, appendLine, Appending.run, henv]
    | error e =>
      simp only [hexec, appendLine, Appending.run, henv]
      exact h
  · have other : ¬ op.Allows (.finish id) := fun allowed => hop allowed.finish
    rcases exec_files wf op with ⟨-, hfiles⟩ | ⟨early, heager⟩
    · exact h.steps other (hfiles.run_steps env)
    · obtain ⟨m, l, s', allowed, step, hindex⟩ := heager.run_index
      rw [(hindex env).1]
      exact h.step (fun hm => other (hm ▸ allowed)) step

end FileInner

theorem InMemoryInner.exec_fenced (wf : s.WellFormed) (h : Fenced s id r)
    (unfinished : op = .finishPendingCleanup id → (s.exec op).1 ≠ .ok (.flag true)) :
    Fenced (s.exec op).2 id r := by
  rw [← FileInner.settle_exec wf, ← Appending.run_ok] at unfinished ⊢
  exact FileInner.run_fenced wf h unfinished

theorem InMemoryInner.fence : FenceHolds InMemoryInner.machine fun _ _ => True := by
  refine .of_steps WellFormed (fun id r s => s.WellFormed ∧ Fenced s id r) empty_wellFormed
    ?_ ?_ ?_ ?_ ?_ ?_ ?_
  · exact fun {s op} wf _ => (exec_steps wf op).wellFormed wf
  · intro s i wf hi
    rwa [List.mem_singleton.mp hi]
  · rintro s i id r wf ⟨⟩ h
    exact ⟨wf, h⟩
  · rintro s op id r ⟨wf, h⟩ - unfinished
    refine ⟨(exec_steps wf op).wellFormed wf, exec_fenced wf h ?_⟩
    rintro rfl answered
    exact unfinished ⟨_, rfl, fun a ha => by rw [← Option.some.inj ha, answered]⟩
  · rintro s i id r ⟨-, h⟩ hi
    rwa [List.mem_singleton.mp hi]
  · rintro s op _ _ id r wf - ⟨⟩ claims
    exact ⟨(exec_steps wf op).wellFormed wf, exec_claimed wf claims⟩
  · intro s op id i wf _ answered hi
    obtain ⟨rfl, hanswer⟩ := Prod.mk.inj (Option.some.inj answered)
    rw [List.mem_singleton.mp hi]
    exact exec_finished wf (Option.some.inj hanswer)

/-! ## The file ledger -/

/-- The journal's bytes, and the index of the process in front of them if one is up. -/
structure FileProcess where
  bytes : ByteArray
  live : Option InMemoryInner

/-- What happens to the process. The environment of a call decides its appends in turn, and of the
line whose append fails `left` bytes are in the file. A crash cuts a call short after `n` bytes of
its output. -/
inductive ProcessEvent
  | call (op : LedgerOp) (env : Nat → Except String Unit) (left : Nat)
  | crash (op : LedgerOp) (n : Nat)
  | stop
  | reopen

variable [JournalCodec]

/-- What a call leaves in the file: the lines that landed and a beginning of one that failed. -/
def leftBytes {α : Type} (op : FileOp α) (env : Nat → Except String Unit) (left : Nat) :
    ByteArray :=
  Text.bytes (journalText (op.run env).2) ++
    match op.refused env with
    | none => .empty
    | some line => (Text.bytes (toText line ++ ['\n'])).extract 0 left

namespace FileProcess

def step (path : String) (p : FileProcess) : ProcessEvent → FileProcess
  | .call op env left =>
    match p.live with
    | none => p
    | some index =>
      ⟨p.bytes ++ leftBytes (FileInner.exec index op) env left,
        some ((FileInner.exec index op).run env).1.2⟩
  | .crash op n =>
    match p.live with
    | none => p
    | some index => ⟨p.bytes ++ (outputBytes index op).extract 0 n, none⟩
  | .stop => { p with live := none }
  | .reopen =>
    match openJournal path p.bytes with
    | .ok (index, bytes) => ⟨bytes, some index⟩
    | .error _ => { p with live := none }

def shown (path : String) (p : FileProcess) : List InMemoryInner :=
  match openJournal path p.bytes with
  | .ok (index, _) => p.live.toList ++ [index]
  | .error _ => p.live.toList

def call (p : FileProcess) (event : ProcessEvent) : Option (LedgerOp × Option (Result Reply)) :=
  match p.live, event with
  | some index, .call op env _ => some (op, some ((FileInner.exec index op).run env).1.1)
  | some _, .crash op _ => some (op, none)
  | _, _ => none

def machine (path : String) : LedgerMachine FileProcess ProcessEvent where
  initial := ⟨.empty, some .empty⟩
  step := step path
  live := live
  shown := shown path
  call := call

end FileProcess

/-- The event appends nothing behind a line that lacks its line feed, and an append that fails
leaves less than the text of its line. -/
def ProcessEvent.Clean (p : FileProcess) : ProcessEvent → Prop
  | .call op env left => ∀ index, p.live = some index →
      ((FileInner.exec index op).Attempts → Terminated p.bytes) ∧
        ∀ line, (FileInner.exec index op).refused env = some line →
          left < Text.utf8Len (toText line)
  | .crash op _ => ∀ index, p.live = some index →
      (FileInner.exec index op).Attempts → Terminated p.bytes
  | .stop => True
  | .reopen => True

omit [SerdeJson] [JournalCodec] in
theorem FileOp.pure_or_attempts {α : Type} (op : FileOp α) : (∃ a, op = .pure a) ∨ op.Attempts := by
  cases op with
  | pure a => exact .inl ⟨a, rfl⟩
  | vis line k => exact .inr trivial

omit [SerdeJson] in
theorem OnDisk.called (law : JournalCodec.Lawful) {bytes : ByteArray} {ls : List JournalLine}
    (h : OnDisk bytes ls []) {α : Type} {op : FileOp α} {env : Nat → Except String Unit}
    {left : Nat} (clean : op.Attempts → Terminated bytes)
    (short : ∀ line, op.refused env = some line → left < Text.utf8Len (toText line)) :
    OnDisk (bytes ++ leftBytes op env left) (ls ++ (op.run env).2) [] := by
  rcases op.pure_or_attempts with ⟨a, rfl⟩ | attempts
  · show OnDisk (bytes ++ (.empty ++ .empty)) (ls ++ []) []
    rwa [ByteArray.append_empty, ByteArray.append_empty, List.append_nil]
  have terminated := clean attempts
  unfold leftBytes
  cases hrefused : op.refused env with
  | none =>
    rw [ByteArray.append_empty]
    exact h.written law fun _ => terminated
  | some line =>
    have hleft := short line hrefused
    -- the part that is left is a beginning of the line's own text
    have hpart : (Text.bytes (toText line ++ ['\n'])).extract 0 left =
        (Text.bytes (toText line)).extract 0 left := by
      rw [← Text.size_bytes] at hleft
      rw [Text.bytes_append, ByteArray.extract_append, Nat.sub_eq_zero_of_le hleft.le,
        Nat.zero_sub, ByteArray.extract_same, ByteArray.append_empty]
    rw [h.bytes_of_terminated law terminated, ← ByteArray.append_assoc,
      ← Text.bytes_append, ← journalText_append]
    dsimp only
    rw [hpart]
    refine .short line _ ((Text.bytes (toText line)).extract left
      (Text.bytes (toText line)).size) rfl rfl ?_ ?_
    · rw [ByteArray.extract_append_extract, Nat.zero_min, ByteArray.extract_zero_max_size]
    · rw [ByteArray.size_extract, Nat.min_self, Text.size_bytes]
      omega

/-- What every clean run keeps. The bytes hold the lines `ls`, and a beginning of the lines `more`
of a call that was cut short in front of the index `base`; what the first replay to is behind `base`
by transitions at most. -/
structure FileProcess.Sound (p : FileProcess) (base : InMemoryInner) (allows : Move → Prop)
    (ls more : List JournalLine) : Prop where
  onDisk : OnDisk p.bytes ls more
  shadows : Shadows base (InMemoryInner.empty.replay ls)
  chain : ∃ s, Steps allows base more s
  live : ∀ index, p.live = some index → index = base ∧ more = []

namespace FileProcess.Sound

variable {p : FileProcess} {base : InMemoryInner} {allows : Move → Prop}
  {ls more : List JournalLine} {path : String}

omit [SerdeJson] in
theorem initial : Sound ⟨.empty, some .empty⟩ .empty (fun _ => False) [] [] := by
  refine ⟨.of_whole [], .refl empty_wellFormed, ⟨_, .nil⟩, ?_⟩
  rintro index ⟨⟩
  exact ⟨rfl, rfl⟩

omit [SerdeJson] in
/-- What the journal opens to is behind a state between `base` and the end of the call cut short. -/
theorem opened (law : JournalCodec.Lawful) (h : p.Sound base allows ls more)
    {index : InMemoryInner} {bytes : ByteArray}
    (ok : openJournal path p.bytes = .ok (index, bytes)) :
    (∃ s k, Steps allows base (more.take k) s ∧ Shadows s index) ∧
      ∃ ls', Sound ⟨bytes, some index⟩ index (fun _ => False) ls' [] := by
  obtain ⟨k, rfl, onDisk⟩ := h.onDisk.openJournal law ok
  obtain ⟨s, chain⟩ := h.chain
  obtain ⟨s', cut⟩ := chain.take k
  have behind := cut.shadows h.shadows
  rw [← replay_append] at behind
  refine ⟨⟨s', k, cut, behind⟩, _, onDisk, .refl behind.diskWellFormed, ⟨_, .nil⟩, ?_⟩
  rintro index ⟨⟩
  exact ⟨rfl, rfl⟩

theorem call (law : JournalCodec.Lawful) (h : p.Sound base allows ls more) {op : LedgerOp}
    {env : Nat → Except String Unit} {left : Nat} (up : p.live = some base)
    (clean : (ProcessEvent.call op env left).Clean p) :
    Sound ⟨p.bytes ++ leftBytes (FileInner.exec base op) env left,
      some ((FileInner.exec base op).run env).1.2⟩ ((FileInner.exec base op).run env).1.2
      (fun _ => False) (ls ++ ((FileInner.exec base op).run env).2) [] := by
  obtain ⟨-, rfl⟩ := h.live _ up
  obtain ⟨appends, short⟩ := clean _ up
  refine ⟨h.onDisk.called law appends short, ?_, ⟨_, .nil⟩, ?_⟩
  · rw [replay_append]
    exact FileInner.run_shadows h.shadows op
  · rintro index ⟨⟩
    exact ⟨rfl, rfl⟩

theorem crash (law : JournalCodec.Lawful) (h : p.Sound base allows ls more) {op : LedgerOp}
    {n : Nat} (up : p.live = some base) (clean : (ProcessEvent.crash op n).Clean p) :
    Sound ⟨p.bytes ++ (outputBytes base op).extract 0 n, none⟩ base op.Allows ls
      (FileInner.exec base op).settle.2 := by
  obtain ⟨-, rfl⟩ := h.live _ up
  refine ⟨h.onDisk.begun law (fun hout => clean _ up ?_) n, h.shadows,
    ⟨_, FileInner.settle_steps h.shadows.liveWellFormed op⟩, nofun⟩
  refine (FileInner.exec base op).pure_or_attempts.resolve_left ?_
  rintro ⟨a, hpure⟩
  rw [hpure] at hout
  exact hout rfl

omit [SerdeJson] in
theorem stop (h : p.Sound base allows ls more) :
    Sound { p with live := none } base allows ls more :=
  ⟨h.onDisk, h.shadows, h.chain, nofun⟩

/-- **Every clean event keeps the bytes sound**, and a lease fenced that the event does not
finish. -/
theorem step (law : JournalCodec.Lawful) (path : String) (h : p.Sound base allows ls more)
    {event : ProcessEvent} (clean : event.Clean p) : ∃ base' allows' ls' more',
      (p.step path event).Sound base' allows' ls' more' ∧
      ∀ id r, Fenced base id r → ¬ allows (.finish id) → ¬ (machine path).MayFinish p event id →
        Fenced base' id r ∧ ¬ allows' (.finish id) := by
  cases event with
  | call op env left =>
    cases up : p.live with
    | none =>
      simp only [FileProcess.step, up]
      exact ⟨_, _, _, _, h, fun _ _ fenced other _ => ⟨fenced, other⟩⟩
    | some index =>
      obtain ⟨rfl, -⟩ := h.live index up
      simp only [FileProcess.step, up]
      refine ⟨_, _, _, _, h.call law up clean, fun id r fenced _ unfinished => ⟨?_, not_false⟩⟩
      refine FileInner.run_fenced h.shadows.liveWellFormed fenced ?_
      rintro rfl answered
      refine unfinished ⟨some (.ok (.flag true)), ?_, fun a ha => (Option.some.inj ha).symm⟩
      simp only [machine, FileProcess.call, up, answered]
  | crash op n =>
    cases up : p.live with
    | none =>
      simp only [FileProcess.step, up]
      exact ⟨_, _, _, _, h, fun _ _ fenced other _ => ⟨fenced, other⟩⟩
    | some index =>
      obtain ⟨rfl, -⟩ := h.live index up
      simp only [FileProcess.step, up]
      refine ⟨_, _, _, _, h.crash law up clean, fun id r fenced _ unfinished =>
        ⟨fenced, fun allowed => unfinished ⟨none, ?_, nofun⟩⟩⟩
      simp only [machine, FileProcess.call, up, allowed.finish]
  | stop => exact ⟨_, _, _, _, h.stop, fun _ _ fenced other _ => ⟨fenced, other⟩⟩
  | reopen =>
    cases ok : openJournal path p.bytes with
    | error e =>
      simp only [FileProcess.step, ok]
      exact ⟨_, _, _, _, h.stop, fun _ _ fenced other _ => ⟨fenced, other⟩⟩
    | ok answer =>
      obtain ⟨index, bytes⟩ := answer
      obtain ⟨⟨s, k, cut, behind⟩, ls', h'⟩ := h.opened law ok
      simp only [FileProcess.step, ok]
      exact ⟨_, _, _, _, h', fun id r fenced other _ =>
        ⟨(fenced.steps other cut).shadow behind, not_false⟩⟩

omit [SerdeJson] in
/-- An index to be seen is behind a state between `base` and the end of the call cut short. -/
theorem shown (law : JournalCodec.Lawful) (h : p.Sound base allows ls more) {i : InMemoryInner}
    (hi : i ∈ p.shown path) : ∃ s k, Steps allows base (more.take k) s ∧ Shadows s i := by
  have live : i ∈ p.live.toList → ∃ s k, Steps allows base (more.take k) s ∧ Shadows s i := by
    intro hi
    obtain ⟨rfl, -⟩ := h.live i (Option.mem_toList.mp hi)
    exact ⟨i, 0, .nil, .refl h.shadows.liveWellFormed⟩
  unfold FileProcess.shown at hi
  cases ok : openJournal path p.bytes with
  | error e =>
    rw [ok] at hi
    exact live hi
  | ok answer =>
    obtain ⟨index, bytes⟩ := answer
    rw [ok] at hi
    rcases List.mem_append.mp hi with hi | hi
    · exact live hi
    · rw [List.mem_singleton.mp hi]
      exact (h.opened law ok).1

end FileProcess.Sound

namespace FileProcess

variable {path : String}

omit [JournalCodec] in
/-- A call that comes to an answer is one of the process that is up. -/
theorem call_answered {p : FileProcess} {event : ProcessEvent} {answer : Result Reply}
    (h : p.call event = some (op, some answer)) : ∃ index env left, p.live = some index ∧
      event = .call op env left ∧ answer = ((FileInner.exec index op).run env).1.1 := by
  unfold call at h
  split at h
  next index op' env left up =>
    cases h
    exact ⟨index, env, left, up, rfl, rfl⟩
  · nomatch h
  · nomatch h

theorem fence (law : JournalCodec.Lawful) :
    FenceHolds (machine path) fun p event => event.Clean p := by
  refine .of_steps (fun p : FileProcess => ∃ base allows ls more, p.Sound base allows ls more)
    (fun id r (p : FileProcess) => ∃ base allows ls more, p.Sound base allows ls more ∧
      Fenced base id r ∧ ¬ allows (.finish id)) ⟨_, _, _, _, .initial⟩ ?_ ?_ ?_ ?_ ?_ ?_ ?_
  · rintro p event ⟨_, _, _, _, h⟩ clean
    obtain ⟨_, _, _, _, h', -⟩ := h.step law path clean
    exact ⟨_, _, _, _, h'⟩
  · rintro p i ⟨_, _, _, _, h⟩ hi
    obtain ⟨s, k, -, behind⟩ := h.shown law hi
    exact behind.diskWellFormed
  · rintro p i id r ⟨base, allows, ls, more, h⟩ up fenced
    obtain ⟨rfl, rfl⟩ := h.live i up
    exact ⟨i, fun _ => False, ls, [], ⟨h.onDisk, h.shadows, ⟨_, .nil⟩, h.live⟩, fenced, not_false⟩
  · rintro p event id r ⟨_, _, _, _, h, fenced, other⟩ clean unfinished
    obtain ⟨_, _, _, _, h', keeps⟩ := h.step law path clean
    exact ⟨_, _, _, _, h', keeps id r fenced other unfinished⟩
  · rintro p i id r ⟨_, _, _, _, h, fenced, other⟩ hi
    obtain ⟨s, k, cut, behind⟩ := h.shown law hi
    exact (fenced.steps other cut).shadow behind
  · rintro p event op answer id r ⟨_, _, _, _, h⟩ clean answered claims
    obtain ⟨index, env, left, up, rfl, rfl⟩ := call_answered answered
    obtain ⟨rfl, -⟩ := h.live index up
    have wf := h.shadows.liveWellFormed
    obtain ⟨a, ok⟩ := claims.answered
    have same := FileInner.run_ok wf ok
    simp only [machine, step, up]
    refine ⟨_, _, _, _, h.call law up clean, ?_, not_false⟩
    rw [same] at claims ⊢
    exact exec_claimed wf claims
  · rintro p event id i ⟨_, _, _, _, h⟩ clean answered hi
    obtain ⟨index, env, left, up, rfl, ok⟩ := call_answered answered
    obtain ⟨rfl, -⟩ := h.live index up
    have wf := h.shadows.liveWellFormed
    have same := FileInner.run_ok wf ok.symm
    have gone : Gone (index.exec (.finishPendingCleanup id)).2 id :=
      exec_finished wf (by rw [← same, ← ok])
    simp only [machine, step, up] at hi
    obtain ⟨s, k, cut, behind⟩ := (h.call law up clean).shown law hi
    rw [List.take_nil] at cut
    cases cut
    rw [same] at behind
    exact behind.diskWellFormed.gone (behind.absent gone.record)

end FileProcess

/-- **The cleanup-claim fence**, of the in-memory ledger under any calls, and of the file ledger,
live and as its journal opens, under any calls, failed appends, crashes and re-opens that append
nothing behind a line without its line feed and leave no whole line of a failed append. -/
theorem cleanup_fence (law : JournalCodec.Lawful) (path : String) :
    FenceHolds InMemoryInner.machine (fun _ _ => True) ∧
      FenceHolds (FileProcess.machine path) fun p event => event.Clean p :=
  ⟨InMemoryInner.fence, FileProcess.fence law⟩

end Machines

/-! ## A claim behind a line without its line feed -/

section Json

attribute [local instance] refuseJson jsonCodec

/-- The file ledger of the runs below. -/
abbrev acmeLedger : LedgerMachine FileProcess ProcessEvent := FileProcess.machine "ledger.jsonl"

def putOne : ProcessEvent := .call (.put (acmeLease "l1")) (fun _ => .ok ()) 0

def claimOne : ProcessEvent := .call (.claimPendingCleanup "l1" 2000) (fun _ => .ok ()) 0

theorem FileProcess.step_ok (path : String) (index : InMemoryInner) (bytes : ByteArray)
    (op : LedgerOp) : FileProcess.step path ⟨bytes, some index⟩ (.call op (fun _ => .ok ()) 0) =
      ⟨bytes ++ outputBytes index op, some (FileInner.exec index op).settle.1.2⟩ := by
  simp only [FileProcess.step, leftBytes, Appending.run_ok, Appending.refused_ok,
    ByteArray.append_empty, outputBytes]

theorem run_putOne : acmeLedger.run [putOne] =
    ⟨Text.bytes (journalText [.record (acmeLease "l1")]), some indexOne⟩ := by
  refine (FileProcess.step_ok "ledger.jsonl" .empty .empty _).trans ?_
  rw [outputBytes_put (by decide), ByteArray.empty_append]
  simp only [journalText, List.flatMap_cons, List.flatMap_nil, List.append_nil]
  rfl

theorem step_claimOne (text : List Char) :
    acmeLedger.step ⟨Text.bytes text, some indexOne⟩ claimOne =
      ⟨Text.bytes (text ++ toText (.pendingCleanupClaim "l1") ++ ['\n']),
        some (indexOne.claim "l1")⟩ := by
  refine (FileProcess.step_ok "ledger.jsonl" indexOne _ _).trans ?_
  rw [List.append_assoc, Text.bytes_append]
  rfl

/-- A lease is put and claimed. -/
theorem cleanup_fence_claimed :
    acmeLedger.live (acmeLedger.run ([putOne] ++ [claimOne])) = some (indexOne.claim "l1") ∧
      ∀ s ∈ acmeLedger.shown (acmeLedger.run ([putOne] ++ [claimOne])),
        Fenced s "l1" (acmeLease "l1") := by
  have clean : Along acmeLedger.step (fun p event => event.Clean p) acmeLedger.initial
      ([putOne] ++ [claimOne]) := by
    refine Along.append_iff.mpr ⟨⟨?_, trivial⟩, ?_, trivial⟩
    · rintro index ⟨⟩
      refine ⟨fun _ => ⟨[], rfl, .inl rfl⟩, fun line h => ?_⟩
      rw [Appending.refused_ok] at h
      nomatch h
    · show claimOne.Clean (acmeLedger.run [putOne])
      simp only [run_putOne, claimOne, ProcessEvent.Clean, Appending.refused_ok]
      exact fun index _ => ⟨fun _ => terminated_journalText _, nofun⟩
  have answered : acmeLedger.call (acmeLedger.run [putOne]) claimOne =
      some (.claimPendingCleanup "l1" 2000, some (.ok (.candidate (some (acmeLease "l1"))))) := by
    rw [run_putOne]
    rfl
  refine ⟨?_, (cleanup_fence jsonCodec_lawful "ledger.jsonl").2.claimed [putOne] claimOne
    [] _ _ "l1" (acmeLease "l1") clean answered ⟨rfl, rfl⟩ trivial⟩
  rw [LedgerMachine.run, List.foldl_append, ← LedgerMachine.run, run_putOne, List.foldl_cons,
    step_claimOne]
  rfl

/-- A put is cut between its line and the line feed, and the journal is opened again. -/
def unfedPut : List ProcessEvent :=
  [.crash (.put (acmeLease "l1"))
      (Text.utf8Len (toText (.record (acmeLease "l1")))), .reopen]

theorem run_unfedPut : acmeLedger.run unfedPut =
    ⟨Text.bytes (toText (.record (acmeLease "l1"))), some indexOne⟩ := by
  have hcut : (outputBytes .empty (.put (acmeLease "l1"))).extract 0
      (Text.utf8Len (toText (.record (acmeLease "l1")))) =
      Text.bytes (toText (.record (acmeLease "l1"))) := by
    rw [outputBytes_put (by decide), Text.extract_bytes_append]
  have hopen : openJournal "ledger.jsonl"
      (Text.bytes (toText (.record (acmeLease "l1")))) =
        .ok (indexOne, Text.bytes (toText (.record (acmeLease "l1")))) := by
    have h : openJournal "ledger.jsonl" _ = _ := jsonCodec_lawful.openJournal_torn []
      (List.prefix_refl (toText (.record (acmeLease "l1"))))
    rw [if_pos rfl] at h
    exact h
  simp only [LedgerMachine.run, FileProcess.machine, unfedPut, List.foldl_cons,
    List.foldl_nil, FileProcess.step, hcut, ByteArray.empty_append, hopen]

/-- **The claim and its lease are lost**: the claim of the lease that the journal opened to answers
with it, and the next opening shows an empty ledger. -/
theorem claim_behind_unfedPut_lost :
    acmeLedger.call (acmeLedger.run unfedPut) claimOne =
        some (.claimPendingCleanup "l1" 2000, some (.ok (.candidate (some (acmeLease "l1"))))) ∧
      acmeLedger.shown (acmeLedger.run (unfedPut ++ [claimOne, .stop])) = [.empty] := by
  constructor
  · rw [run_unfedPut]
    rfl
  · rw [LedgerMachine.run, List.foldl_append, ← LedgerMachine.run, List.foldl_cons, run_unfedPut,
      step_claimOne]
    simp only [List.foldl_cons, List.foldl_nil, FileProcess.machine, FileProcess.step,
      FileProcess.shown, openJournal_glued]
    rfl

end Json

end CorelinkRunners
