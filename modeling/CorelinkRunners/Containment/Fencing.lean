import CorelinkRunners.Containment.Queue

/-!
# The fence of the drain

Drainers take turns under leases. Every new lease has the next epoch, a call that names an older
epoch finds the door closed, and the permit of an event stays with whoever it was issued to. The
commit of an effect happens in three phases with anything in between; the last one compares with the
first, so the evidence was validated against the very event and lease that the commit finds.
-/

namespace CorelinkRunners.Containment

open Kit Store

/-- The new lease an `acquireLease` grants: there was none, or it had expired. -/
def Store.grants? (s : Store) (owner : String) (now : Int) : Option DrainLease :=
  match s.head.lease with
  | none => (s.acquireLease owner now).1
  | some old => if now < old.expiresMs then none else (s.acquireLease owner now).1

def Op.epoch? : Op → Option Nat
  | renewLease _ epoch _ | claimNext _ epoch _ | beginEffect _ _ epoch _ _
  | acknowledge _ _ epoch _ _ | acknowledgeTerminal _ _ epoch _ | releaseLease _ epoch => some epoch
  | _ => none

def System.epoch? (s : System) : Event → Option Nat
  | .op op => op.epoch?
  | .mark _ _ _ epoch _ | .recover _ _ _ epoch _ _ => some epoch
  | .read call _ | .commit call _ => (s.calls.get call).map CommitCall.epoch
  | .foreign .. => none

/-! ## Leases -/

def Leased (s : Store) : Prop := ∀ lease ∈ s.head.lease, lease.epoch = s.head.leaseEpoch

section Leases

variable {s s' : Store} {may : Licence} {added dropped : Option String}

theorem Leased.change (inv : Leased s) (change : Change s may added dropped s') :
    Leased s' ∧ s.head.leaseEpoch ≤ s'.head.leaseEpoch := by
  cases change with
  | same => exact ⟨inv, Nat.le_refl _⟩
  | foreign => exact ⟨inv, Nat.le_refl _⟩
  | bootstrapped => exact ⟨inv, Nat.le_refl _⟩
  | appended => exact ⟨inv, Nat.le_refl _⟩
  | touched => exact ⟨inv, Nat.le_refl _⟩
  | committed => exact ⟨inv, Nat.le_refl _⟩
  | redriven => exact ⟨inv, Nat.le_refl _⟩
  | removed id head event index stampMs headed _ _ _ =>
    obtain rfl := head_of_meta headed
    exact ⟨inv, Nat.le_refl _⟩
  | headed head indexMeta _ _ _ _ epoch lease =>
    refine ⟨fun held there => ?_, epoch⟩
    rcases lease held there with last | ⟨same, old, was, kept⟩
    · exact last
    · exact kept.trans ((inv old was).trans same.symm)

variable {owner : String} {epoch : Nat} {now : Int}

theorem leaseMatches_epoch {head : ContainmentMeta} (h : leaseMatches head owner epoch now = true) :
    ∃ lease ∈ head.lease, lease.epoch = epoch := by
  unfold leaseMatches at h
  split at h
  next lease held =>
    simp only [Bool.and_eq_true, beq_iff_eq] at h
    exact ⟨lease, held, h.1.2⟩
  · nomatch h

theorem Store.grants_epoch {lease : DrainLease} (h : s.grants? owner now = some lease) :
    lease.epoch = s.head.leaseEpoch + 1 ∧
      (s.acquireLease owner now).2.head.leaseEpoch = s.head.leaseEpoch + 1 := by
  unfold grants? at h
  unfold acquireLease at h ⊢
  cases held : s.head.lease with
  | none =>
    simp only [held, Option.some.injEq] at h ⊢
    exact ⟨h ▸ rfl, rfl⟩
  | some old =>
    simp only [held] at h ⊢
    by_cases good : now < old.expiresMs
    · rw [if_pos good] at h
      nomatch h
    · simp only [if_neg good, Option.some.injEq] at h ⊢
      exact ⟨h ▸ rfl, rfl⟩

theorem Leased.stale (inv : Leased s) (old : epoch < s.head.leaseEpoch) (now : Int) :
    leaseMatches s.head owner epoch now = false := by
  by_contra open_
  obtain ⟨lease, held, same⟩ := leaseMatches_epoch (Bool.not_eq_false _ ▸ open_)
  have last := inv lease held
  omega

/-! An operation under a lease that does not match leaves the storage as it is. -/
section Closed

variable {owner : String} {epoch : Nat}
  (closed : ∀ now, leaseMatches s.head owner epoch now = false)

include closed

theorem Store.renewLease_closed (now : Int) : (s.renewLease owner epoch now).2 = s := by
  unfold renewLease
  split
  · rfl
  next head headed =>
    obtain rfl := head_of_meta headed
    split
    · rfl
    · rw [closed]; rfl

theorem Store.claimNext_closed (now : Int) : (s.claimNext owner epoch now).2 = s := by
  unfold claimNext
  split
  · rfl
  next head headed =>
    obtain rfl := head_of_meta headed
    rw [closed]
    rfl

theorem Store.beginContainmentEventEffect_closed (eventId : String) (now : Int)
    (permitId : String) :
    (s.beginContainmentEventEffect eventId owner epoch now permitId).2 = s := by
  unfold beginContainmentEventEffect
  split
  next head event headed _ =>
    obtain rfl := head_of_meta headed
    rw [closed, Bool.not_false, Bool.or_true]
    rfl
  · rfl

theorem Store.acknowledge_closed (eventId : String) (now stampMs : Int) :
    (s.acknowledge eventId owner epoch now stampMs).2 = s := by
  unfold acknowledge
  split
  next head event headed _ =>
    obtain rfl := head_of_meta headed
    rw [closed, Bool.not_false, Bool.or_true]
    rfl
  · rfl

theorem Store.acknowledgeTerminal_closed (eventId : String) (now : Int) :
    (s.acknowledgeTerminal eventId owner epoch now).2 = s := by
  unfold acknowledgeTerminal
  split
  next head event headed _ =>
    obtain rfl := head_of_meta headed
    rw [closed, Bool.not_false, Bool.or_true]
    rfl
  · rfl

end Closed

/-- **An operation that names an older epoch changes nothing.** -/
theorem Leased.after_stale (inv : Leased s) {op : Op} (named : op.epoch? = some epoch)
    (old : epoch < s.head.leaseEpoch) : s.after op = s := by
  cases op with
  | renewLease owner e now =>
    cases named
    exact renewLease_closed (inv.stale old) now
  | claimNext owner e now =>
    cases named
    exact claimNext_closed (inv.stale old) now
  | beginEffect eventId owner e now permitId =>
    cases named
    exact beginContainmentEventEffect_closed (inv.stale old) eventId now permitId
  | acknowledge eventId owner e now stampMs =>
    cases named
    exact acknowledge_closed (inv.stale old) eventId now stampMs
  | acknowledgeTerminal eventId owner e now =>
    cases named
    exact acknowledgeTerminal_closed (inv.stale old) eventId now
  | releaseLease owner e =>
    cases named
    dsimp only [after, releaseLease]
    split
    · rfl
    next head headed =>
      obtain rfl := head_of_meta headed
      split
      · rfl
      next lease held =>
        have last := inv lease held
        rw [if_neg fun both => by omega]
  | _ => nomatch named

end Leases

/-! ## Permits and commits -/

section Events

variable {s s' : Store} {may : Licence} {added dropped : Option String}

structure Permitted (id : String) (seq : Nat) (permit : EventPermit) (s : Store) : Prop where
  placed : seq < s.head.nextPauseSeq
  permit : ∀ event, s.events.get id = some event → event.pauseSeq = seq →
    event.effectPermit = some permit

variable {id : String}

theorem Permitted.change {seq : Nat} {permit : EventPermit} (inv : Permitted id seq permit s)
    (change : Change s may added dropped s') : Permitted id seq permit s' := by
  cases change with
  | same => exact inv
  | foreign => exact ⟨inv.placed, inv.permit⟩
  | bootstrapped => exact ⟨inv.placed, inv.permit⟩
  | redriven => exact ⟨inv.placed, inv.permit⟩
  | headed head indexMeta _ next => exact ⟨next.symm ▸ inv.placed, inv.permit⟩
  | appended event job index stampMs reservations _ fresh =>
    refine ⟨Nat.lt_succ_of_lt inv.placed, fun e stored place => ?_⟩
    rcases Table.get_put_cases stored with ⟨rfl, rfl⟩ | ⟨-, old⟩
    · exact absurd place (Nat.ne_of_gt inv.placed)
    · exact inv.permit e old place
  | touched a event state claim permit' found kept _ =>
    refine ⟨inv.placed, fun e stored place => ?_⟩
    rcases Table.get_put_cases stored with ⟨rfl, rfl⟩ | ⟨-, old⟩
    · exact kept _ (inv.permit event found place)
    · exact inv.permit e old place
  | committed a event _ found =>
    refine ⟨inv.placed, fun e stored place => ?_⟩
    rcases Table.get_put_cases stored with ⟨rfl, rfl⟩ | ⟨-, old⟩
    · exact inv.permit event found place
    · exact inv.permit e old place
  | removed a head event index stampMs headed =>
    obtain rfl := head_of_meta headed
    exact ⟨inv.placed, fun e stored place => inv.permit e (Table.get_delete_some stored).2 place⟩

/-- The permit answered is the caller's own, and it is the one the event has then. -/
theorem Store.beginContainmentEventEffect_answers {owner permitId : String} {epoch : Nat}
    {now : Int} {permit : EventPermit}
    (h : (s.beginContainmentEventEffect id owner epoch now permitId).1 = some permit) :
    (permit.issuedToOwner = owner ∧ permit.issuedToEpoch = epoch) ∧
      ∃ event, s.events.get id = some event ∧ (∀ issued ∈ event.effectPermit, permit = issued) ∧
        (s.beginContainmentEventEffect id owner epoch now permitId).2.events.get id =
          some { event with effectPermit := some permit } := by
  unfold beginContainmentEventEffect at h ⊢
  split at h
  next head event _ found =>
    split at h
    · cases h
    next passed =>
      rw [if_neg passed]
      cases issued : event.effectPermit with
      | none =>
        rw [issued] at h
        cases h
        exact ⟨⟨rfl, rfl⟩, event, found, by simp [issued], Table.get_put_self ..⟩
      | some old =>
        simp only [issued] at h ⊢
        split at h
        next own =>
          cases h
          rw [if_pos own, ← issued]
          refine ⟨own, event, found, ?_, found⟩
          rintro same there
          exact Option.some.inj (issued.symm.trans there)
        · cases h
  · cases h

variable {event : ContainmentEvent}

theorem Store.acknowledgeTerminal_permitted {permit : EventPermit}
    (stored : s.events.get id = some event) (issued : event.effectPermit = some permit)
    (owner : String) (epoch : Nat) (now : Int) :
    s.acknowledgeTerminal id owner epoch now = (false, s) := by
  unfold acknowledgeTerminal
  split
  next found =>
    cases stored.symm.trans found
    rw [issued, Option.isSome_some, Bool.or_true]
    rfl
  · rfl

theorem Change.uncommitted (change : Change s may added dropped s') (quiet : ¬may.commits)
    (stored : s'.events.get id = some event) (done : event.state = .effectCommitted) :
    ∃ old, s.events.get id = some old ∧ old.state = .effectCommitted := by
  cases change with
  | same => exact ⟨event, stored, done⟩
  | foreign => exact ⟨event, stored, done⟩
  | bootstrapped => exact ⟨event, stored, done⟩
  | redriven => exact ⟨event, stored, done⟩
  | headed => exact ⟨event, stored, done⟩
  | committed _ _ allowed => exact absurd allowed quiet
  | removed => exact ⟨event, (Table.get_delete_some stored).2, done⟩
  | appended =>
    rcases Table.get_put_cases stored with ⟨rfl, rfl⟩ | ⟨-, old⟩
    · nomatch done
    · exact ⟨event, old, done⟩
  | touched a before state claim permit found _ uncommitted =>
    rcases Table.get_put_cases stored with ⟨rfl, rfl⟩ | ⟨-, old⟩
    · exact ⟨before, found, uncommitted done⟩
    · exact ⟨event, old, done⟩

end Events

namespace System

variable (rt : Runtime) {s : System}

theorem run_keeps (Inv : System → Prop) (keeps : ∀ s event, Inv s → Inv (s.step rt event))
    (inv : Inv s) (events : List Event) : Inv (s.run rt events) :=
  (Along.of_forall fun _ _ => trivial : Along (step rt) (fun _ _ => True) s events).invariant Inv
    (fun inv _ => keeps _ _ inv) inv

theorem run_changes (Inv : Store → Prop)
    (keeps : ∀ {s s' : Store} {may : Licence} {added dropped : Option String},
      Change s may added dropped s' → Inv s → Inv s')
    (inv : Inv s.store) (events : List Event) : Inv (s.run rt events).store :=
  run_keeps rt (fun s => Inv s.store) (fun s event inv =>
    let ⟨_, _, steps⟩ := s.step_steps rt event
    keeps steps.change inv) inv events

theorem run_leased {epoch : Nat} (inv : Leased s.store) (least : epoch ≤ s.store.head.leaseEpoch)
    (events : List Event) :
    Leased (s.run rt events).store ∧ epoch ≤ (s.run rt events).store.head.leaseEpoch :=
  run_changes rt (fun s => Leased s ∧ epoch ≤ s.head.leaseEpoch)
    (fun change inv => (inv.1.change change).imp id inv.2.trans) ⟨inv, least⟩ events

variable {rt}

/-- What a call has read proves the effect of the event of its snapshot. -/
def Proven (rt : Runtime) (s : System) : Prop :=
  ∀ call c, s.calls.get call = some c → ∀ kv ∈ c.proved,
    ∃ digest, validatedEffectProof rt c.event kv = some digest

theorem Proven.snapshot (inv : s.Proven rt) (call : Nat) (eventId owner : String) (epoch : Nat)
    (now : Int) (recovery : Option String) :
    (s.snapshot call eventId owner epoch now recovery).Proven rt := by
  unfold System.snapshot
  split
  · split
    · intro other c there
      rcases Table.get_put_cases there with ⟨rfl, rfl⟩ | ⟨-, old⟩
      · rintro kv ⟨⟩
      · exact inv other c old
    · exact inv
  · exact inv

theorem Proven.read (inv : s.Proven rt) (call : Nat) (kv : WitnessKind → Option String) :
    (s.read rt call kv).Proven rt := by
  have left : ({ s with calls := s.calls.delete call } : System).Proven rt :=
    fun other c there => inv other c (Table.get_delete_some there).2
  unfold System.read
  split
  · exact inv
  next c _ =>
    split
    · exact left
    next digest proved =>
      split
      · intro other c' there
        rcases Table.get_put_cases there with ⟨rfl, rfl⟩ | ⟨-, old⟩
        · rintro kv' ⟨⟩
          exact ⟨digest, proved⟩
        · exact inv other c' old
      · exact left

theorem Proven.commit (inv : s.Proven rt) (call : Nat) (now : Int) :
    (s.commit call now).Proven rt := by
  have left : ({ s with calls := s.calls.delete call } : System).Proven rt :=
    fun other c there => inv other c (Table.get_delete_some there).2
  unfold System.commit
  split
  · exact inv
  split
  · exact inv
  · dsimp only
    split
    · exact left
    · exact left
  · exact left

theorem Proven.step (s : System) (event : Event) (inv : s.Proven rt) :
    (s.step rt event).Proven rt := by
  cases event with
  | op => exact inv
  | foreign => exact inv
  | mark call eventId owner epoch now => exact inv.snapshot call eventId owner epoch now none
  | recover call effectId owner epoch proofDigest now =>
    dsimp only [System.step, System.recover]
    split
    · exact inv
    next eventId _ =>
      split
      · exact inv
      split
      · exact inv
      · exact inv.snapshot call eventId owner epoch now (some proofDigest)
  | read call kv => exact inv.read call kv
  | commit call now => exact inv.commit call now

theorem step_stale (inv : Leased s.store) {event : Event} {epoch : Nat}
    (named : s.epoch? event = some epoch) (old : epoch < s.store.head.leaseEpoch) :
    (s.step rt event).store = s.store := by
  cases event with
  | op op => exact inv.after_stale named old
  | mark => exact s.snapshot_store ..
  | recover => exact s.recover_store ..
  | read => exact s.read_store ..
  | commit call now =>
    obtain ⟨c, there, rfl⟩ := Option.map_eq_some_iff.mp named
    show (s.commit call now).store = s.store
    unfold commit
    rw [there]
    dsimp only
    split
    · rfl
    next head event _ headed _ =>
      obtain rfl := head_of_meta headed
      rw [canCommitEffect, inv.stale old, Bool.and_false, Bool.false_and, Bool.false_and,
        Bool.false_and, Bool.and_false]
      rfl
    · rfl
  | foreign => nomatch named

theorem commit_commits {call : Nat} {now : Int} {id : String} {event : ContainmentEvent}
    (stored : (s.commit call now).store.events.get id = some event)
    (done : event.state = .effectCommitted)
    (undone : ∀ old, s.store.events.get id = some old → old.state ≠ .effectCommitted) :
    ∃ c kv, s.calls.get call = some c ∧ c.proved = some kv ∧ s.store.events.get id = some c.event ∧
      c.head.lease = s.store.head.lease ∧ leaseMatches s.store.head c.owner c.epoch now = true := by
  unfold commit at stored
  split at stored
  · exact absurd done (undone event stored)
  next c there =>
    split at stored
    · exact absurd done (undone event stored)
    next kv head old proved headed found =>
      split at stored
      next checked =>
        rcases Table.get_put_cases stored with ⟨rfl, -⟩ | ⟨-, before⟩
        · obtain rfl := head_of_meta headed
          simp only [matchesEffectCommitSnapshot, canCommitEffect, Bool.and_eq_true,
            decide_eq_true_eq] at checked
          obtain ⟨⟨⟨-, lease⟩, same⟩, ⟨⟨⟨⟨-, matched⟩, -⟩, -⟩, -⟩⟩ := checked
          exact ⟨c, kv, there, proved, same ▸ found, lease.symm, matched⟩
        · exact absurd done (undone event before)
      · exact absurd done (undone event stored)
    · exact absurd done (undone event stored)

theorem run_fenced (rt : Runtime) (events : List Event) :
    Leased (({} : System).run rt events).store ∧ Queued (({} : System).run rt events).store ∧
      (({} : System).run rt events).Proven rt := by
  have free : Leased ({} : Store) := nofun
  have idle : ({} : System).Proven rt := by
    rintro call c ⟨⟩
  exact ⟨(run_leased rt free (Nat.zero_le _) events).1,
    run_changes rt Queued (fun change inv => inv.change change) .empty events,
    run_keeps rt (Proven rt) Proven.step idle events⟩

end System

end CorelinkRunners.Containment
