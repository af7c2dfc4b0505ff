import CorelinkRunners.Pg.Reservations

/-!
# A call made again

A call on an external reservation that was answered with a receipt leaves something behind for good
(`PgCall.Answered`): reservations only go on in their lives, so sessions may rely on it
(`lastingProtocol`). Made again, whatever runs beside it, the call finds it, writes nothing, and
answers as `AnswersAgain` says.
-/

namespace CorelinkRunners

open Kit

/-! ## What sessions may rely on -/

theorem onward_order : (pgProtocol false).Order fun d d' => d.db.Onward d'.db where
  refl d := .refl d.db
  trans := .trans
  move := by
    rintro call held d d' - ⟨ws, rfl, move⟩
    exact move.onward

def lastingProtocol : Protocol PgLock Committed PgCall := (pgProtocol false).within onward_order

/-- One call to its end, among calls on reservations: it publishes what `pub` allows, and answers as
`post` says. -/
abbrev PgEnds {A : Type} (pub : Committed → List Write → Prop) (post : A → Committed → Prop)
    (held : PgLock → Prop) (w : Option (List Write)) (p : Pg A) (d : Committed) : Prop :=
  Runs pgStore lastingProtocol (fun _ _ _ => True) ⟨fun _ => pub, pub, post⟩ held w p d

namespace PgEnds

variable {A : Type} {pub : Committed → List Write → Prop} {post : A → Committed → Prop}
  {held : PgLock → Prop} {d : Committed}

theorem start {w : Option (List Write)} {k : Pg A} (next : PgEnds pub post held (some []) k d) :
    PgEnds pub post held w (Pg.start k) d := next

theorem rollback {w : Option (List Write)} {a : A} (answered : post a d) :
    PgEnds pub post held w (Pg.rollback (Pg.answer a)) d := answered

theorem peek {ws : List Write} {q : Sql} {k : q.Ans → Pg A} (reads : ∀ db : Db, (q.ask db).2 = [])
    (unlocked : ∀ db : Db, q.lock db = none) (next : ∀ d' : Committed, d.db.Onward d'.db →
      PgEnds pub post held (some ws) (k (q.ask (d'.db.applyAll ws)).1) d') :
    PgEnds pub post held (some ws) (Pg.sql q k) d :=
  Runs.peek (fun _ => reads _) (fun _ => unlocked _) fun d' rely _ => next d' rely.2

theorem advisoryLock {tenant : String} {k : Pg A}
    (next : ∀ (held' : PgLock → Prop) (d' : Committed), d.db.Onward d'.db →
      PgEnds pub post held' (some []) k d') :
    PgEnds pub post held (some []) (Pg.sql (.advisoryLock tenant) fun _ => k) d :=
  fun d' rely _ _ => next _ d' rely.2

end PgEnds

/-! ## What an answered call leaves behind -/

variable {db db' : Db}

theorem Db.Stores.onward {r : ExternalComputeReservation} {p : ExternalRow → Prop}
    (lasts : ∀ row later : ExternalRow, row.Later later → p row → p later) (stores : db.Stores r p)
    (onward : db.Onward db') : db'.Stores r p := by
  obtain ⟨row, found, grant, now⟩ := stores
  obtain ⟨later, found', step⟩ := onward _ row found
  exact ⟨later, found', step.grant.trans grant, lasts row later step now⟩

def PgReply.receipt? : PgReply → Option ExternalComputeReceipt
  | .admission (.admitted value) => some value
  | .receipt value => some value
  | _ => none

/-- What a call that answered `first`, a receipt, leaves behind. -/
def PgCall.Answered (db : Db) (first : PgReply) : PgCall → Prop
  | .reserve r _ =>
    (∃ reserved, External.validate r = .ok reserved) ∧
      r.grantExpiresAtMs + r.maximumWallMs ≤ Word.maxI64 ∧ db.Stores r fun _ => True
  | .activate r _ =>
    (∃ reserved, External.validate r = .ok reserved) ∧
      first = .receipt ⟨r.reservationId, .active⟩ ∧
      db.Stores r fun row => row.state = .active ∨ row.state = .settled
  | .cancel r _ =>
    (∃ reserved, External.validate r = .ok reserved) ∧
      first = .receipt ⟨r.reservationId, .cancelled⟩ ∧ db.Stores r fun row => row.state = .cancelled
  | .settle r s =>
    (∃ reserved, External.validate r = .ok reserved) ∧
      (External.digest s.terminalEvidenceDigest && s.actualVcpuMs ≤ Word.maxI64) = true ∧
      first = .receipt ⟨r.reservationId, .settled⟩ ∧
      db.Stores r fun row => row.state = .settled ∧ row.actualVcpuMs = some s.actualVcpuMs ∧
        row.terminalEvidenceDigest = some s.terminalEvidenceDigest
  | _ => True

variable {call : PgCall} {first : PgReply}

theorem PgCall.Answered.onward (answered : call.Answered db first) (onward : db.Onward db') :
    call.Answered db' first := by
  cases call with
  | reserve r clock =>
    obtain ⟨valid, bound, stores⟩ := answered
    exact ⟨valid, bound, stores.onward (fun _ _ _ h => h) onward⟩
  | activate r clock =>
    obtain ⟨valid, shape, stores⟩ := answered
    exact ⟨valid, shape, stores.onward (fun _ _ step => step.activated) onward⟩
  | cancel r clock =>
    obtain ⟨valid, shape, stores⟩ := answered
    exact ⟨valid, shape, stores.onward (fun _ _ step => step.cancelled) onward⟩
  | settle r s =>
    obtain ⟨valid, fits, shape, stores⟩ := answered
    refine ⟨valid, fits, shape, stores.onward ?_ onward⟩
    intro row later step settled
    rw [step.final (.inr settled.1)]
    exact settled
  | _ => trivial

/-! ## The first call -/

variable {held : PgLock → Prop} {d : Committed}

/-- **A call that answers with a receipt leaves it behind.** -/
theorem PgCall.exec_runs [SerdeJson] (external : call.external.isSome = true) :
    PgRuns false (fun _ _ _ => True) call (fun reply d => ∀ first, reply = .ok first →
      first.receipt?.isSome = true → call.Answered d.db first) held none call.exec d := by
  cases call with
  | reserve r clock =>
    refine .map _ (.weaken (fun res d leaves first answered receipt => ?_) (reserve_runs rfl))
    cases res with
    | error e => cases answered
    | ok value =>
      cases answered
      cases value with
      | admitted value => exact leaves value rfl
      | overCompute => cases receipt
      | baselineRequired => cases receipt
  | activate r clock =>
    refine .map _ (.weaken (fun res d leaves first answered _ => ?_)
      (externalTransition_runs (.inl rfl)))
    cases res with
    | error e => cases answered
    | ok value =>
      cases answered
      obtain ⟨valid, rfl, row, found, grant, active⟩ := leaves value rfl
      exact ⟨valid, rfl, row, found, grant, .inl active⟩
  | cancel r clock =>
    refine .map _ (.weaken (fun res d leaves first answered _ => ?_)
      (externalTransition_runs (.inr rfl)))
    cases res with
    | error e => cases answered
    | ok value =>
      cases answered
      obtain ⟨valid, rfl, stores⟩ := leaves value rfl
      exact ⟨valid, rfl, stores⟩
  | settle r s =>
    refine .map _ (.weaken (fun res d leaves first answered _ => ?_) (settle_runs rfl))
    cases res with
    | error e => cases answered
    | ok value =>
      cases answered
      obtain ⟨valid, fits, rfl, stores⟩ := leaves value rfl
      exact ⟨valid, fits, rfl, stores⟩
  | _ => cases external

theorem PgCall.exec_lasting [SerdeJson] (external : call.external.isSome = true) (d : Committed) :
    Safe pgStore lastingProtocol (fun _ _ _ => True) call noLocks none call.exec d :=
  (PgCall.exec_runs external).imp And.left id id id id fun _ _ _ => trivial

/-! ## The call made again -/

/-- The same call; the clock may have gone on. -/
def PgCall.Repeats : PgCall → PgCall → Prop
  | .reserve r _, .reserve again _ => again = r
  | .activate r _, .activate again _ => again = r
  | .cancel r _, .cancel again _ => again = r
  | .settle r s, .settle again s' => again = r ∧ s' = s
  | _, _ => False

/-- What a call answers that was answered `first` before, and found the tables as `start` and left
them as `now`: the same receipt, or a conflict. A reserve answers the reservation as it stood in
between, and that its input is invalid once the period is over. -/
inductive AnswersAgain (call : PgCall) (first : PgReply) (start now : Db) : Result PgReply → Prop
  | same : AnswersAgain call first start now (.ok first)
  | conflict : AnswersAgain call first start now (.error External.conflict)
  | reserved {r : ExternalComputeReservation} {clock : PgClock} {row seen later : ExternalRow}
      (reserves : call = .reserve r clock)
      (before : start.externalComputeReservations[r.reservationId]? = some row)
      (after : now.externalComputeReservations[r.reservationId]? = some later)
      (since : row.Later seen) (until_now : seen.Later later) (isOpen : seen.state.isOpen = true) :
      AnswersAgain call first start now (.ok (.admission (.admitted ⟨r.reservationId, seen.state⟩)))
  | past {r : ExternalComputeReservation} {clock : PgClock} (reserves : call = .reserve r clock)
      (ended : clock.currentPeriod ≠ r.periodKey ∨
        r.grantExpiresAtMs + r.maximumWallMs > clock.periodEndMs) :
      AnswersAgain call first start now (.error External.invalid)

theorem AnswersAgain.onward {start now now' : Db} {reply : Result PgReply}
    (answers : AnswersAgain call first start now reply) (onward : now.Onward now') :
    AnswersAgain call first start now' reply := by
  cases answers with
  | same => exact .same
  | conflict => exact .conflict
  | past reserves ended => exact .past reserves ended
  | reserved reserves before after since until_now isOpen =>
    obtain ⟨last, found, step⟩ := onward _ _ after
    exact .reserved reserves before found since (until_now.trans step) isOpen

section Again

variable {d : Committed} {first : PgReply} {r : ExternalComputeReservation} {clock : PgClock}

abbrev noWrites : Committed → List Write → Prop := fun _ _ => False

theorem reserve_again (clock : PgClock) (answered : (PgCall.reserve r clock).Answered d.db first) :
    PgEnds noWrites (fun res d' =>
        AnswersAgain (.reserve r clock) first d.db d'.db (res.map .admission))
      noLocks none (External.reserve r clock) d := by
  obtain ⟨⟨reserved, valid⟩, bound, row, found, grant, -⟩ := answered
  unfold External.reserve
  rw [valid]
  refine .start (.advisoryLock fun held₁ d₁ onward₁ => ?_)
  dsimp only
  split
  next late =>
    refine .rollback (.past rfl ?_)
    rcases late with period | beyond | late
    · exact .inl period
    · exact absurd beyond (Nat.not_lt_of_le bound)
    · exact .inr late
  · split
    · exact .rollback .conflict
    refine .peek (fun _ => rfl) (fun _ => rfl) fun d₂ onward₂ => ?_
    obtain ⟨seen, found₂, since⟩ := (onward₁.trans onward₂) _ row found
    have view : (Sql.ask (d₂.db.applyAll []) (.reservation r.reservationId)).1 = some seen := found₂
    rw [view]
    dsimp only
    split
    next same => exact .rollback (.reserved rfl found found₂ since (.refl seen) same.2)
    · exact .rollback .conflict

theorem transition_again {target : ExternalComputeState} {reserved : Nat}
    (valid : External.validate r = .ok reserved) {p : ExternalRow → Prop}
    (lasts : ∀ row later : ExternalRow, row.Later later → p row → p later)
    (turned : ∀ row, p row → row.state ≠ .prepared) (stores : d.db.Stores r p) :
    PgEnds noWrites (fun res _ => res = .ok ⟨r.reservationId, target⟩ ∨
      res = .error External.conflict)
      noLocks none (External.transition r target clock) d := by
  unfold External.transition
  rw [valid]
  refine .start (.advisoryLock fun held₁ d₁ onward₁ => ?_)
  refine .peek (fun _ => rfl) (fun _ => rfl) fun d₂ onward₂ => ?_
  obtain ⟨row, found, grant, now⟩ := stores.onward lasts (onward₁.trans onward₂)
  have view : (Sql.ask (d₂.db.applyAll []) (.reservation r.reservationId)).1 = some row := found
  rw [view]
  dsimp only
  rw [if_neg (not_not.mpr grant)]
  split
  · exact .rollback (.inl rfl)
  rw [if_pos (turned row now)]
  exact .rollback (.inr rfl)

theorem settle_again {s : ExternalComputeSettlement} {reserved : Nat}
    (valid : External.validate r = .ok reserved)
    (fits : (External.digest s.terminalEvidenceDigest && s.actualVcpuMs ≤ Word.maxI64) = true)
    (stores : d.db.Stores r fun row => row.state = .settled ∧
      row.actualVcpuMs = some s.actualVcpuMs ∧
      row.terminalEvidenceDigest = some s.terminalEvidenceDigest) :
    PgEnds noWrites (fun res _ => res = .ok ⟨r.reservationId, .settled⟩) noLocks none
      (External.settle r s) d := by
  unfold External.settle
  rw [valid]
  rw [if_pos fits]
  refine .start (.advisoryLock fun held₁ d₁ onward₁ => ?_)
  refine .peek (fun _ => rfl) (fun _ => rfl) fun d₂ onward₂ => ?_
  obtain ⟨row, found, grant, settled, same⟩ := stores.onward (fun row later step now => by
    rw [step.final (.inr now.1)]
    exact now) (onward₁.trans onward₂)
  have view : (Sql.ask (d₂.db.applyAll []) (.reservation r.reservationId)).1 = some row := found
  rw [view]
  dsimp only
  rw [if_neg (not_not.mpr grant), if_pos settled, if_pos same]
  exact .rollback rfl

end Again

variable {again : PgCall}

/-- **A call made again writes nothing**, and answers the same receipt or a conflict. -/
theorem PgCall.exec_again [SerdeJson] (answered : call.Answered d.db first)
    (repeats : call.Repeats again) :
    PgEnds noWrites (fun reply d' => AnswersAgain again first d.db d'.db reply) noLocks none
      again.exec d := by
  cases call with
  | reserve r clock =>
    cases again with
    | reserve r' clock' =>
      cases repeats
      exact .map _ (reserve_again clock' answered)
    | _ => cases repeats
  | activate r clock =>
    cases again with
    | activate r' clock' =>
      cases repeats
      obtain ⟨⟨reserved, valid⟩, rfl, stores⟩ := answered
      refine .map _ (.weaken ?_ (transition_again valid (fun _ _ step => step.activated) ?_ stores))
      · rintro res d (rfl | rfl)
        · exact .same
        · exact .conflict
      · intro row now prepared
        rw [prepared] at now
        rcases now with h | h <;> cases h
    | _ => cases repeats
  | cancel r clock =>
    cases again with
    | cancel r' clock' =>
      cases repeats
      obtain ⟨⟨reserved, valid⟩, rfl, stores⟩ := answered
      refine .map _ (.weaken ?_ (transition_again valid (fun _ _ step => step.cancelled) ?_ stores))
      · rintro res d (rfl | rfl)
        · exact .same
        · exact .conflict
      · intro row now prepared
        cases now.symm.trans prepared
    | _ => cases repeats
  | settle r s =>
    cases again with
    | settle r' s' =>
      obtain ⟨rfl, rfl⟩ := repeats
      obtain ⟨⟨reserved, valid⟩, fits, rfl, stores⟩ := answered
      refine .map _ (.weaken ?_ (settle_again valid fits stores))
      rintro res d rfl
      exact .same
    | _ => cases repeats
  | _ => cases repeats

/-! ## Over whole runs -/

def OnReservations : TxnEvent PgCall → Prop
  | .start _ call => call.external.isSome = true
  | _ => True

instance : (event : TxnEvent PgCall) → Decidable (OnReservations event)
  | .start _ call => inferInstanceAs (Decidable (call.external.isSome = true))
  | .step _ => .isTrue trivial
  | .abort _ => .isTrue trivial

/-- What a commit does to the reservations: one step in the life of each, and the accruals move by
what is newly settled. -/
structure Db.Lives (db db' : Db) : Prop where
  step : ∀ id : String, ExternalRow.Step db.externalComputeReservations[id]?
    db'.externalComputeReservations[id]?
  accrual : ∀ tenant periodKey, db'.accrued tenant periodKey + db.settledIn tenant periodKey =
    db.accrued tenant periodKey + db'.settledIn tenant periodKey

theorem Db.Lives.refl (db : Db) : db.Lives db := ⟨fun _ => .stay _, fun _ _ => rfl⟩

theorem PgMove.lives {strict : Bool} {ws : List Write} (external : call.external.isSome = true)
    (move : PgMove strict call held db ws) : db.Lives (db.applyAll ws) :=
  ⟨move.reservation_step, move.settles external⟩

/-- A session that has begun a call, and does not have the tenant's lock yet. -/
def PgCall.Begins [SerdeJson] (call : PgCall)
    (session : Session Sql Sql.Ans Write (Result PgReply)) : Prop :=
  session = ⟨call.exec, none⟩ ∨ ∃ k, call.exec = .vis .start k ∧ session = ⟨k (), some []⟩

variable {pub : Committed → List Write → Prop} {post : Result PgReply → Committed → Prop}
  {session : Session Sql Sql.Ans Write (Result PgReply)}

theorem PgCall.Begins.ends [SerdeJson] (begins : call.Begins session)
    (ends : PgEnds pub post noLocks none call.exec d) :
    PgEnds pub post noLocks session.writes session.prog d := by
  rcases begins with rfl | ⟨k, program, rfl⟩
  · exact ends
  · rw [program] at ends
    exact ends

abbrev LastingSound (s : PgSystem) : Prop :=
  System.Sound pgStore lastingProtocol (fun _ _ _ => True)
    (fun call : PgCall => call.external.isSome = true) (fun _ => True) s

namespace LastingSound

variable [SerdeJson] {s : PgSystem} {event : TxnEvent PgCall}

omit [SerdeJson] in
theorem meets (on : OnReservations event) :
    System.Meets (fun call : PgCall => call.external.isSome = true)
    (fun _ _ _ => True) s event := by
  cases event with
  | start i call => exact on
  | step i => exact fun _ _ _ _ => trivial
  | abort i => trivial

theorem step (sound : LastingSound s) (on : OnReservations event) :
    LastingSound (PgSystem.step s event) :=
  System.Sound.step sound (fun _ _ _ _ => trivial)
    (fun call d external _ => call.exec_lasting external d) (meets on)

theorem run {events : List (TxnEvent PgCall)} (sound : LastingSound s)
    (on : ∀ event ∈ events, OnReservations event) :
    LastingSound (events.foldl PgSystem.step s) := by
  induction events generalizing s with
  | nil => exact sound
  | cons event events ih =>
    exact ih (sound.step (on event List.mem_cons_self)) fun e h => on e (List.mem_cons_of_mem _ h)

theorem lives (sound : LastingSound s) (on : OnReservations event) :
    s.shared.db.Lives (PgSystem.step s event).shared.db := by
  have moves : (PgSystem.step s event).shared = s.shared ∨ ∃ call held,
      call.external.isSome = true ∧
        lastingProtocol.Move call held s.shared (PgSystem.step s event).shared :=
    System.Sound.moves sound (meets on)
  rcases moves with same | ⟨call, held, external, ws, publishes, move⟩
  · rw [same]
    exact .refl _
  · rw [publishes]
    exact move.lives external

end LastingSound

theorem PgCall.Repeats.external (repeats : call.Repeats again) : call.external.isSome = true := by
  cases call with
  | reserve | activate | cancel | settle => rfl
  | _ => cases repeats

variable {s : PgSystem} {i : Nat}

theorem PgCall.Begins.follows [SerdeJson] (begun : s.sessions i = some session)
    (begins : call.Begins session) (ends : PgEnds pub post noLocks none call.exec s.shared) :
    System.Follows pgStore lastingProtocol (fun _ _ _ => True) ⟨fun _ => pub, pub, post⟩ i s := by
  intro found same
  cases begun.symm.trans same
  exact .mono (fun _ h => h.elim) id (begins.ends ends)

theorem LastingSound.follows [SerdeJson] {duty : Duty PgLock Write Committed (Result PgReply)}
    (sound : LastingSound s)
    (follows : System.Follows pgStore lastingProtocol (fun _ _ _ => True) duty i s)
    (firm : duty.Firm lastingProtocol) (events : List (TxnEvent PgCall))
    (on : ∀ event ∈ events, OnReservations event) (quiet : ∀ event ∈ events, System.Quiet i event) :
    LastingSound (events.foldl PgSystem.step s) ∧
      System.Follows pgStore lastingProtocol (fun _ _ _ => True) duty i
      (events.foldl PgSystem.step s) ∧ Along PgSystem.step (fun s event => event = .step i →
        System.Published pgStore duty (s.Holds i) s.shared (PgSystem.step s event).shared)
        s events :=
  have along : Along PgSystem.step (fun _ event => True ∧ OnReservations event) s events :=
    .of_invariant (fun _ => True) (fun _ _ => trivial) on trivial
  System.Sound.follows_run (fun call d external _ => call.exec_lasting external d) firm
    (along.mono fun _ _ h => LastingSound.meets h.2) quiet sound follows

/-- **The life cycle of external reservations.** Along every run of reserve, activate, cancel and
settle calls, from any well-formed tables: every event is one step in the life of each reservation,
the accruals move by what is newly settled, and once a call was answered with a receipt, the same
call made again writes nothing and answers as `AnswersAgain` says. The call made again need not have
begun later: it is enough that it did not have the tenant's lock yet. -/
theorem reservation_life_cycle [SerdeJson] (start : Db) (wf : start.WellFormed)
    (events : List (TxnEvent PgCall)) (on : ∀ event ∈ events, OnReservations event) :
    Along PgSystem.step (fun s event => s.shared.db.Lives (PgSystem.step s event).shared.db)
        (System.initial ⟨start, []⟩) events ∧
      ∀ (before between after : List (TxnEvent PgCall)) (i j : Nat) (call again : PgCall)
        (session : Session Sql Sql.Ans Write (Result PgReply)) (first : PgReply),
        events = before ++ between ++ after →
        let s₁ : PgSystem := before.foldl PgSystem.step (System.initial ⟨start, []⟩)
        let s₂ := between.foldl PgSystem.step s₁
        let s₃ := after.foldl PgSystem.step s₂
        s₁.sessions i = some ⟨call.exec, none⟩ → (∀ event ∈ between, System.Quiet i event) →
        s₂.answer i = some (.ok first) → first.receipt?.isSome = true → call.Repeats again →
        s₂.sessions j = some session → again.Begins session →
        (∀ event ∈ after, System.Quiet j event) →
        call.Answered s₂.shared.db first ∧ Along PgSystem.step
            (fun s event => event = .step j → (PgSystem.step s event).shared = s.shared) s₂ after ∧
          ∀ reply, s₃.answer j = some reply →
            AnswersAgain again first s₂.shared.db s₃.shared.db reply := by
  have initial : LastingSound (System.initial ⟨start, []⟩) := System.Sound.initial wf trivial
  refine ⟨?_, ?_⟩
  · have along := Along.of_invariant (Q := OnReservations) LastingSound
      (fun sound on => sound.step on) on initial
    exact along.mono fun s event h => h.1.lives h.2
  · intro before between after i j call again session first split s₁ s₂ s₃ begun quiet answered
      receipt repeats waiting begins still
    subst split
    have sound₁ : LastingSound s₁ := initial.run fun e h => on e (by simp [h])
    -- the first call leaves its receipt behind
    have first_ends := PgCall.Begins.follows begun (.inl rfl)
      ((PgCall.exec_runs repeats.external).imp And.left id id (fun _ => trivial) (fun _ => trivial)
        fun _ _ h => h)
    obtain ⟨sound₂, first_run, -⟩ := sound₁.follows first_ends
      (fun _ _ _ rely leaves value answered receipt =>
        (leaves value answered receipt).onward rely.2)
      between (fun e h => on e (by simp [h])) quiet
    have left : call.Answered s₂.shared.db first := first_run.answer answered first rfl receipt
    -- the second finds it, however far others have come
    have again_ends := PgCall.Begins.follows waiting begins (PgCall.exec_again left repeats)
    obtain ⟨-, again_run, along⟩ := sound₂.follows again_ends
      (fun _ _ _ rely answers => answers.onward rely.2) after (fun e h => on e (by simp [h])) still
    refine ⟨left, along.mono fun s event published own => ?_, fun reply => again_run.answer⟩
    rcases published own with same | ⟨ws, impossible, -⟩
    · exact same
    · exact (or_self_iff.mp impossible).elim

section

attribute [local instance] refuseJson

theorem northwindStart_wellFormed : northwindStart.WellFormed := by
  have imports : (External.initializePeriod northwindBaseline).alone Db.empty =
      (.ok (), northwindStart) := Prod.ext (by decide +kernel) rfl
  obtain ⟨fits, imported⟩ := initializePeriod_alone imports
  rw [imported]
  exact (Db.Within.of_import 0 fits (Nat.le_refl _)).1

def northwindReserves : PgCall := .reserve northwindJob ⟨1000, 202401, 100000⟩

/-- A session is answered the reservation, and another begins the same call. -/
def reservedOnce : List (TxnEvent PgCall) :=
  List.replicate 7 (.step 1) ++ [.start 2 northwindReserves]

/-- Before the second goes on, a third activates the reservation. -/
def thenActivated : List (TxnEvent PgCall) :=
  alone 3 (.activate northwindJob ⟨1200, 202401, 100000⟩) ++ List.replicate 4 (.step 2)

def reservedSystem : PgSystem :=
  reservedOnce.foldl PgSystem.step
    ([.start 1 northwindReserves].foldl PgSystem.step (System.initial ⟨northwindStart, []⟩))

def preparedReply : PgReply := .admission (.admitted ⟨northwindJob.reservationId, .prepared⟩)

def activeReply : PgReply := .admission (.admitted ⟨northwindJob.reservationId, .active⟩)

theorem reservation_life_cycle_northwind :
    Along PgSystem.step (fun s event => s.shared.db.Lives (PgSystem.step s event).shared.db)
        (System.initial ⟨northwindStart, []⟩)
        ([.start 1 northwindReserves] ++ reservedOnce ++ thenActivated) ∧ Along PgSystem.step
        (fun s event => event = .step 2 → (PgSystem.step s event).shared = s.shared) reservedSystem
        thenActivated ∧ AnswersAgain northwindReserves preparedReply reservedSystem.shared.db
        (thenActivated.foldl PgSystem.step reservedSystem).shared.db (.ok activeReply) := by
  obtain ⟨lives, again⟩ := reservation_life_cycle northwindStart northwindStart_wellFormed
    ([.start 1 northwindReserves] ++ reservedOnce ++ thenActivated) (by decide)
  have waiting : reservedSystem.sessions 2 = some ⟨northwindReserves.exec, none⟩ := by
    have idle : ((List.replicate 7 (.step 1)).foldl PgSystem.step
        ([.start 1 northwindReserves].foldl PgSystem.step
          (System.initial ⟨northwindStart, []⟩))).sessions 2 = none := by
      refine Option.isNone_iff_eq_none.mp ?_
      decide +kernel
    unfold reservedSystem reservedOnce
    rw [List.foldl_append]
    exact System.start_sessions pgStore idle
  obtain ⟨-, still, answers⟩ := again [.start 1 northwindReserves] reservedOnce thenActivated 1 2
    northwindReserves northwindReserves _ preparedReply rfl rfl (by decide)
    (by decide +kernel) rfl rfl waiting (.inl rfl) (by decide)
  exact ⟨lives, still, answers (.ok activeReply) (by decide +kernel)⟩

/-- The repeated reserve is answered with neither the first receipt nor a conflict. -/
theorem reserve_repeated_activated :
    (∀ event ∈ [.start 1 northwindReserves] ++ reservedOnce ++ thenActivated,
      OnReservations event) ∧
      northwindReserves.Repeats northwindReserves ∧
      reservedSystem.answer 1 = some (.ok preparedReply) ∧
      (thenActivated.foldl PgSystem.step reservedSystem).answer 2 = some (.ok activeReply) ∧
      activeReply ≠ preparedReply := by
  refine ⟨by decide, rfl, ?_, ?_, by decide⟩
  · decide +kernel
  · decide +kernel

end

end CorelinkRunners
