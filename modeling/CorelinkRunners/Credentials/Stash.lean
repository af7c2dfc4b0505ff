import CorelinkRunners.Containment.Budget
import CorelinkRunners.Kit.Calls

/-!
# The credential stash

A `CredStashDO` keeps the credential of one lease for the holder of its ticket. A session that has
ended closes the stash until a deadline; the tombstone goes with the alarm of that time, and no
stash that comes late can open it before.

The calls are serialized, and each can fail or be cut at any of its effects, which all take time.
-/

namespace CorelinkRunners.Credentials.Stash

open Kit
open Containment.Budget (isSafeInteger)

structure StashRecord (Cred : Type) where
  ticket : String
  cred : Cred
  expiresMs : Int

/-- The alarm is left out: alarms come at any time. -/
structure Storage (Cred : Type) where
  record : Option (StashRecord Cred) := none
  closedUntilMs : Option Int := none
  clock : Int := 0
  /-- The tombstones that were ever written. -/
  tombstones : List Int := []

inductive Effect (Cred : Type)
  | getRecord
  | getClosed
  | now
  | putRecord (record : StashRecord Cred)
  | putClosed (untilMs : Int)
  | deleteRecord
  | deleteAll
  | setAlarm (atMs : Int)
  | deleteAlarm

variable {Cred : Type}

abbrev Ans : Effect Cred → Type
  | .getRecord => Option (StashRecord Cred)
  | .getClosed => Option Int
  | .now => Int
  | _ => Unit

abbrev Method (Cred A : Type) : Type := Kit.Call (Effect Cred) Ans String A

def await (e : Effect Cred) : Method Cred (Ans e) := Call.await e

/-! ## Calls -/

def stashCredential (ticket : String) (cred : Cred) (ttlMs : Int)
    (absoluteExpiresAtMs : Option Int) : Method Cred String := do
  let existing ← await .getRecord
  let closed ← await .getClosed
  let now ← await .now
  if absoluteExpiresAtMs.any fun deadline => !isSafeInteger deadline || decide (deadline ≤ now) then
    throw "credential deadline must be finite and in the future"
  if closed.isSome then throw "credential lease is closed"
  match existing.filter fun record => decide (now ≤ record.expiresMs) with
  | some record =>
    match absoluteExpiresAtMs.filter fun deadline => decide (deadline < record.expiresMs) with
    | none => return record.ticket
    | some deadline =>
      await (.putRecord { record with expiresMs := deadline })
      await (.setAlarm deadline)
      return record.ticket
  | none =>
    let expiresMs := absoluteExpiresAtMs.elim (now + ttlMs) (min (now + ttlMs))
    await (.putRecord ⟨ticket, cred, expiresMs⟩)
    await (.setAlarm expiresMs)
    return ticket

def wipeCredential (absoluteExpiresAtMs : Option Int) : Method Cred Unit := do
  match absoluteExpiresAtMs with
  | none =>
    await .deleteAll
    await .deleteAlarm
  | some deadline =>
    if !isSafeInteger deadline || decide (deadline < 0) then throw "invalid credential deadline"
    let existing ← await .getClosed
    let untilMs := max (existing.getD 0) deadline
    await (.putClosed untilMs)
    await .deleteRecord
    let now ← await .now
    await (.setAlarm (max (now + 1) untilMs))

def expireCredential : Method Cred Unit := do
  let closedUntil ← await .getClosed
  let record ← await .getRecord
  let currentDeadline := max (closedUntil.getD 0) (record.elim 0 (·.expiresMs))
  let now ← await .now
  if now < currentDeadline then await (.setAlarm currentDeadline)
  else await .deleteAll

structure Redeemed (Cred : Type) where
  status : Nat
  cred : Option Cred

def redeem (ticket : String) : Method Cred (Redeemed Cred) := do
  if (← await .getClosed).isSome then return ⟨404, none⟩
  match ← await .getRecord with
  | none => return ⟨404, none⟩
  | some record =>
    let now ← await .now
    if record.expiresMs < now then
      await .deleteAll
      return ⟨410, none⟩
    return if ticket = record.ticket then ⟨200, some record.cred⟩ else ⟨401, none⟩

/-! ## Runs -/

def answer (s : Storage Cred) : (e : Effect Cred) → Ans e
  | .getRecord => s.record
  | .getClosed => s.closedUntilMs
  | .now => s.clock
  | .putRecord _ | .putClosed _ | .deleteRecord | .deleteAll | .setAlarm _ | .deleteAlarm => ()

def Storage.apply (s : Storage Cred) : Effect Cred → Storage Cred
  | .putRecord record => { s with record := some record }
  | .putClosed untilMs =>
    { s with closedUntilMs := some untilMs, tombstones := untilMs :: s.tombstones }
  | .deleteRecord => { s with record := none }
  | .deleteAll => { s with record := none, closedUntilMs := none }
  | .getRecord | .getClosed | .now | .setAlarm _ | .deleteAlarm => s

def Storage.later (s : Storage Cred) (elapsed : Nat) : Storage Cred :=
  { s with clock := s.clock + elapsed }

def host : Host (Effect Cred) Ans Nat (Storage Cred) where
  note _ s := s
  perform e elapsed s := (answer (s.later elapsed) e, (s.later elapsed).apply e)

inductive Request (Cred : Type)
  | stash (ticket : String) (cred : Cred) (ttlMs : Int) (absoluteExpiresAtMs : Option Int)
  | redeem (ticket : String)
  | alarm
  | wipe (absoluteExpiresAtMs : Option Int)

def Request.method : Request Cred → Method Cred Unit
  | stash ticket cred ttlMs absoluteExpiresAtMs => do
    discard (stashCredential ticket cred ttlMs absoluteExpiresAtMs)
  | redeem ticket => do discard (Stash.redeem ticket)
  | alarm => expireCredential
  | wipe absoluteExpiresAtMs => wipeCredential absoluteExpiresAtMs

structure Event (Cred : Type) where
  request : Request Cred
  fates : List (Fate Nat String)

def Storage.step (s : Storage Cred) (event : Event Cred) : Storage Cred :=
  (host.exec event.request.method.run event.fates s).2

def run (events : List (Event Cred)) : Storage Cred := events.foldl Storage.step {}

/-! ## Closed stays closed -/

/-- **A tombstone is there until its time has come.** -/
def Closed (s : Storage Cred) : Prop :=
  ∀ untilMs ∈ s.tombstones, untilMs ≤ s.clock ∨ ∃ later, s.closedUntilMs = some later ∧
    untilMs ≤ later

/-- The effect leaves the tombstones alone. -/
def Effect.isPlain : Effect Cred → Bool
  | .putClosed _ | .deleteAll => false
  | _ => true

section Rules

variable {s : Storage Cred} {e : Effect Cred} {A : Type} {Inv : Storage Cred → Prop}
  {Q : Except String A → Storage Cred → Prop} {f : Ans e → Method Cred A}

theorem meets_then (start : Inv s) (keeps : ∀ elapsed, Inv ((s.later elapsed).apply e))
    (thrown : ∀ error t, Inv t → Q (.error error) t)
    (next : ∀ elapsed, host.Meets Inv Q (f (answer (s.later elapsed) e)).run
      ((s.later elapsed).apply e)) : host.Meets Inv Q (await e >>= f).run s := by
  have stays (applied : Option Nat) : Inv (host.unanswered e applied s) := by
    cases applied with
    | none => exact start
    | some elapsed => exact keeps elapsed
  exact .seq (.await stays next fun applied error => thrown error _ (stays applied))

theorem Storage.clock_le_later (s : Storage Cred) (elapsed : Nat) :
    s.clock ≤ (s.later elapsed).clock :=
  Int.le_add_of_nonneg_right (Int.natCast_nonneg _)

theorem Closed.plain (inv : Closed s) (plain : e.isPlain = true) (elapsed : Nat) :
    Closed ((s.later elapsed).apply e) := by
  have later : Closed (s.later elapsed) := fun untilMs mem =>
    (inv untilMs mem).imp_left fun due => due.trans (s.clock_le_later elapsed)
  cases e with
  | putClosed | deleteAll => cases plain
  | _ => exact later

theorem Closed.goes (inv : Closed s) (plain : e.isPlain = true)
    (thrown : ∀ error t, Closed t → Q (.error error) t)
    (next : ∀ elapsed, Closed ((s.later elapsed).apply e) →
      host.Meets Closed Q (f (answer (s.later elapsed) e)).run ((s.later elapsed).apply e)) :
    host.Meets Closed Q (await e >>= f).run s :=
  meets_then inv (inv.plain plain) thrown fun elapsed => next elapsed (inv.plain plain elapsed)

end Rules

section Calls

variable {s : Storage Cred}

def Kept {A : Type} : Except String A → Storage Cred → Prop := fun _ s => Closed s

theorem Kept.thrown {A : Type} (error : String) (s : Storage Cred) (inv : Closed s) :
    Kept (.error error : Except String A) s := inv

theorem stash_meets (inv : Closed s) (ticket : String) (cred : Cred) (ttlMs : Int)
    (absolute : Option Int) :
    host.Meets Closed Kept (stashCredential ticket cred ttlMs absolute).run s := by
  have writes {t : Storage Cred} (inv : Closed t) (record : StashRecord Cred) (given : String) :
      host.Meets Closed Kept (ExceptT.run (do
        await (.putRecord record)
        await (.setAlarm record.expiresMs)
        return given : Method Cred String)) t :=
    inv.goes rfl Kept.thrown fun _ inv => inv.goes rfl Kept.thrown fun _ inv => inv
  refine inv.goes rfl Kept.thrown fun _ inv => inv.goes rfl Kept.thrown fun _ inv => ?_
  refine inv.goes rfl Kept.thrown fun _ inv => .check inv fun _ => .check inv fun _ => ?_
  split
  · split
    · exact inv
    · exact writes inv _ _
  · exact writes inv _ _

theorem wipe_meets (inv : Closed s) (deadline : Int) :
    host.Meets Closed Kept (wipeCredential (some deadline)).run s := by
  refine .check inv fun _ => inv.goes rfl Kept.thrown fun elapsed inv => ?_
  have renewed (more : Nat) : Closed (((s.later elapsed).later more).apply
      (.putClosed (max (s.closedUntilMs.getD 0) deadline))) := by
    intro untilMs mem
    rcases List.mem_cons.mp mem with rfl | old
    · exact .inr ⟨_, rfl, le_rfl⟩
    rcases inv.plain (e := .now) rfl more untilMs old with due | ⟨later, is, le⟩
    · exact .inl due
    · have is : s.closedUntilMs = some later := is
      exact .inr ⟨_, rfl, le.trans (by simp [is])⟩
  refine meets_then inv renewed Kept.thrown fun more =>
    (renewed more).goes rfl Kept.thrown fun _ inv => ?_
  exact inv.goes rfl Kept.thrown fun _ inv => inv.goes (f := pure) rfl Kept.thrown fun _ inv => inv

/-- Everything is deleted where no tombstone has to stay. -/
theorem Closed.deletes (inv : Closed s) (done : ∀ untilMs ∈ s.closedUntilMs, untilMs ≤ s.clock)
    (elapsed : Nat) : Closed ((s.later elapsed).apply .deleteAll) := by
  intro untilMs mem
  have grows := s.clock_le_later elapsed
  rcases inv untilMs mem with due | ⟨later, is, le⟩
  · exact .inl (due.trans grows)
  · exact .inl ((le.trans (done later is)).trans grows)

theorem expire_meets (inv : Closed s) :
    host.Meets Closed Kept (expireCredential : Method Cred Unit).run s := by
  refine inv.goes rfl Kept.thrown fun _ inv => inv.goes rfl Kept.thrown fun _ inv => ?_
  refine inv.goes rfl Kept.thrown fun _ inv => ?_
  split
  · exact inv.goes (f := pure) rfl Kept.thrown fun _ inv => inv
  next due =>
    have deleted := inv.deletes fun untilMs is => by
      refine le_trans ?_ (not_lt.mp due)
      have is : s.closedUntilMs = some untilMs := is
      simp [answer, Storage.later, Storage.apply, is]
    exact meets_then (f := pure) inv deleted Kept.thrown deleted

/-- What a redemption that hands a credential out has found. -/
def Served (s : Storage Cred) (ticket : String) : Except String (Redeemed Cred) →
    Storage Cred → Prop
  | .ok ⟨200, some cred⟩, t => Closed t ∧ s.closedUntilMs = none ∧ s.clock ≤ t.clock ∧
      ∃ record, s.record = some record ∧ record.ticket = ticket ∧ record.cred = cred ∧
        t.clock ≤ record.expiresMs
  | _, t => Closed t

theorem redeem_meets (inv : Closed s) (ticket : String) :
    host.Meets Closed (Served s ticket) (redeem ticket).run s := by
  have thrown (error : String) (t : Storage Cred) (inv : Closed t) :
    Served s ticket (.error error) t := inv
  refine inv.goes rfl thrown fun first inv => ?_
  split
  · exact inv
  next unclosed =>
    have unclosed : s.closedUntilMs = none := by simpa [answer, Storage.later] using unclosed
    refine inv.goes rfl thrown fun second inv => ?_
    split
    · exact inv
    next record found =>
      refine inv.goes rfl thrown fun third inv => ?_
      split
      · have deleted := inv.deletes fun untilMs is => by cases unclosed.symm.trans is
        exact meets_then inv deleted thrown deleted
      next live =>
        split
        next same =>
          refine ⟨inv, unclosed, ?_, record, found, same.symm, rfl, not_lt.mp live⟩
          exact (s.clock_le_later first).trans ((Storage.clock_le_later _ second).trans
            (Storage.clock_le_later _ third))
        · exact inv

theorem method_meets (inv : Closed s) {request : Request Cred} (deadline : request ≠ .wipe none) :
    host.Meets Closed Kept request.method.run s := by
  have quiet {A : Type} {p : Method Cred A} {Q : Except String A → Storage Cred → Prop}
      (meets : host.Meets Closed Q p.run s) (closed : ∀ x t, Q x t → Closed t) :
      host.Meets Closed Kept (discard p : Method Cred Unit).run s := by
    refine .seq (meets.mono fun x t h => ?_)
    cases x with
    | ok => exact closed _ _ h
    | error => exact closed _ _ h
  cases request with
  | stash ticket cred ttlMs absolute =>
    exact quiet (stash_meets inv ticket cred ttlMs absolute) fun _ _ h => h
  | redeem ticket =>
    refine quiet (redeem_meets inv ticket) fun x t h => ?_
    unfold Served at h
    split at h
    · exact h.1
    · exact h
  | alarm => exact expire_meets inv
  | wipe absolute =>
    cases absolute with
    | none => exact absurd rfl deadline
    | some untilMs => exact wipe_meets inv untilMs

theorem run_closed {events : List (Event Cred)}
    (deadlines : ∀ event ∈ events, event.request ≠ .wipe none) :
    Closed (run events) := by
  have start : Closed ({} : Storage Cred) := by
    intro untilMs mem
    cases mem
  unfold run
  generalize ({} : Storage Cred) = s at start
  induction events generalizing s with
  | nil => exact start
  | cons event rest ih =>
    have kept := ((method_meets start (deadlines event List.mem_cons_self)).exec start
      event.fates).1
    exact ih (fun e mem => deadlines e (List.mem_cons_of_mem _ mem)) _ kept

end Calls

/-- **A closed stash stays closed**, after any run of calls in which every wipe has a deadline,
wherever they fail or are cut: a credential is handed out to its ticket only, before its own
deadline, and not before the deadline of any tombstone that was ever written. -/
theorem closed_stays_closed (events : List (Event Cred))
    (deadlines : ∀ event ∈ events, event.request ≠ .wipe none) (fates : List (Fate Nat String))
    (ticket : String) (cred : Cred) (t : Storage Cred)
    (ended : host.exec (redeem ticket).run fates (run events) = (some (.ok ⟨200, some cred⟩), t)) :
    (∃ record, (run events).record = some record ∧ record.ticket = ticket ∧ record.cred = cred ∧
      t.clock ≤ record.expiresMs) ∧ ∀ untilMs ∈ (run events).tombstones, untilMs ≤ t.clock := by
  have inv := run_closed deadlines
  have served := ((redeem_meets inv ticket).exec inv fates).2
  rw [ended] at served
  obtain ⟨-, unclosed, later, record⟩ := served _ rfl
  refine ⟨record, fun untilMs mem => ?_⟩
  rcases inv untilMs mem with due | ⟨_, closed, -⟩
  · exact due.trans later
  · cases unclosed.symm.trans closed

/-- A session ends at once and its tombstone is good until 5; the alarm comes at 7, and the next
stash is redeemed. -/
def reopened : List (Event Unit) :=
  [⟨.wipe (some 5), [.done 1, .done 1, .done 1, .done 1, .done 1]⟩,
    ⟨.alarm, [.done 1, .done 1, .done 0, .done 0]⟩,
    ⟨.stash "ticket" () 9 none, [.done 1, .done 1, .done 1, .done 1, .done 1]⟩]

theorem closed_stays_closed_reopened :
    (∃ record, (run reopened).record = some record ∧ record.ticket = "ticket" ∧ record.cred = () ∧
      (15 : Int) ≤ record.expiresMs) ∧ ∀ untilMs ∈ (run reopened).tombstones,
      untilMs ≤ (15 : Int) :=
  closed_stays_closed reopened (by simp [reopened]) [.done 1, .done 1, .done 1] "ticket" ()
    ⟨some ⟨"ticket", (), 19⟩, none, 15, [5]⟩ rfl

/-! ## A stash made again -/

section Again

variable {s : Storage Cred} {record : StashRecord Cred}

/-- The record that was found keeps its ticket and its credential, and its deadline is not put
off. -/
def Preserved (record : StashRecord Cred) (t : Storage Cred) : Prop :=
  t.clock ≤ record.expiresMs → ∃ kept, t.record = some kept ∧ kept.ticket = record.ticket ∧
    kept.cred = record.cred ∧ kept.expiresMs ≤ record.expiresMs

def Answered (record : StashRecord Cred) (x : Except String String) (t : Storage Cred) : Prop :=
  Preserved record t ∧ (t.clock ≤ record.expiresMs → ∀ given, x = .ok given → given = record.ticket)

theorem stash_preserves (found : s.record = some record) (ticket : String) (cred : Cred)
    (ttlMs : Int) (absolute : Option Int) : host.Meets (Preserved record) (Answered record)
      (stashCredential ticket cred ttlMs absolute).run s := by
  have same {t : Storage Cred} (at_ : t.record = some record) : Preserved record t :=
    fun _ => ⟨record, at_, rfl, rfl, le_rfl⟩
  have thrown (error : String) (t : Storage Cred) (kept : Preserved record t) :
      Answered record (.error error) t := ⟨kept, fun _ _ h => by cases h⟩
  refine meets_then (same found) (fun _ => same found) thrown fun _ => ?_
  refine meets_then (same found) (fun _ => same found) thrown fun _ => ?_
  refine meets_then (same found) (fun _ => same found) thrown fun _ => ?_
  refine .check (thrown _ _ (same found)) fun _ => .check (thrown _ _ (same found)) fun _ => ?_
  split
  next found' =>
    obtain ⟨is, -⟩ := Option.filter_eq_some_iff.mp found'
    cases found.symm.trans is
    split
    · exact ⟨same found, fun _ _ h => by cases h; rfl⟩
    next deadline nearer =>
      have sooner := of_decide_eq_true (Option.filter_eq_some_iff.mp nearer).2
      have kept {t : Storage Cred} (at_ : t.record = some { record with expiresMs := deadline }) :
          Preserved record t := fun _ => ⟨_, at_, rfl, rfl, sooner.le⟩
      refine meets_then (same found) (fun _ => kept rfl) thrown fun _ => ?_
      refine meets_then (kept rfl) (fun _ => kept rfl) thrown fun _ => ?_
      exact ⟨kept rfl, fun _ _ h => by cases h; rfl⟩
  next expired =>
    -- a record that has expired is replaced
    have late := Option.filter_eq_none_iff.mp expired record found
    simp only [decide_eq_true_eq, not_le] at late
    have gone {t : Storage Cred} (after : record.expiresMs < t.clock) : Preserved record t :=
      fun lives => absurd lives (not_le.mpr after)
    have later {t : Storage Cred} (after : record.expiresMs < t.clock) (elapsed : Nat) :
        record.expiresMs < (t.later elapsed).clock := after.trans_le (t.clock_le_later elapsed)
    refine meets_then (same found) (fun n => gone ?_) thrown fun n =>
      meets_then (gone ?_) (fun m => gone ?_) thrown fun m =>
        ⟨gone ?_, fun lives => absurd lives ?_⟩
    · exact later late n
    · exact later late n
    · exact later (later late n) m
    · exact later (later late n) m
    · exact not_le.mpr (later (later late n) m)

/-- **A stash made again**, wherever it fails or is cut: as long as the record that it found lives,
the record keeps its ticket and its credential, its deadline is not put off, and its ticket is
answered. -/
theorem stash_again (found : s.record = some record) (ticket : String) (cred : Cred) (ttlMs : Int)
    (absolute : Option Int) (fates : List (Fate Nat String)) :
    let ended := host.exec (stashCredential ticket cred ttlMs absolute).run fates s
    ended.2.clock ≤ record.expiresMs → (∃ kept, ended.2.record = some kept ∧
      kept.ticket = record.ticket ∧ kept.cred = record.cred ∧ kept.expiresMs ≤ record.expiresMs) ∧
      ∀ given, ended.1 = some (.ok given) → given = record.ticket := by
  intro ended lives
  obtain ⟨kept, answers⟩ := (stash_preserves found ticket cred ttlMs absolute).exec
    (fun _ => ⟨record, found, rfl, rfl, le_rfl⟩) fates
  exact ⟨kept lives, fun given is => (answers _ is).2 lives given rfl⟩

end Again

/-- A second stash with an earlier deadline is cut right after it was written. -/
theorem stash_again_cut :
    let ended := host.exec (stashCredential "second" () 9 (some 7)).run
      [.done 1, .done 1, .done 1, .cut (some 1)] { record := some ⟨"first", (), 9⟩ }
    ended.2.clock = 4 ∧ ended.2.record = some ⟨"first", (), 7⟩ ∧
      ∃ kept, ended.2.record = some kept ∧ kept.ticket = "first" ∧ kept.cred = () ∧
      kept.expiresMs ≤ 9 :=
  ⟨rfl, rfl, (stash_again (s := { record := some ⟨"first", (), 9⟩ }) rfl "second" () 9 (some 7)
    [.done 1, .done 1, .done 1, .cut (some 1)] (by decide)).1⟩

end CorelinkRunners.Credentials.Stash
