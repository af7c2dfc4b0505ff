import Mathlib

/-!
# The admission budget

While the slot authority cannot be asked, `spendAdmissionBudget` lets five admissions through in any
sixty seconds. It keeps the spends that were in the window of its last write, and nothing else; a
write that fails may have taken effect.

A run remembers every call with its verdict and with what it put. The record is a function of the
clock values of the puts that took effect (`Sound.record`), and those of the admitted calls are
among them.
-/

namespace CorelinkRunners.Containment.Budget

/-! ## The code -/

inductive Clock
  | integer (n : Int)
  | other

structure AdmissionBudgetRecord where
  spendsMs : List Int
  lastObservedMs : Int

inductive AdmissionBudgetVerdict
  | admitted
  | exhausted
  | unreadable
  deriving DecidableEq

def windowMs : Int := 60000

def maxSpends : Nat := 5

def isSafeInteger (n : Int) : Bool := decide (-9007199254740991 ≤ n ∧ n ≤ 9007199254740991)

def inOrder (nowMs last : Int) : Option Int → List Int → Bool
  | _, [] => true
  | previous, timestamp :: rest =>
    isSafeInteger timestamp && decide (0 ≤ timestamp ∧ timestamp ≤ nowMs ∧ timestamp ≤ last) &&
      previous.all (fun before => decide (before ≤ timestamp)) &&
      inOrder nowMs last (some timestamp) rest

def readable (stored : AdmissionBudgetRecord) (nowMs : Int) : Bool :=
  decide (stored.spendsMs.length ≤ maxSpends) && isSafeInteger stored.lastObservedMs &&
    decide (0 ≤ stored.lastObservedMs ∧ stored.lastObservedMs ≤ nowMs) &&
    inOrder nowMs stored.lastObservedMs none stored.spendsMs

def activeSpends (priorSpends : List Int) (nowMs : Int) : List Int :=
  priorSpends.filter fun timestamp => nowMs - windowMs < timestamp

inductive Fate
  | readFails
  | writes
  | writeFails (applied : Bool)

structure Call where
  now : Clock
  fate : Fate

/-- The verdict, and the record that was put, if a put took effect. -/
def spendAdmissionBudget (stored : Option AdmissionBudgetRecord) (call : Call) :
    AdmissionBudgetVerdict × Option AdmissionBudgetRecord :=
  match call.now, call.fate with
  | .other, _ | _, .readFails => (.unreadable, none)
  | .integer nowMs, fate =>
    if !isSafeInteger nowMs || decide (nowMs < 0) then (.unreadable, none)
    else if stored.any (fun record => !readable record nowMs) then (.unreadable, none)
    else
      let active := activeSpends (stored.elim [] (·.spendsMs)) nowMs
      if maxSpends ≤ active.length then (.exhausted, none)
      else
        let next : AdmissionBudgetRecord := ⟨active ++ [nowMs], nowMs⟩
        match fate with
        | .writes => (.admitted, some next)
        | .writeFails applied => (.unreadable, if applied then some next else none)
        | .readFails => (.unreadable, none)

/-! ## Runs -/

/-- The clock value of a call, where it is an integer. -/
def Clock.value : Clock → Option Int
  | .integer n => some n
  | .other => none

/-- One call of a run: what was asked, what it was answered, and the record it put. -/
structure Spend where
  call : Call
  verdict : AdmissionBudgetVerdict
  put : Option AdmissionBudgetRecord

/-- The storage and every call made on it, whatever it was answered. -/
structure Run where
  stored : Option AdmissionBudgetRecord := none
  spends : List Spend := []

def Run.step (r : Run) (call : Call) : Run :=
  let answer := spendAdmissionBudget r.stored call
  { stored := answer.2.or r.stored
    spends := r.spends ++ [⟨call, answer.1, answer.2⟩] }

def run (calls : List Call) : Run := calls.foldl Run.step {}

/-- The clock value of a call whose put took effect. -/
def Spend.putAt (s : Spend) : Option Int := if s.put.isSome then s.call.now.value else none

/-- The clock value of a call that was admitted. -/
def Spend.admittedAt (s : Spend) : Option Int :=
  if s.verdict = .admitted then s.call.now.value else none

def Run.puts (r : Run) : List Int := r.spends.filterMap Spend.putAt

def Run.admitted (r : Run) : List Int := r.spends.filterMap Spend.admittedAt

def inWindow (t clock : Int) : Bool := decide (t - windowMs < clock ∧ clock ≤ t)

/-- **The record is what the puts of its window left.** -/
structure Sound (r : Run) : Prop where
  sorted : r.puts.Pairwise (· ≤ ·)
  safe : ∀ p ∈ r.puts, isSafeInteger p = true ∧ 0 ≤ p
  fresh : r.stored = none → r.puts = []
  record : ∀ record, r.stored = some record → r.puts.getLast? = some record.lastObservedMs ∧
    record.spendsMs = activeSpends r.puts record.lastObservedMs
  few : ∀ t, r.puts.countP (inWindow t) ≤ maxSpends
  among : r.admitted.Sublist r.puts
  clocked : ∀ s ∈ r.spends, s.verdict = .admitted → ∃ nowMs, s.call.now = .integer nowMs

variable {r : Run} {record : AdmissionBudgetRecord} {nowMs : Int}

theorem inOrder_of_sorted {last : Int} {spends : List Int} {previous : Option Int}
    (sorted : spends.Pairwise (· ≤ ·))
    (safe : ∀ t ∈ spends, isSafeInteger t = true ∧ 0 ≤ t ∧ t ≤ last) (le : last ≤ nowMs)
    (before : ∀ p ∈ previous, ∀ t ∈ spends, p ≤ t) : inOrder nowMs last previous spends = true := by
  induction spends generalizing previous with
  | nil => rfl
  | cons t rest ih =>
    rw [List.pairwise_cons] at sorted
    obtain ⟨isSafe, positive, upTo⟩ := safe t List.mem_cons_self
    have later : inOrder nowMs last (some t) rest = true :=
      ih sorted.2 (fun t mem => safe t (.tail _ mem)) (by simpa using sorted.1)
    have after : previous.all (fun before => decide (before ≤ t)) = true := by
      cases previous with
      | none => rfl
      | some p => simpa using before p rfl t List.mem_cons_self
    simp [inOrder, isSafe, positive, upTo, upTo.trans le, after, later]

namespace Sound

variable (h : Sound r)
include h

theorem le_last (found : r.stored = some record) {p : Int} (mem : p ∈ r.puts) :
    p ≤ record.lastObservedMs := by
  obtain ⟨init, split⟩ := List.getLast?_eq_some_iff.mp (h.record record found).1
  have sorted := h.sorted
  rw [split] at sorted mem
  rcases List.mem_append.mp mem with old | last
  · exact (List.pairwise_append.mp sorted).2.2 p old _ (List.mem_singleton_self _)
  · exact (List.mem_singleton.mp last).le

/-- **A record is readable from its own time on.** -/
theorem readable (found : r.stored = some record) (le : record.lastObservedMs ≤ nowMs) :
    readable record nowMs = true := by
  obtain ⟨last, spends⟩ := h.record record found
  have isSafe := h.safe _ (List.mem_of_getLast? last)
  have few : record.spendsMs.length ≤ maxSpends := by
    refine le_trans (le_of_eq ?_) (h.few record.lastObservedMs)
    rw [spends, activeSpends, ← List.countP_eq_length_filter]
    exact List.countP_congr fun p mem => by simp [inWindow, h.le_last found mem]
  have ordered : inOrder nowMs record.lastObservedMs none record.spendsMs = true := by
    refine inOrder_of_sorted ?_ (fun t mem => ?_) le nofun
    · exact spends ▸ h.sorted.filter _
    · have put := List.mem_of_mem_filter (spends ▸ mem)
      exact ⟨(h.safe t put).1, (h.safe t put).2, h.le_last found put⟩
  simp [Budget.readable, few, isSafe, le, ordered]

variable (after : ∀ record, r.stored = some record → record.lastObservedMs ≤ nowMs)
include after

theorem le_now {p : Int} (mem : p ∈ r.puts) : p ≤ nowMs := by
  cases found : r.stored with
  | none =>
    rw [h.fresh found] at mem
    nomatch mem
  | some record => exact (h.le_last found mem).trans (after record found)

theorem active : activeSpends (r.stored.elim [] (·.spendsMs)) nowMs =
    activeSpends r.puts nowMs := by
  cases found : r.stored with
  | none => rw [h.fresh found]; rfl
  | some record =>
    have := after record found
    simp only [activeSpends, Option.elim_some, (h.record record found).2, List.filter_filter]
    refine List.filter_congr fun p _ => ?_
    by_cases new : nowMs - windowMs < p
    · have : record.lastObservedMs - windowMs < p := by omega
      simp [new, this]
    · simp [new]

end Sound

inductive Spends (r : Run) (call : Call) :
    AdmissionBudgetVerdict × Option AdmissionBudgetRecord → Prop
  | refused : Spends r call (.unreadable, none)
  | exhausted {nowMs : Int} (clock : call.now = .integer nowMs)
      (full : maxSpends ≤ r.puts.countP (inWindow nowMs)) : Spends r call (.exhausted, none)
  | put {nowMs : Int} {verdict : AdmissionBudgetVerdict} (clock : call.now = .integer nowMs)
      (safe : isSafeInteger nowMs = true ∧ 0 ≤ nowMs)
      (after : ∀ record, r.stored = some record → record.lastObservedMs ≤ nowMs)
      (room : (activeSpends r.puts nowMs).length < maxSpends)
      (open_ : verdict ≠ .exhausted) :
      Spends r call (verdict, some ⟨activeSpends r.puts nowMs ++ [nowMs], nowMs⟩)

theorem Sound.spends (h : Sound r) (call : Call) :
    Spends r call (spendAdmissionBudget r.stored call) := by
  unfold spendAdmissionBudget
  split
  · exact .refused
  · exact .refused
  next nowMs clock _ =>
    split
    · exact .refused
    next safe =>
    split
    · exact .refused
    next fine =>
      have after (record : AdmissionBudgetRecord) (found : r.stored = some record) :
          record.lastObservedMs ≤ nowMs := by
        have fine' : Budget.readable record nowMs = true := by simpa [found] using fine
        simp only [Budget.readable, Bool.and_eq_true, decide_eq_true_eq] at fine'
        exact fine'.1.2.2
      rw [h.active after]
      dsimp only
      split
      next full =>
        refine .exhausted clock (full.trans (le_of_eq ?_))
        rw [activeSpends, ← List.countP_eq_length_filter]
        exact List.countP_congr fun p mem => by simp [inWindow, h.le_now after mem]
      next room =>
        have put (verdict : AdmissionBudgetVerdict) (open_ : verdict ≠ .exhausted) :
            Spends r call (verdict, some _) :=
          .put clock (by simpa using safe) after (Nat.lt_of_not_le room) open_
        cases call.fate with
        | readFails => exact .refused
        | writes => exact put .admitted nofun
        | writeFails applied =>
          cases applied with
          | true => exact put .unreadable nofun
          | false => exact .refused

section Step

variable {call : Call} {verdict : AdmissionBudgetVerdict}

/-- A call that puts nothing and admits nothing leaves both histories as they were. -/
theorem Run.step_refused (answer : spendAdmissionBudget r.stored call = (verdict, none))
    (refused : verdict ≠ .admitted) :
    (r.step call).stored = r.stored ∧ (r.step call).puts = r.puts ∧
      (r.step call).admitted = r.admitted := by
  simp [Run.step, Run.puts, Run.admitted, answer, Spend.putAt, Spend.admittedAt, refused]

/-- A call that puts adds its clock value to the puts, and to the admitted ones if it is. -/
theorem Run.step_put (clock : call.now = .integer nowMs)
    (answer : spendAdmissionBudget r.stored call = (verdict, some record)) :
    (r.step call).stored = some record ∧ (r.step call).puts = r.puts ++ [nowMs] ∧
      (r.step call).admitted = r.admitted ++ if verdict = .admitted then [nowMs] else [] := by
  refine ⟨?_, ?_, ?_⟩
  · simp [Run.step, answer]
  · simp [Run.step, Run.puts, answer, Spend.putAt, clock, Clock.value]
  · by_cases admitted : verdict = .admitted
    · simp [Run.step, Run.admitted, answer, Spend.admittedAt, clock, Clock.value, admitted]
    · simp [Run.step, Run.admitted, answer, Spend.admittedAt, admitted]

end Step

/-- **Every call keeps the record sound.** -/
theorem Sound.step (h : Sound r) (call : Call) : Sound (r.step call) := by
  have spends := h.spends call
  generalize answered : spendAdmissionBudget r.stored call = answer at spends
  have clocked (timed : answer.1 = .admitted → ∃ nowMs, call.now = .integer nowMs) :
      ∀ s ∈ (r.step call).spends, s.verdict = .admitted → ∃ nowMs, s.call.now = .integer nowMs := by
    intro s mem admitted
    simp only [Run.step, answered, List.mem_append, List.mem_singleton] at mem
    rcases mem with old | rfl
    · exact h.clocked s old admitted
    · exact timed admitted
  have refused (verdict : AdmissionBudgetVerdict) (no : verdict ≠ .admitted)
      (none : answer = (verdict, none)) : Sound (r.step call) := by
    subst none
    obtain ⟨stored, puts, admitted⟩ := Run.step_refused answered no
    refine ⟨?_, ?_, ?_, ?_, ?_, ?_, clocked fun yes => absurd yes no⟩
    · rw [puts]
      exact h.sorted
    · rw [puts]
      exact h.safe
    · rw [stored, puts]
      exact h.fresh
    · rw [stored, puts]
      exact h.record
    · rw [puts]
      exact h.few
    · rw [puts, admitted]
      exact h.among
  cases spends with
  | refused => exact refused .unreadable nofun rfl
  | exhausted => exact refused .exhausted nofun rfl
  | @put nowMs verdict clock safe after room =>
    obtain ⟨stored, puts, admitted⟩ := Run.step_put clock answered
    refine ⟨?_, ?_, ?_, ?_, fun t => ?_, ?_, clocked fun _ => ⟨nowMs, clock⟩⟩
    · rw [puts]
      refine List.pairwise_append.mpr ⟨h.sorted, List.pairwise_singleton _ _, ?_⟩
      intro p mem q last
      rw [List.mem_singleton.mp last]
      exact h.le_now after mem
    · intro p mem
      rw [puts] at mem
      rcases List.mem_append.mp mem with old | new
      · exact h.safe p old
      · rw [List.mem_singleton.mp new]
        exact safe
    · rw [stored]
      exact nofun
    · rw [stored, puts]
      rintro _ ⟨⟩
      refine ⟨List.getLast?_concat, ?_⟩
      simp [activeSpends, List.filter_append, windowMs]
    · -- a window with the new spend in it starts no earlier than the window of the new spend
      rw [puts, List.countP_append, List.countP_singleton]
      split
      next within_ =>
        simp only [inWindow, decide_eq_true_eq] at within_
        have fewer : r.puts.countP (inWindow t) ≤ (activeSpends r.puts nowMs).length := by
          rw [activeSpends, ← List.countP_eq_length_filter]
          refine List.countP_mono_left fun p mem old => ?_
          simp only [inWindow, decide_eq_true_eq] at old ⊢
          omega
        omega
      · exact h.few t
    · rw [puts, admitted]
      split
      · exact h.among.append (List.Sublist.refl _)
      · rw [List.append_nil]
        exact h.among.trans (List.sublist_append_left _ _)

theorem run_sound (calls : List Call) : Sound (run calls) :=
  List.foldlRecOn calls Run.step (motive := Sound)
    ⟨.nil, nofun, fun _ => rfl, nofun, fun _ => Nat.zero_le _, .refl _, nofun⟩
    fun _ sound call _ => sound.step call

/-- **The admission budget**, after every sequence of calls, each kept with its verdict and its
clock: every admitted call has an integer clock value, and five of them at most have it in any
window; five puts lie in the window of a call that is refused as exhausted; the record is one that a
call from its own time on accepts as readable; and no call before that time is admitted. -/
theorem admission_budget (calls : List Call) :
    (∀ s ∈ (run calls).spends, s.verdict = .admitted → ∃ nowMs, s.call.now = .integer nowMs) ∧
    (∀ t, (run calls).admitted.countP (inWindow t) ≤ maxSpends) ∧
    ∀ call, ((spendAdmissionBudget (run calls).stored call).1 = .exhausted →
        ∃ nowMs, call.now = .integer nowMs ∧ maxSpends ≤ (run calls).puts.countP (inWindow nowMs)) ∧
      ∀ record, (run calls).stored = some record →
        (∀ nowMs, record.lastObservedMs ≤ nowMs → readable record nowMs = true) ∧
        (∀ nowMs, record.lastObservedMs ≤ nowMs → isSafeInteger nowMs = true →
          (spendAdmissionBudget (run calls).stored ⟨.integer nowMs, .writes⟩).1 ≠ .unreadable) ∧
        ∀ nowMs, call.now = .integer nowMs → nowMs < record.lastObservedMs →
          (spendAdmissionBudget (run calls).stored call).1 ≠ .admitted := by
  have sound := run_sound calls
  refine ⟨sound.clocked, fun t => (sound.among.countP_le).trans (sound.few t), fun call => ?_⟩
  have spends := sound.spends call
  generalize spendAdmissionBudget (run calls).stored call = answer at spends
  refine ⟨fun exhausted => ?_, fun record found =>
    ⟨fun nowMs => sound.readable found, fun nowMs le safe => ?_, ?_⟩⟩
  · cases spends with
    | refused => nomatch exhausted
    | exhausted clock full => exact ⟨_, clock, full⟩
    | put _ _ _ _ open_ => exact absurd exhausted open_
  · have positive := (sound.safe _ (List.mem_of_getLast? (sound.record record found).1)).2
    have fine := sound.readable found le
    have later : ¬ nowMs < 0 := by omega
    simp only [spendAdmissionBudget, safe, later, found, fine, Option.any_some, Bool.not_true,
      decide_false, Bool.or_false, Bool.false_eq_true, ↓reduceIte]
    split <;> simp
  · intro nowMs clock early admitted
    cases spends with
    | refused => nomatch admitted
    | exhausted => nomatch admitted
    | put clock' _ after =>
      cases clock.symm.trans clock'
      exact absurd (after record found) (not_le.mpr early)

end CorelinkRunners.Containment.Budget
