import CorelinkRunners.Server.Types

/-!
# Billing months

Usage is charged to the month that `periodKey` reads off a timestamp, and a grant is bounded by the
month that `wallStaysInPeriod` computes from its period. The two are written independently of each
other: one turns days into a date, the other a date into days.

Both are compared with `monthStart`, the first day of a month counted from March of year zero. It is
strictly monotone, so a timestamp lies in one month only.
-/

namespace CorelinkRunners.Calendar

open Server Kit.Word

def daysFromCivil (year month day : Int) : Option Int :=
  if ¬(1 ≤ month ∧ month ≤ 12) ∨ ¬(1 ≤ day ∧ day ≤ 31) then none
  else
    let y := year - if month ≤ 2 then 1 else 0
    let era := (if y ≥ 0 then y else y - 399).tdiv 400
    let yoe := y - era * 400
    let mp := month + if month > 2 then -3 else 9
    let doy := (153 * mp + 2) / 5 + day - 1
    let doe := yoe * 365 + yoe / 4 - yoe / 100 + doy
    some (era * 146097 + doe - 719468)

/-- A day count as the unsigned word the code casts it to, in milliseconds. -/
def daysMs (days : Int) : Nat := satMul (days % 2 ^ 64).toNat 86400000

def nextMonth (year month : Int) : Int × Int :=
  if month = 12 then (year + 1, 1) else (year, month + 1)

def wallStaysInPeriod (period expiresMs wallMs : Nat) : Bool :=
  let year : Int := (period / 100 : Nat)
  let month : Int := (period % 100 : Nat)
  match daysFromCivil year month 1 with
  | none => false
  | some startDays =>
    let next := nextMonth year month
    match daysFromCivil next.1 next.2 1 with
    | none => false
    | some nextDays =>
      daysMs startDays ≤ expiresMs && expiresMs + wallMs ≤ maxU64 &&
        expiresMs + wallMs ≤ daysMs nextDays

/-! ## Months -/

def monthIndex (period : Nat) : Int := 12 * (period / 100 : Nat) + (period % 100 : Nat) - 3

def yearStart (y : Int) : Int := 365 * y + y / 4 - y / 100 + y / 400 - 719468

def monthStart (k : Int) : Int := yearStart (k / 12) + (153 * (k % 12) + 2) / 5

theorem monthStart_strictMono : StrictMono monthStart :=
  strictMono_int_of_lt_succ fun k => by
    unfold monthStart yearStart
    omega

theorem monthStart_at (y : Int) {mp : Int} (low : 0 ≤ mp) (high : mp < 12) :
    monthStart (12 * y + mp) = yearStart y + (153 * mp + 2) / 5 := by
  rw [monthStart, show (12 * y + mp) / 12 = y by omega, show (12 * y + mp) % 12 = mp by omega]

theorem yearStart_era (y era : Int) : yearStart (y + era * 400) = yearStart y + 146097 * era := by
  unfold yearStart
  omega

/-! ## A date into days -/

theorem era_eq (y : Int) : (if y ≥ 0 then y else y - 399).tdiv 400 = y / 400 := by
  split
  next nonneg => exact Int.tdiv_eq_ediv_of_nonneg nonneg
  · rw [show y - 399 = -(399 - y) by omega, Int.neg_tdiv, Int.tdiv_eq_ediv_of_nonneg (by omega)]
    omega

theorem daysFromCivil_first (year : Int) {month : Int} (low : 1 ≤ month) (high : month ≤ 12) :
    daysFromCivil year month 1 = some (monthStart (12 * year + month - 3)) := by
  unfold daysFromCivil
  rw [if_neg (by omega)]
  simp only [era_eq, Option.some.injEq]
  by_cases early : month ≤ 2
  · rw [show 12 * year + month - 3 = 12 * (year - 1) + (month + 9) by omega,
      monthStart_at _ (by omega) (by omega), if_pos early, if_neg (show ¬month > 2 by omega),
        yearStart]
    omega
  · rw [show 12 * year + month - 3 = 12 * year + (month + -3) by omega,
      monthStart_at _ (by omega) (by omega), if_neg early, if_pos (show month > 2 by omega),
        yearStart]
    omega

theorem daysFromCivil_next (year : Int) {month : Int} (low : 1 ≤ month) (high : month ≤ 12) :
    daysFromCivil (nextMonth year month).1 (nextMonth year month).2 1 =
      some (monthStart (12 * year + month - 3 + 1)) := by
  by_cases last : month = 12
  · rw [nextMonth, if_pos last, daysFromCivil_first _ le_rfl (by decide)]
    congr 2
    omega
  · rw [nextMonth, if_neg last, daysFromCivil_first _ (by omega) (by omega)]
    congr 2
    omega

/-! ## Days into a date -/

theorem yearOfEra {doe : Nat} (day : doe < 146097) :
    let yoe := (doe - doe / 1460 + doe / 36524 - doe / 146096) / 365
    yoe < 400 ∧ 365 * yoe + yoe / 4 - yoe / 100 ≤ doe ∧
      doe + (yoe + 1) / 100 < 365 * (yoe + 1) + (yoe + 1) / 4 + (yoe + 1) / 400 := by
  intro yoe
  obtain rfl | small : doe = 146096 ∨ doe < 146096 := by omega
  · decide
  have bounds : 365 * yoe ≤ doe - doe / 1460 + doe / 36524 ∧
      doe - doe / 1460 + doe / 36524 < 365 * yoe + 365 := by omega
  clear_value yoe
  have century : doe / 36524 = yoe / 100 ∧ yoe / 100 < 4 := by
    obtain h | h | h | h : doe / 36524 = 0 ∨ doe / 36524 = 1 ∨ doe / 36524 = 2 ∨
      doe / 36524 = 3 := by
      omega
    all_goals omega
  -- the days are counted in cycles of 1460: the last day of a leap year falls into the next one
  have cycle : doe / 1460 = yoe / 4 ∨ doe / 1460 = yoe / 4 + 1 ∧ yoe % 4 = 3 := by
    have lower : yoe / 4 ≤ doe / 1460 := by omega
    have upper : doe / 1460 < yoe / 4 + 2 := by omega
    omega
  have leap : (yoe + 1) / 100 + yoe / 4 ≤ yoe / 100 + (yoe + 1) / 4 := by omega
  rcases cycle with same | ⟨next, last⟩
  · omega
  · have : (yoe + 1) / 4 = yoe / 4 + 1 := by omega
    have : (yoe + 1) / 100 = yoe / 100 ∨ yoe + 1 = 100 * (yoe / 100) + 100 := by omega
    omega

theorem yearStart_of_lt {yoe : Nat} (short : yoe < 400) :
    yearStart yoe = (365 * yoe + yoe / 4 - yoe / 100 : Nat) - 719468 := by
  unfold yearStart
  omega

theorem civilFromDays_mem (days : Nat) :
    let (year, month) := civilFromDays days
    1 ≤ month ∧ month ≤ 12 ∧ monthStart (12 * year + month - 3) ≤ days ∧
      days < monthStart (12 * year + month - 3 + 1) := by
  have day : days + 719468 - (days + 719468) / 146097 * 146097 < 146097 := by omega
  have whole : 146097 * ((days + 719468) / 146097) +
      (days + 719468 - (days + 719468) / 146097 * 146097) = days + 719468 := by omega
  obtain ⟨short, low, high⟩ := yearOfEra day
  simp only [civilFromDays]
  generalize (days + 719468) / 146097 = era at *
  generalize days + 719468 - era * 146097 = doe at *
  generalize (doe - doe / 1460 + doe / 36524 - doe / 146096) / 365 = yoe at *
  generalize hdoy : doe - (365 * yoe + yoe / 4 - yoe / 100) = doy
  generalize hmp : (5 * doy + 2) / 153 = mp
  have starts : yearStart yoe + doy = doe - 719468 := by
    rw [yearStart_of_lt short, ← hdoy, Nat.cast_sub low]
    ring
  have ends : doe - 719468 < yearStart (yoe + 1) := by
    unfold yearStart
    zify at high
    omega
  clear low high
  have lastMonth : mp < 12 := by
    have : yearStart (yoe + 1) ≤ yearStart yoe + 366 := by
      unfold yearStart
      omega
    omega
  have index : (12 * (yoe + era * 400 + if (if mp < 10 then mp + 3 else mp - 9) ≤ 2 then 1
      else 0 : Nat) +
      (if mp < 10 then mp + 3 else mp - 9 : Nat) - 3 : Int) = 12 * (yoe + era * 400) + mp := by
    split <;> split <;> omega
  rw [index]
  refine ⟨by split <;> omega, by split <;> omega, ?_, ?_⟩
  · rw [monthStart_at _ (by omega) (by omega), yearStart_era]
    omega
  · by_cases last : mp = 11
    · rw [show (12 * (yoe + era * 400) + mp + 1 : Int) = 12 * (yoe + 1 + era * 400) + 0 by omega,
        monthStart_at _ (by omega) (by omega), yearStart_era]
      omega
    · rw [add_assoc, monthStart_at _ (by omega) (by omega), yearStart_era]
      omega

/-! ## The two agree -/

/-- Whether the last two digits of a period are a month. -/
def IsPeriod (period : Nat) : Prop := 1 ≤ period % 100 ∧ period % 100 ≤ 12

def nextPeriod (period : Nat) : Nat := if period % 100 = 12 then period + 89 else period + 1

def start (period : Nat) : Int :=
  (daysFromCivil (period / 100 : Nat) (period % 100 : Nat) 1).getD 0 * 86400000

variable {p t : Nat}

theorem IsPeriod.next (month : IsPeriod p) :
    IsPeriod (nextPeriod p) ∧ monthIndex (nextPeriod p) = monthIndex p + 1 := by
  unfold IsPeriod nextPeriod monthIndex at *
  split <;> omega

theorem IsPeriod.start_eq (month : IsPeriod p) :
    start p = monthStart (monthIndex p) * 86400000 := by
  unfold IsPeriod at month
  rw [start, daysFromCivil_first _ (by omega) (by omega)]
  rfl

theorem IsPeriod.le {q : Nat} (hp : IsPeriod p) (hq : IsPeriod q)
    (before : monthStart (monthIndex p) < monthStart (monthIndex q + 1)) : p ≤ q := by
  have index := monthStart_strictMono.lt_iff_lt.mp before
  unfold IsPeriod monthIndex at *
  omega

theorem periodKey_mem (t : Nat) : IsPeriod (periodKey t) ∧ monthStart (monthIndex (periodKey t)) ≤
    (t / 86400000 : Nat) ∧ (t / 86400000 : Nat) < monthStart (monthIndex (periodKey t) + 1) := by
  have mem := civilFromDays_mem (t / 86400000)
  unfold periodKey
  generalize civilFromDays (t / 86400000) = date at *
  obtain ⟨year, month⟩ := date
  obtain ⟨low, high, since, until_⟩ := mem
  have index : monthIndex (year * 100 + month) = 12 * year + month - 3 := by
    unfold monthIndex
    omega
  refine ⟨?_, index ▸ since, index ▸ until_⟩
  change IsPeriod (year * 100 + month)
  unfold IsPeriod
  omega

theorem periodKey_eq_iff (month : IsPeriod p) :
    periodKey t = p ↔ start p ≤ t ∧ t < start (nextPeriod p) := by
  obtain ⟨own, since, before⟩ := periodKey_mem t
  rw [month.start_eq, month.next.1.start_eq, month.next.2]
  constructor
  · rintro rfl
    omega
  · intro ⟨low, high⟩
    exact le_antisymm (own.le month (by omega)) (month.le own (by omega))

theorem periodKey_mono {t' : Nat} (le : t ≤ t') : periodKey t ≤ periodKey t' := by
  obtain ⟨own, since, -⟩ := periodKey_mem t
  obtain ⟨own', -, before⟩ := periodKey_mem t'
  exact own.le own' (by omega)

theorem monthStart_bounds {k : Int} (low : -3 ≤ k) (high : k < 2 ^ 30) :
    -2 ^ 20 < monthStart k ∧ monthStart k < 2 ^ 36 := by
  unfold monthStart yearStart
  omega

theorem daysMs_eq {days : Int} (low : -2 ^ 20 < days) (high : days < 2 ^ 36) :
    daysMs days = if days < 0 then maxU64 else (days * 86400000).toNat := by
  unfold daysMs satMul maxU64
  split <;> omega

theorem wallStaysInPeriod_iff {e wall : Nat} (month : IsPeriod p) (word : p < 2 ^ 32)
    (early : e < 253402300800000) : wallStaysInPeriod p e wall = true ↔
      0 ≤ start p ∧ start p ≤ e ∧ (e + wall : Int) ≤ start (nextPeriod p) := by
  have low : (1 : Int) ≤ (p % 100 : Nat) := by exact_mod_cast month.1
  have high : ((p % 100 : Nat) : Int) ≤ 12 := by exact_mod_cast month.2
  have first := daysFromCivil_first (p / 100 : Nat) low high
  have second := daysFromCivil_next (p / 100 : Nat) low high
  rw [← monthIndex] at first second
  unfold wallStaysInPeriod
  simp only [first, second, Bool.and_eq_true, decide_eq_true_eq]
  have index : -3 ≤ monthIndex p ∧ monthIndex p + 1 < 2 ^ 30 := by
    unfold monthIndex
    omega
  obtain ⟨a, b⟩ := monthStart_bounds index.1 (by omega)
  obtain ⟨c, d⟩ := monthStart_bounds (k := monthIndex p + 1) (by omega) index.2
  rw [month.start_eq, month.next.1.start_eq, month.next.2, daysMs_eq a b, daysMs_eq c d]
  have := monthStart_strictMono (show monthIndex p < monthIndex p + 1 by omega)
  unfold maxU64
  split <;> split <;> omega

/-- **Billing months.** A timestamp is in a period exactly between the starts of the period and of
the next one, the period is monotone in the timestamp, and a wall stays in a period exactly if all
of its milliseconds do. -/
theorem billing_months : (∀ t p, t < 253402300800000 → IsPeriod p →
      (periodKey t = p ↔ start p ≤ t ∧ t < start (nextPeriod p))) ∧
    (∀ t t', t ≤ t' → t' < 253402300800000 → periodKey t ≤ periodKey t') ∧
    (∀ p e wall, IsPeriod p → p < 2 ^ 32 → e < 253402300800000 → 1 ≤ wall →
      (wallStaysInPeriod p e wall = true ↔ ∀ u, e ≤ u → u < e + wall → periodKey u = p)) := by
  refine ⟨fun t p _ => periodKey_eq_iff, fun t t' le _ => periodKey_mono le, ?_⟩
  intro p e wall month word early some
  simp only [periodKey_eq_iff month, wallStaysInPeriod_iff month word early]
  constructor
  · intro ⟨_, low, high⟩ u since before
    omega
  · intro all
    have first := all e le_rfl (by omega)
    have last := all (e + wall - 1) (by omega) (by omega)
    refine ⟨?_, first.1, by omega⟩
    rw [month.next.1.start_eq, month.next.2] at first
    rw [month.start_eq]
    -- the months before 1970 end by the epoch
    have epoch : monthStart 23638 = 0 := by decide
    have later := monthStart_strictMono.lt_iff_lt.mp
      (show monthStart 23638 < monthStart (monthIndex p + 1) by omega)
    have := monthStart_strictMono.monotone (show 23638 ≤ monthIndex p by omega)
    omega

end CorelinkRunners.Calendar
