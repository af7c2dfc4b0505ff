import CorelinkRunners.Contracts
import CorelinkRunners.Kit.Word

/-!
# The slot meter

`SlotMeter` counts the slots each tenant occupies and keeps a bounded journal of the events it was
given. The journal drops its oldest event when it is full, and counts the drop; an export drains the
events it has persisted. `totalRecorded` never goes back, so the event at the front of the journal
has the sequence number `totalRecorded - journal.length`.
-/

namespace CorelinkRunners

open Kit

inductive SlotEventKind
  | acquired
  | released
  | expired
  | crashed
deriving DecidableEq

structure SlotOccupancyEvent where
  tenant : TenantId
  leaseId : String
  kind : SlotEventKind
  atMs : Nat
  acquiredAtMs : Option Nat

def journalCap : Nat := 100000

structure SlotMeter where
  occupied : OrdMap TenantId Nat
  peak : OrdMap TenantId Nat
  journal : List SlotOccupancyEvent
  journalDropped : Nat
  totalRecorded : Nat

namespace SlotMeter

variable (meter : SlotMeter)

def new : SlotMeter := ⟨∅, ∅, [], 0, 0⟩

def occupiedOf (tenant : TenantId) : Nat := meter.occupied[tenant]?.getD 0

def peakOf (tenant : TenantId) : Nat := meter.peak[tenant]?.getD 0

def count (ev : SlotOccupancyEvent) : SlotMeter :=
  match ev.kind with
  | .acquired =>
    let occ := min (meter.occupiedOf ev.tenant + 1) Word.maxU32
    { meter with
      occupied := meter.occupied.insert ev.tenant occ
      peak := meter.peak.insert ev.tenant (max (meter.peakOf ev.tenant) occ) }
  | .released | .expired | .crashed =>
    { meter with occupied := meter.occupied.insert ev.tenant (meter.occupiedOf ev.tenant - 1) }

def evict : SlotMeter :=
  if journalCap ≤ meter.journal.length then
    { meter with journal := meter.journal.tail, journalDropped := meter.journalDropped + 1 }
  else meter

def record (ev : SlotOccupancyEvent) : SlotMeter :=
  let counted := (meter.count ev).evict
  { counted with
    journal := counted.journal ++ [ev]
    totalRecorded := Word.satAdd counted.totalRecorded 1 }

def exportWatermark : Nat := meter.totalRecorded

/-- The loop of the drain: drop from the front while the front's number is below the watermark. -/
def drainFront (total watermark : Nat) : List SlotOccupancyEvent → List SlotOccupancyEvent
  | [] => []
  | ev :: rest =>
    if total - (ev :: rest).length < watermark then drainFront total watermark rest else ev :: rest

def drainThrough (watermark : Nat) : SlotMeter :=
  { meter with journal := drainFront meter.totalRecorded watermark meter.journal }

/-! ## What the operations do to the journal -/

variable (ev : SlotOccupancyEvent)

@[simp]
theorem count_journal : (meter.count ev).journal = meter.journal := by
  unfold count
  cases ev.kind <;> rfl

@[simp]
theorem count_journalDropped : (meter.count ev).journalDropped = meter.journalDropped := by
  unfold count
  cases ev.kind <;> rfl

@[simp]
theorem count_totalRecorded : (meter.count ev).totalRecorded = meter.totalRecorded := by
  unfold count
  cases ev.kind <;> rfl

theorem record_cases : (meter.record ev).totalRecorded = Word.satAdd meter.totalRecorded 1 ∧
      ((meter.record ev).journal = meter.journal ++ [ev] ∧
          (meter.record ev).journalDropped = meter.journalDropped ∨
        ∃ oldest rest, meter.journal = oldest :: rest ∧ (meter.record ev).journal = rest ++ [ev] ∧
          (meter.record ev).journalDropped = meter.journalDropped + 1) := by
  unfold record evict
  dsimp only
  rw [count_journal]
  by_cases full : journalCap ≤ meter.journal.length
  · rw [if_pos full]
    refine ⟨by rw [← count_totalRecorded meter ev], .inr ?_⟩
    cases journal : meter.journal with
    | nil =>
      rw [journal] at full
      exact absurd full (by decide)
    | cons oldest rest => exact ⟨oldest, rest, rfl, rfl, by rw [count_journalDropped]⟩
  · rw [if_neg full]
    exact ⟨by rw [count_totalRecorded], .inl ⟨by rw [count_journal], count_journalDropped meter ev⟩⟩

/-- **The drain is a drop**: where the front has the number `front`, the events below the watermark
go, and no other. -/
theorem drainFront_eq {total front : Nat} (watermark : Nat) {journal : List SlotOccupancyEvent}
    (numbered : total = front + journal.length) :
    drainFront total watermark journal = journal.drop (watermark - front) := by
  induction journal generalizing front with
  | nil => rw [List.drop_nil]; rfl
  | cons ev rest ih =>
    have at_front : total - (ev :: rest).length = front := by omega
    unfold drainFront
    rw [at_front]
    by_cases below : front < watermark
    · have next : watermark - front = watermark - (front + 1) + 1 := by omega
      rw [if_pos below, next, List.drop_succ_cons]
      refine ih ?_
      rw [numbered, List.length_cons]
      omega
    · have none_below : watermark - front = 0 := by omega
      rw [if_neg below, none_below, List.drop_zero]

end SlotMeter

end CorelinkRunners
