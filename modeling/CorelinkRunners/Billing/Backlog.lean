import CorelinkRunners.Billing.Export
import CorelinkRunners.Pg.Tables

/-!
# The size of an export

`PgBillingSink::persist` writes the whole window of a round in one statement, with five parameters
for every event. The protocol numbers parameters with 16 bits, and the journal can hold many more
events than fit into one statement (`persist_ok_iff`): a backlog of that size is refused at every
round, however often it is tried.
-/

namespace CorelinkRunners

open Kit

/-! ## The journals a meter can have -/

inductive MeterEvent
  | record (ev : SlotOccupancyEvent)
  | drainThrough (watermark : Nat)

def SlotMeter.step (meter : SlotMeter) : MeterEvent → SlotMeter
  | .record ev => meter.record ev
  | .drainThrough watermark => meter.drainThrough watermark

def SlotMeter.run (events : List MeterEvent) : SlotMeter := events.foldl SlotMeter.step .new

theorem SlotMeter.run_record (events : List SlotOccupancyEvent)
    (room : events.length ≤ journalCap) :
    (SlotMeter.run (events.map .record)).journal = events := by
  suffices h : ∀ meter : SlotMeter, meter.journal.length + events.length ≤ journalCap →
      ((events.map MeterEvent.record).foldl SlotMeter.step meter).journal =
      meter.journal ++ events by
    exact h .new (by simpa [SlotMeter.new] using room)
  clear room
  induction events with
  | nil => exact fun meter _ => (List.append_nil _).symm
  | cons ev rest ih =>
    intro meter room
    rw [List.length_cons] at room
    have appended : (meter.record ev).journal = meter.journal ++ [ev] := by
      unfold record evict
      rw [count_journal, if_neg (by omega)]
      dsimp only
      rw [count_journal]
    have later :=
      ih (meter.record ev) (by rw [appended, List.length_append, List.length_singleton]; omega)
    rw [List.map_cons, List.foldl_cons]
    exact later.trans (by rw [appended, List.append_assoc]; rfl)

/-! ## The statement -/

inductive SqlParam
  | text (value : String)
  | bigint (value : Int)

structure SqlStatement where
  sql : String
  params : List SqlParam

def rowPlaceholders (i : Nat) : String :=
  let base := i * 5
  s!"(${base + 1}, ${base + 2}, ${base + 3}, ${base + 4}, ${base + 5})"

def rowParams (exportedAtMs : Nat) (ev : SlotOccupancyEvent) : List SqlParam :=
  [.text ev.tenant.raw, .text ev.leaseId, .text (kindToDb ev.kind), .bigint (asI64 ev.atMs),
    .bigint (asI64 exportedAtMs)]

def insertStatement (events : List SlotOccupancyEvent) (exportedAtMs : Nat) : SqlStatement where
  sql :=
    "INSERT INTO billing_events (tenant, lease_id, kind, at_ms, exported_at_ms) VALUES "
      ++ ", ".intercalate ((List.range events.length).map rowPlaceholders)
      ++ " ON CONFLICT (tenant, lease_id, kind, at_ms) DO NOTHING RETURNING tenant"
  params := events.flatMap (rowParams exportedAtMs)

def distinctByKey (seen : Finset EventKey) : List SlotOccupancyEvent → List SlotOccupancyEvent
  | [] => []
  | ev :: rest =>
    if eventKey ev ∈ seen then distinctByKey seen rest
    else ev :: distinctByKey (insert (eventKey ev) seen) rest

/-- The parameters of one statement are numbered with 16 bits. -/
def maxBindParams : Nat := 65535

/-- The sink over a database that is there: a statement with too many parameters is refused, and
nothing else fails. The count is of the rows the insert returns. -/
def PgBillingSink.persist (table : MemBillingSink) (events : List SlotOccupancyEvent)
    (exportedAtMs : Nat) : Except String (Nat × MemBillingSink) :=
  if events.isEmpty then .ok (0, table)
  else
    let events := distinctByKey ∅ events
    if (insertStatement events exportedAtMs).params.length ≤ maxBindParams then
      .ok (table.persist events)
    else .error "too many parameters"

/-! ## What fits -/

def distinctKeys (events : List SlotOccupancyEvent) : Nat := (events.map eventKey).toFinset.card

theorem params_length (events : List SlotOccupancyEvent) (exportedAtMs : Nat) :
    (insertStatement events exportedAtMs).params.length = 5 * events.length := by
  have row (ev : SlotOccupancyEvent) : (rowParams exportedAtMs ev).length = 5 := by
    simp only [rowParams, List.length_cons, List.length_nil]
  unfold insertStatement
  induction events with
  | nil => rw [List.flatMap_nil, List.length_nil, List.length_nil]
  | cons ev rest ih =>
    rw [List.flatMap_cons, List.length_append, ih, row, List.length_cons]
    omega

theorem length_distinctByKey (seen : Finset EventKey) (events : List SlotOccupancyEvent) :
    (distinctByKey seen events).length + seen.card =
    (seen ∪ (events.map eventKey).toFinset).card := by
  induction events generalizing seen with
  | nil => simp [distinctByKey]
  | cons ev rest ih =>
    rw [List.map_cons, List.toFinset_cons, Finset.union_insert, ← Finset.insert_union]
    unfold distinctByKey
    split
    next known => rw [Finset.insert_eq_of_mem known, ih]
    next fresh =>
      have rest := ih (insert (eventKey ev) seen)
      rw [Finset.card_insert_of_notMem fresh] at rest
      rw [List.length_cons]
      omega

theorem persist_ok_iff_few (table : MemBillingSink) (journal : List SlotOccupancyEvent)
    (exportedAtMs : Nat) : (∃ done, PgBillingSink.persist table journal exportedAtMs = .ok done) ↔
      distinctKeys journal ≤ 13107 := by
  have size := length_distinctByKey ∅ journal
  rw [Finset.card_empty, Finset.empty_union, Nat.add_zero] at size
  unfold PgBillingSink.persist distinctKeys maxBindParams
  rw [← size]
  split
  next none_there =>
    rw [List.isEmpty_iff.mp none_there]
    exact ⟨fun _ => Nat.zero_le _, fun _ => ⟨_, rfl⟩⟩
  · dsimp only
    rw [params_length]
    split
    next fits => exact ⟨fun _ => by omega, fun _ => ⟨_, rfl⟩⟩
    next large =>
      refine ⟨?_, fun few => absurd (by omega) large⟩
      rintro ⟨_, refused⟩
      nomatch refused

/-- **What can be exported.** Once the database is back, the export of a journal succeeds exactly if
at most 13107 different events are in it. -/
theorem persist_ok_iff (events : List MeterEvent) (table : MemBillingSink) (exportedAtMs : Nat) :
    (∃ done, PgBillingSink.persist table (SlotMeter.run events).journal exportedAtMs = .ok done) ↔
      distinctKeys (SlotMeter.run events).journal ≤ 13107 :=
  persist_ok_iff_few table (SlotMeter.run events).journal exportedAtMs

def backlogTenant : TenantId := ⟨"a", by decide, by decide⟩

def backlogEvent (n : Nat) : SlotOccupancyEvent := ⟨backlogTenant, "lease", .acquired, n, none⟩

theorem backlog_keys (n : Nat) : distinctKeys ((List.range n).map backlogEvent) = n := by
  rw [distinctKeys, List.toFinset_card_of_nodup, List.length_map, List.length_map,
    List.length_range]
  rw [List.map_map]
  refine List.nodup_range.map fun a b same => ?_
  exact (Prod.mk.inj (Prod.mk.inj (Prod.mk.inj same).2).2).2

/-- **A backlog that is never exported**: 13108 events, far below the cap of the journal. -/
theorem backlog_refused : ¬∃ done, PgBillingSink.persist .new
    (SlotMeter.run (((List.range 13108).map backlogEvent).map .record)).journal 0 = .ok done := by
  rw [persist_ok_iff_few, SlotMeter.run_record, backlog_keys]
  · decide
  · rw [List.length_map, List.length_range]
    decide

end CorelinkRunners
