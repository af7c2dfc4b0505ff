import CorelinkRunners.Contracts
import CorelinkRunners.Kit.Run

/-!
# The cross-instance admission queue

One queue of pending admissions in Postgres, shared by every instance. A row is stamped, when it is
enqueued, with the number of admits its tenant has won so far, and the rows are dequeued by that
stamp, then by age. A dequeue skips the rows that other transactions have locked.

The calls of any number of instances interleave statement by statement (`QueueSystem`). Rows that
tie in the order come in an order the database picks, so a step names the pick.
-/

namespace CorelinkRunners

open Kit

/-! ## Tables -/

/-- One pending admission. A lower `deficit` is owed more service. -/
structure PendingAdmission where
  tenant : TenantId
  leaseRequestId : String
  enqueuedAtMs : Int
  deficit : Nat
deriving DecidableEq

/-- The order of dequeueing: `lt` comes first. -/
def fairOrder (a b : PendingAdmission) : Ordering :=
  (compare a.deficit b.deficit).then (compare a.enqueuedAtMs b.enqueuedAtMs)

/-- The two tables: the queued rows, and the admits each tenant has won. -/
structure QueueDb where
  pgAdmissionQueue : OrdMap String PendingAdmission
  pgAdmissionDeficit : OrdMap TenantId Nat

namespace QueueDb

def empty : QueueDb := ⟨∅, ∅⟩

def admitCount (db : QueueDb) (tenant : TenantId) : Nat := db.pgAdmissionDeficit[tenant]?.getD 0

/-- The row an enqueue writes: stamped with the tenant's admits so far. -/
def stamped (db : QueueDb) (tenant : TenantId) (leaseRequestId : String) (enqueuedAtMs : Int) :
    PendingAdmission := ⟨tenant, leaseRequestId, enqueuedAtMs, db.admitCount tenant⟩

def insert (db : QueueDb) (row : PendingAdmission) : QueueDb :=
  { db with pgAdmissionQueue := db.pgAdmissionQueue.insert row.leaseRequestId row }

def delete (db : QueueDb) (leaseRequestId : String) : QueueDb :=
  { db with pgAdmissionQueue := db.pgAdmissionQueue.erase leaseRequestId }

def setAdmits (db : QueueDb) (tenant : TenantId) (count : Nat) : QueueDb :=
  { db with pgAdmissionDeficit := db.pgAdmissionDeficit.insert tenant count }

end QueueDb

def PendingAdmission.eligible (row : PendingAdmission) (onlyIds : Option (List String)) : Bool :=
  onlyIds.all fun ids => ids.contains row.leaseRequestId

def QueueDb.candidates (db : QueueDb) (onlyIds : Option (List String)) (locked : String → Bool) :
    List PendingAdmission :=
  db.pgAdmissionQueue.vals.filter fun row => row.eligible onlyIds && !locked row.leaseRequestId

/-- `SELECT … ORDER BY deficit, enqueued_at_ms FOR UPDATE SKIP LOCKED LIMIT 1`: one of the rows that
no other comes before; `tie` picks among them. -/
def QueueDb.selectHead (db : QueueDb) (onlyIds : Option (List String)) (locked : String → Bool)
    (tie : Nat) : Option PendingAdmission :=
  let rows := db.candidates onlyIds locked
  let heads := rows.filter fun row => rows.all fun other => fairOrder row other != .gt
  heads[tie % heads.length]?

/-! ## Calls, and where they stand -/

inductive QueueCall
  | enqueue (tenant : TenantId) (leaseRequestId : String) (enqueuedAtMs : Int)
  | dequeueNext
  | dequeueNextLocal (localIds : List String)
  | admitTenant (tenant : TenantId)
  | remove (leaseRequestId : String)

inductive QueueReply
  | queued (row : PendingAdmission)
  | head (row : Option PendingAdmission)
  | unit
  | removed (found : Bool)
deriving DecidableEq

inductive QueueTask
  /-- Take the tenant's advisory lock. -/
  | enqueue (tenant : TenantId) (leaseRequestId : String) (enqueuedAtMs : Int)
  | stamp (tenant : TenantId) (leaseRequestId : String) (enqueuedAtMs : Int)
  | insert (row : PendingAdmission)
  | commitInsert (row : PendingAdmission)
  | dequeueHead (onlyIds : Option (List String))
  | delete (row : PendingAdmission)
  | commitDelete (row : PendingAdmission)
  | admitTenant (tenant : TenantId)
  | increment (tenant : TenantId)
  | commitIncrement (tenant : TenantId) (admitCount : Nat)
  | remove (leaseRequestId : String)
  | done (reply : Result QueueReply)
deriving DecidableEq

def QueueCall.begins : QueueCall → QueueTask
  | enqueue tenant leaseRequestId enqueuedAtMs => .enqueue tenant leaseRequestId enqueuedAtMs
  | dequeueNext => .dequeueHead none
  | dequeueNextLocal localIds =>
    if localIds.isEmpty then .done (.ok (.head none)) else .dequeueHead (some localIds)
  | admitTenant tenant => .admitTenant tenant
  | remove leaseRequestId => .remove leaseRequestId

def alreadyQueued (leaseRequestId : String) : String :=
  "admission request " ++ leaseRequestId ++ " already queued: enqueue never overwrites"

inductive QueueLock
  | tenant (tenant : TenantId)
  | row (leaseRequestId : String)
deriving DecidableEq

/-- The committed tables, who holds each lock, and where each session's call stands. -/
structure QueueSystem where
  db : QueueDb
  locks : QueueLock → Option Nat
  tasks : Nat → Option QueueTask

inductive QueueEvent
  | start (i : Nat) (call : QueueCall)
  /-- The next statement of the call; `tie` picks among rows the order does not separate. -/
  | step (i tie : Nat)
  /-- The transaction is rolled back and the call is given up. -/
  | abort (i : Nat)

namespace QueueSystem

variable (s : QueueSystem) (i : Nat)

def empty : QueueSystem := ⟨.empty, fun _ => none, fun _ => none⟩

def withTask (task : Option QueueTask) : QueueSystem :=
  { s with tasks := fun j => if j = i then task else s.tasks j }

def release : QueueSystem :=
  { s with locks := fun l => if s.locks l = some i then none else s.locks l }

def taken (lock : QueueLock) : Bool := s.locks lock != none && s.locks lock != some i

def lockThen (lock : QueueLock) (task : QueueTask) : QueueSystem :=
  if s.taken i lock then s
  else { s.withTask i (some task) with locks := fun l => if l = lock then some i else s.locks l }

def finish (db : QueueDb) (reply : Result QueueReply) : QueueSystem :=
  { (s.release i).withTask i (some (.done reply)) with db }

def advance (tie : Nat) : QueueTask → QueueSystem
  | .enqueue tenant id enqueuedAtMs => s.lockThen i (.tenant tenant) (.stamp tenant id enqueuedAtMs)
  | .stamp tenant id enqueuedAtMs =>
    s.withTask i (some (.insert (s.db.stamped tenant id enqueuedAtMs)))
  | .insert row =>
    -- `ON CONFLICT DO NOTHING` waits for a transaction that is writing the same key
    if s.taken i (.row row.leaseRequestId) then s
    else if s.db.pgAdmissionQueue.contains row.leaseRequestId then
      s.finish i s.db (.error (alreadyQueued row.leaseRequestId))
    else s.lockThen i (.row row.leaseRequestId) (.commitInsert row)
  | .commitInsert row => s.finish i (s.db.insert row) (.ok (.queued row))
  | .dequeueHead onlyIds =>
    match s.db.selectHead onlyIds (fun id => s.taken i (.row id)) tie with
    | none => s.finish i s.db (.ok (.head none))
    | some row => s.lockThen i (.row row.leaseRequestId) (.delete row)
  | .delete row => s.withTask i (some (.commitDelete row))
  | .commitDelete row => s.finish i (s.db.delete row.leaseRequestId) (.ok (.head (some row)))
  | .admitTenant tenant => s.lockThen i (.tenant tenant) (.increment tenant)
  | .increment tenant => s.withTask i (some (.commitIncrement tenant (s.db.admitCount tenant + 1)))
  | .commitIncrement tenant count => s.finish i (s.db.setAdmits tenant count) (.ok .unit)
  | .remove id =>
    if s.taken i (.row id) then s
    else s.finish i (s.db.delete id) (.ok (.removed (s.db.pgAdmissionQueue.contains id)))
  | .done _ => (s.release i).withTask i none

def step : QueueEvent → QueueSystem
  | .start i call =>
    match s.tasks i with
    | none => s.withTask i (some call.begins)
    | some _ => s
  | .step i tie =>
    match s.tasks i with
    | none => s
    | some task => s.advance i tie task
  | .abort i => (s.release i).withTask i none

end QueueSystem

/-! ## What a run keeps -/

/-- What a session may rely on where its call stands: the tenant's lock is its own, and what it read
under the lock is still so. -/
def QueueTask.Sound (db : QueueDb) (locks : QueueLock → Option Nat) (i : Nat) : QueueTask → Prop
  | .stamp tenant _ _ | .increment tenant => locks (.tenant tenant) = some i
  | .insert row | .commitInsert row =>
    locks (.tenant row.tenant) = some i ∧ row.deficit = db.admitCount row.tenant
  | .commitIncrement tenant count =>
    locks (.tenant tenant) = some i ∧ count = db.admitCount tenant + 1
  | _ => True

/-- Rows are under their ids, and no row is stamped above its tenant's admits. -/
structure QueueDb.Stamped (db : QueueDb) : Prop where
  keyed : ∀ (id : String) (row : PendingAdmission), db.pgAdmissionQueue[id]? = some row →
    row.leaseRequestId = id
  counted : ∀ (id : String) (row : PendingAdmission), db.pgAdmissionQueue[id]? = some row →
    row.deficit ≤ db.admitCount row.tenant

structure QueueSystem.Sound (s : QueueSystem) : Prop where
  stamped : s.db.Stamped
  tasks : ∀ i task, s.tasks i = some task → task.Sound s.db s.locks i

namespace QueueDb

variable {db : QueueDb} {row : PendingAdmission} {tenant : TenantId}

theorem admitCount_setAdmits (tenant other : TenantId) (count : Nat) :
    (db.setAdmits tenant count).admitCount other =
      if tenant = other then count else db.admitCount other := by
  unfold admitCount setAdmits
  rw [OrdMap.get_insert]
  split <;> rfl

theorem Stamped.insert (h : db.Stamped) (stamp : row.deficit = db.admitCount row.tenant) :
    (db.insert row).Stamped := by
  have found : ∀ {id : String} {r : PendingAdmission},
      (db.insert row).pgAdmissionQueue[id]? = some r →
      row.leaseRequestId = id ∧ r = row ∨ db.pgAdmissionQueue[id]? = some r := by
    intro id r at_id
    unfold QueueDb.insert at at_id
    rw [OrdMap.get_insert] at at_id
    split at at_id
    next same => exact .inl ⟨same, (Option.some.inj at_id).symm⟩
    · exact .inr at_id
  refine ⟨fun id r at_id => ?_, fun id r at_id => ?_⟩
  · rcases found at_id with ⟨same, rfl⟩ | old
    · exact same
    · exact h.keyed id r old
  · rcases found at_id with ⟨-, rfl⟩ | old
    · exact Nat.le_of_eq stamp
    · exact h.counted id r old

theorem Stamped.delete (h : db.Stamped) (id : String) : (db.delete id).Stamped := by
  have found : ∀ {other : String} {r : PendingAdmission},
      (db.delete id).pgAdmissionQueue[other]? = some r → db.pgAdmissionQueue[other]? = some r := by
    intro other r at_other
    unfold QueueDb.delete at at_other
    rw [OrdMap.get_erase] at at_other
    split at at_other
    · cases at_other
    · exact at_other
  exact ⟨fun other r at_other => h.keyed other r (found at_other),
    fun other r at_other => h.counted other r (found at_other)⟩

theorem Stamped.setAdmits (h : db.Stamped) {count : Nat} (grows : db.admitCount tenant ≤ count) :
    (db.setAdmits tenant count).Stamped := by
  refine ⟨h.keyed, fun id r found => ?_⟩
  have stamp := h.counted id r found
  rw [admitCount_setAdmits]
  split
  next same =>
    subst same
    exact Nat.le_trans stamp grows
  · exact stamp

end QueueDb

namespace QueueSystem

variable {s : QueueSystem} {i : Nat}

theorem Sound.others {s' : QueueSystem} (sound : s.Sound) (stamped : s'.db.Stamped)
    (tasks : ∀ j, j ≠ i → s'.tasks j = s.tasks j)
    (locks : ∀ j tenant, j ≠ i → s.locks (.tenant tenant) = some j →
      s'.locks (.tenant tenant) = some j ∧ s'.db.admitCount tenant = s.db.admitCount tenant)
    (own : ∀ task, s'.tasks i = some task → task.Sound s'.db s'.locks i) : s'.Sound := by
  refine ⟨stamped, fun j task at_j => ?_⟩
  by_cases same : j = i
  · subst same
    exact own task at_j
  · rw [tasks j same] at at_j
    have before := sound.tasks j task at_j
    cases task with
    | stamp tenant | increment tenant => exact (locks j tenant same before).1
    | insert row | commitInsert row =>
      obtain ⟨holds, counts⟩ := locks j row.tenant same before.1
      exact ⟨holds, before.2.trans counts.symm⟩
    | commitIncrement tenant count =>
      obtain ⟨holds, counts⟩ := locks j tenant same before.1
      exact ⟨holds, before.2.trans (congrArg (· + 1) counts.symm)⟩
    | _ => trivial

theorem Sound.withTask (sound : s.Sound) {task : Option QueueTask}
    (own : ∀ next, task = some next → next.Sound s.db s.locks i) : (s.withTask i task).Sound := by
  refine sound.others sound.stamped (fun j apart => if_neg apart)
    (fun j t _ holds => ⟨holds, rfl⟩) ?_
  intro next at_i
  exact own next ((if_pos rfl).symm.trans at_i)

theorem Sound.lockThen (sound : s.Sound) {lock : QueueLock} {task : QueueTask}
    (own : ∀ locks : QueueLock → Option Nat, locks lock = some i →
      (∀ l, s.locks l = some i → locks l = some i) →
      task.Sound s.db locks i) : (s.lockThen i lock task).Sound := by
  unfold QueueSystem.lockThen
  split
  · exact sound
  next free =>
    refine sound.others sound.stamped (fun j apart => if_neg apart) ?_ ?_
    · intro j tenant apart holds
      refine ⟨?_, rfl⟩
      dsimp only
      split
      next same =>
        subst same
        exact absurd holds (by
          intro held
          apply free
          simp [taken, held, apart])
      · exact holds
    · intro next at_i
      have same := (if_pos rfl).symm.trans at_i
      cases same
      refine own (fun l => if l = lock then some i else s.locks l) (if_pos rfl) ?_
      intro l holds
      split
      · rfl
      · exact holds

theorem Sound.finish (sound : s.Sound) {db : QueueDb} {reply : Result QueueReply}
    (stamped : db.Stamped) (counts : ∀ tenant, s.locks (.tenant tenant) ≠ some i →
      db.admitCount tenant = s.db.admitCount tenant) : (s.finish i db reply).Sound := by
  refine sound.others stamped (fun j apart => if_neg apart) ?_ ?_
  · intro j tenant apart holds
    have others : s.locks (.tenant tenant) ≠ some i := by
      rw [holds]
      exact fun same => apart (Option.some.inj same)
    exact ⟨(if_neg others).trans holds, counts tenant others⟩
  · intro next at_i
    have same := (if_pos rfl).symm.trans at_i
    cases same
    trivial

theorem Sound.stop (sound : s.Sound) : ((s.release i).withTask i none).Sound := by
  refine sound.others sound.stamped (fun j apart => if_neg apart) ?_ ?_
  · intro j tenant apart holds
    refine ⟨(if_neg ?_).trans holds, rfl⟩
    rw [holds]
    exact fun same => apart (Option.some.inj same)
  · intro next at_i
    cases (if_pos rfl).symm.trans at_i

theorem Sound.advance (sound : s.Sound) {task : QueueTask} (at_i : s.tasks i = some task)
    (tie : Nat) : (s.advance i tie task).Sound := by
  have own := sound.tasks i task at_i
  cases task with
  | enqueue tenant id enqueuedAtMs => exact sound.lockThen fun locks holds _ => holds
  | stamp tenant id enqueuedAtMs =>
    refine sound.withTask fun next same => ?_
    cases same
    exact ⟨own, rfl⟩
  | insert row =>
    dsimp only [QueueSystem.advance]
    split
    · exact sound
    split
    · exact sound.finish sound.stamped fun _ _ => rfl
    · exact sound.lockThen fun locks _ keeps => ⟨keeps _ own.1, own.2⟩
  | commitInsert row => exact sound.finish (sound.stamped.insert own.2) fun _ _ => rfl
  | dequeueHead onlyIds =>
    dsimp only [QueueSystem.advance]
    split
    · exact sound.finish sound.stamped fun _ _ => rfl
    · exact sound.lockThen fun _ _ _ => trivial
  | delete row =>
    refine sound.withTask fun next same => ?_
    cases same
    trivial
  | commitDelete row => exact sound.finish (sound.stamped.delete _) fun _ _ => rfl
  | admitTenant tenant => exact sound.lockThen fun locks holds _ => holds
  | increment tenant =>
    refine sound.withTask fun next same => ?_
    cases same
    exact ⟨own, rfl⟩
  | commitIncrement tenant count =>
    obtain ⟨holds, rfl⟩ := own
    refine sound.finish (sound.stamped.setAdmits (Nat.le_succ _)) fun other free => ?_
    rw [QueueDb.admitCount_setAdmits, if_neg]
    rintro rfl
    exact free holds
  | remove id =>
    dsimp only [QueueSystem.advance]
    split
    · exact sound
    · exact sound.finish (sound.stamped.delete _) fun _ _ => rfl
  | done reply => exact sound.stop

theorem Sound.step (sound : s.Sound) (event : QueueEvent) : (s.step event).Sound := by
  cases event with
  | abort i => exact sound.stop
  | start i call =>
    unfold QueueSystem.step
    dsimp only
    split
    · refine sound.withTask fun next same => ?_
      cases same
      cases call with
      | dequeueNextLocal ids =>
        dsimp only [QueueCall.begins]
        split <;> trivial
      | _ => trivial
    · exact sound
  | step i tie =>
    unfold QueueSystem.step
    dsimp only
    split
    · exact sound
    next task at_i => exact sound.advance at_i tie

theorem Sound.empty : QueueSystem.empty.Sound := by
  have none_queued : ∀ id : String, QueueDb.empty.pgAdmissionQueue[id]? = none := fun _ =>
    Std.ExtTreeMap.getElem?_empty
  refine ⟨⟨fun id row found => ?_, fun id row found => ?_⟩, fun i task at_i => nomatch at_i⟩
  · nomatch (none_queued id).symm.trans found
  · nomatch (none_queued id).symm.trans found

end QueueSystem

/-! ## Fairness -/

namespace QueueDb

variable {db : QueueDb} {onlyIds : Option (List String)} {locked : String → Bool} {tie : Nat}
  {row other : PendingAdmission}

theorem mem_candidates : row ∈ db.candidates onlyIds locked ↔
    (∃ id : String, db.pgAdmissionQueue[id]? = some row) ∧ row.eligible onlyIds = true ∧
      locked row.leaseRequestId = false := by
  unfold candidates
  rw [List.mem_filter, OrdMap.mem_vals, Bool.and_eq_true, Bool.not_eq_true']

theorem selectHead_least (selected : db.selectHead onlyIds locked tie = some row) :
    row ∈ db.candidates onlyIds locked ∧
      ∀ other ∈ db.candidates onlyIds locked, fairOrder row other ≠ .gt := by
  have head := List.mem_of_getElem? selected
  rw [List.mem_filter, List.all_eq_true] at head
  refine ⟨head.1, fun other candidate => ?_⟩
  exact bne_iff_ne.mp (head.2 other candidate)

theorem deficit_le_of_fairOrder (h : fairOrder row other ≠ .gt) : row.deficit ≤ other.deficit := by
  unfold fairOrder at h
  by_contra above
  have greater : compare row.deficit other.deficit = .gt :=
    compare_gt_iff_gt.mpr (Nat.lt_of_not_le above)
  rw [greater] at h
  exact h rfl

end QueueDb

def QueueTask.claimed : QueueTask → Option PendingAdmission
  | .delete row | .commitDelete row | .done (.ok (.head (some row))) => some row
  | _ => none

/-- A queued row the claim covers, in no other transaction's hands. -/
structure QueueSystem.Claimable (s : QueueSystem) (onlyIds : Option (List String))
    (row : PendingAdmission) : Prop where
  queued : s.db.pgAdmissionQueue[row.leaseRequestId]? = some row
  eligible : row.eligible onlyIds = true
  unlocked : s.locks (.row row.leaseRequestId) = none

/-- The row is the fair head of a claim: no claimable row comes before it, and no tenant with a
claimable row has won fewer admits than the row was stamped with. -/
structure QueueSystem.FairHead (s : QueueSystem) (onlyIds : Option (List String))
    (row : PendingAdmission) : Prop where
  queued : s.db.pgAdmissionQueue[row.leaseRequestId]? = some row
  eligible : row.eligible onlyIds = true
  first : ∀ other, s.Claimable onlyIds other → fairOrder row other ≠ .gt
  owed : ∀ other, s.Claimable onlyIds other → ¬ s.db.admitCount other.tenant < row.deficit

/-- What every event does: a session comes to a row only by a dequeue that claims the fair head, and
a row that appears in the queue is stamped with the admits its tenant has won by then. -/
structure QueueSystem.FairStep (s : QueueSystem) (event : QueueEvent) (s' : QueueSystem) :
    Prop where
  claims : ∀ i row, (s'.tasks i).bind QueueTask.claimed = some row →
    (s.tasks i).bind QueueTask.claimed = some row ∨ ∃ tie onlyIds, event = .step i tie ∧
      s.tasks i = some (.dequeueHead onlyIds) ∧ s.FairHead onlyIds row
  stamps : ∀ (id : String) (row : PendingAdmission), s'.db.pgAdmissionQueue[id]? = some row →
    s.db.pgAdmissionQueue[id]? = some row ∨ row.deficit = s.db.admitCount row.tenant

namespace QueueSystem

variable {s : QueueSystem} {i : Nat} {event : QueueEvent}

theorem Sound.fairHead (sound : s.Sound) {onlyIds : Option (List String)} {tie : Nat}
    {row : PendingAdmission}
    (selected : s.db.selectHead onlyIds (fun id => s.taken i (.row id)) tie = some row) :
    s.FairHead onlyIds row := by
  obtain ⟨candidate, least⟩ := QueueDb.selectHead_least selected
  obtain ⟨⟨id, found⟩, eligible, -⟩ := QueueDb.mem_candidates.mp candidate
  have first : ∀ other, s.Claimable onlyIds other → fairOrder row other ≠ .gt := by
    intro other claimable
    refine least other (QueueDb.mem_candidates.mpr ⟨⟨_, claimable.queued⟩, claimable.eligible, ?_⟩)
    simp [taken, claimable.unlocked]
  refine ⟨?_, eligible, first, fun other claimable fewer => ?_⟩
  · rw [sound.stamped.keyed id row found]
    exact found
  · -- the other row's stamp is at most what its tenant has won by now
    have stamp := sound.stamped.counted _ other claimable.queued
    have order := QueueDb.deficit_le_of_fairOrder (first other claimable)
    omega

theorem FairStep.of_task {s' : QueueSystem} (others : ∀ j, j ≠ i → s'.tasks j = s.tasks j)
    (own : ∀ row, (s'.tasks i).bind QueueTask.claimed = some row →
      (s.tasks i).bind QueueTask.claimed = some row ∨ ∃ tie onlyIds, event = .step i tie ∧
        s.tasks i = some (.dequeueHead onlyIds) ∧ s.FairHead onlyIds row)
    (stamps : ∀ (id : String) (row : PendingAdmission), s'.db.pgAdmissionQueue[id]? = some row →
      s.db.pgAdmissionQueue[id]? = some row ∨ row.deficit = s.db.admitCount row.tenant) :
    s.FairStep event s' := by
  refine ⟨fun j row claimed => ?_, stamps⟩
  by_cases same : j = i
  · subst same
    exact own row claimed
  · rw [others j same] at claimed
    exact .inl claimed

theorem FairStep.refl (s : QueueSystem) : s.FairStep event s :=
  ⟨fun _ _ claimed => .inl claimed, fun _ _ found => .inl found⟩

theorem FairStep.withTask {task : Option QueueTask}
    (own : ∀ row, task.bind QueueTask.claimed = some row →
      (s.tasks i).bind QueueTask.claimed = some row) : s.FairStep event (s.withTask i task) := by
  refine .of_task (i := i) (fun j apart => if_neg apart) (fun row claimed => ?_)
    fun _ _ found => .inl found
  have at_i : (s.withTask i task).tasks i = task := if_pos rfl
  rw [at_i] at claimed
  exact .inl (own row claimed)

theorem FairStep.lockThen {lock : QueueLock} {task : QueueTask}
    (own : ∀ row, task.claimed = some row → (s.tasks i).bind QueueTask.claimed = some row ∨
      ∃ tie onlyIds, event = .step i tie ∧ s.tasks i = some (.dequeueHead onlyIds) ∧
        s.FairHead onlyIds row) : s.FairStep event (s.lockThen i lock task) := by
  unfold QueueSystem.lockThen
  split
  · exact .refl s
  refine .of_task (i := i) (fun j apart => if_neg apart) (fun row claimed => ?_)
    fun _ _ found => .inl found
  have at_i : (s.withTask i (some task)).tasks i = some task := if_pos rfl
  have claimed' : ((s.withTask i (some task)).tasks i).bind QueueTask.claimed = some row := claimed
  rw [at_i] at claimed'
  exact own row claimed'

theorem FairStep.finish {db : QueueDb} {reply : Result QueueReply}
    (own : ∀ row, (QueueTask.done reply).claimed = some row →
      (s.tasks i).bind QueueTask.claimed = some row)
    (stamps : ∀ (id : String) (row : PendingAdmission), db.pgAdmissionQueue[id]? = some row →
      s.db.pgAdmissionQueue[id]? = some row ∨ row.deficit = s.db.admitCount row.tenant) :
    s.FairStep event (s.finish i db reply) := by
  refine .of_task (i := i) (fun j apart => if_neg apart) (fun row claimed => ?_) stamps
  have at_i : (s.finish i db reply).tasks i = some (.done reply) := if_pos rfl
  rw [at_i] at claimed
  exact .inl (own row claimed)

theorem FairStep.stop : s.FairStep event ((s.release i).withTask i none) := by
  refine .of_task (i := i) (fun j apart => if_neg apart) (fun row claimed => ?_)
    fun _ _ found => .inl found
  have at_i : ((s.release i).withTask i none).tasks i = none := if_pos rfl
  rw [at_i] at claimed
  cases claimed

/-- **One statement is fair.** -/
theorem Sound.advance_fair (sound : s.Sound) {task : QueueTask} (at_i : s.tasks i = some task)
    (tie : Nat) : s.FairStep (.step i tie) (s.advance i tie task) := by
  have own := sound.tasks i task at_i
  have same : ∀ (id : String) (row : PendingAdmission), s.db.pgAdmissionQueue[id]? = some row →
      s.db.pgAdmissionQueue[id]? = some row ∨ row.deficit = s.db.admitCount row.tenant :=
    fun _ _ => .inl
  have deleted : ∀ key (id : String) (row : PendingAdmission),
      (s.db.delete key).pgAdmissionQueue[id]? = some row →
      s.db.pgAdmissionQueue[id]? = some row ∨ row.deficit = s.db.admitCount row.tenant := by
    intro key id row found
    dsimp only [QueueDb.delete] at found
    rw [OrdMap.get_erase] at found
    split at found
    · cases found
    · exact .inl found
  cases task with
  | enqueue tenant id enqueuedAtMs => exact .lockThen nofun
  | stamp tenant id enqueuedAtMs => exact .withTask nofun
  | insert row =>
    dsimp only [QueueSystem.advance]
    split
    · exact .refl s
    split
    · exact .finish nofun same
    · exact .lockThen nofun
  | commitInsert row =>
    refine .finish nofun fun id found at_id => ?_
    dsimp only [QueueDb.insert] at at_id
    rw [OrdMap.get_insert] at at_id
    split at at_id
    · cases at_id
      exact .inr own.2
    · exact .inl at_id
  | dequeueHead onlyIds =>
    dsimp only [QueueSystem.advance]
    split
    · exact .finish nofun same
    next row selected =>
      refine .lockThen fun claimed head => ?_
      cases head
      exact .inr ⟨tie, onlyIds, rfl, at_i, sound.fairHead selected⟩
  | delete row =>
    refine .withTask fun claimed head => ?_
    rw [at_i]
    exact head
  | commitDelete row =>
    refine .finish (fun claimed head => ?_) (deleted _)
    rw [at_i]
    exact head
  | admitTenant tenant => exact .lockThen nofun
  | increment tenant => exact .withTask nofun
  | commitIncrement tenant count => exact .finish nofun same
  | remove id =>
    dsimp only [QueueSystem.advance]
    split
    · exact .refl s
    · exact .finish nofun (deleted id)
  | done reply => exact .stop

theorem Sound.step_fair (sound : s.Sound) (event : QueueEvent) :
    s.FairStep event (s.step event) := by
  cases event with
  | abort i => exact .stop
  | start i call =>
    dsimp only [QueueSystem.step]
    split
    · refine .withTask fun row claimed => ?_
      cases call with
      | dequeueNextLocal ids =>
        dsimp only [QueueCall.begins] at claimed
        split at claimed <;> cases claimed
      | _ => cases claimed
    · exact .refl s
  | step i tie =>
    dsimp only [QueueSystem.step]
    split
    · exact .refl s
    next task at_i => exact sound.advance_fair at_i tie

end QueueSystem

/-- **Along every run** of calls of any number of instances from the empty queue, a dequeue claims,
and so answers, only the fair head of the rows it may take: no claimable row comes before it in the
order, and no tenant with a claimable row has won fewer admits by then than the claimed row was
stamped with. The stamp is what the row's tenant had won when it was enqueued. -/
theorem dequeue_fair (events : List QueueEvent) : Along QueueSystem.step
    (fun s event => s.FairStep event (s.step event)) QueueSystem.empty events := by
  have along : Along QueueSystem.step (fun s _ => s.Sound ∧ True) QueueSystem.empty events :=
    Along.of_invariant QueueSystem.Sound (fun sound _ => sound.step _) (fun _ _ => trivial)
      QueueSystem.Sound.empty
  exact along.mono fun s event h => h.1.step_fair event

/-! ## Fairness by the admits of the moment -/

namespace QueueSystem

/-- The ids that an event selects among, where it is the statement of a dequeue that claims a
row. -/
def selects (s : QueueSystem) : QueueEvent → Option (Option (List String))
  | .step i _ =>
    match s.tasks i with
    | some (.dequeueHead onlyIds) => some onlyIds
    | _ => none
  | _ => none

/-- A dequeue finds every row it covers stamped with what its tenant has won by now: no tenant has
won an admit since it enqueued one of them. -/
def Fresh (s : QueueSystem) (event : QueueEvent) : Prop :=
  ∀ onlyIds ∈ s.selects event, ∀ row ∈ s.db.pgAdmissionQueue.vals,
    row.eligible onlyIds = true → row.deficit = s.db.admitCount row.tenant

instance (s : QueueSystem) (event : QueueEvent) : Decidable (s.Fresh event) :=
  inferInstanceAs (Decidable (∀ onlyIds ∈ s.selects event, ∀ row ∈ s.db.pgAdmissionQueue.vals,
    row.eligible onlyIds = true → row.deficit = s.db.admitCount row.tenant))

/-- The row is a queued one that the claim covers, and no tenant with a claimable row has won fewer
admits than the row's own. -/
structure OwedMost (s : QueueSystem) (onlyIds : Option (List String)) (row : PendingAdmission) :
    Prop where
  queued : s.db.pgAdmissionQueue[row.leaseRequestId]? = some row
  eligible : row.eligible onlyIds = true
  owed : ∀ other, s.Claimable onlyIds other →
    ¬ s.db.admitCount other.tenant < s.db.admitCount row.tenant

end QueueSystem

/-- **Cross-instance fairness.** Along every run whose dequeues find the rows they cover stamped
with their tenants' admits of the moment, a dequeue claims, and so answers, only rows of a tenant
that is owed the most service among those with a claimable row. -/
theorem dequeue_owed_most (events : List QueueEvent)
    (fresh : Along QueueSystem.step QueueSystem.Fresh QueueSystem.empty events) :
    Along QueueSystem.step (fun s event => ∀ i row,
      ((s.step event).tasks i).bind QueueTask.claimed = some row →
        (s.tasks i).bind QueueTask.claimed = some row ∨ ∃ onlyIds,
          s.tasks i = some (.dequeueHead onlyIds) ∧ s.OwedMost onlyIds row)
      QueueSystem.empty events := by
  refine (fresh.and (dequeue_fair events)).mono fun s event h i row claimed => ?_
  refine (h.2.claims i row claimed).imp_right ?_
  rintro ⟨tie, onlyIds, rfl, at_i, head⟩
  have stamp := h.1 onlyIds (by simp [QueueSystem.selects, at_i]) row
    (OrdMap.mem_vals.mpr ⟨_, head.queued⟩) head.eligible
  exact ⟨onlyIds, at_i, head.queued, head.eligible, stamp ▸ head.owed⟩

def QueueCall.alone (i : Nat) (call : QueueCall) : List QueueEvent :=
  .start i call :: List.replicate 5 (.step i 0)

def queueTenantA : TenantId := ⟨"tenant-a", by decide, by decide⟩

def queueTenantB : TenantId := ⟨"tenant-b", by decide, by decide⟩

/-- A dequeue of another instance, up to its answer. -/
def dequeueThird : List QueueEvent := .start 3 .dequeueNext :: List.replicate 3 (.step 3 0)

/-- One tenant enqueues and wins before it enqueues again; another, never served, enqueues last. -/
def turns : List QueueEvent :=
  (QueueCall.enqueue queueTenantA "a1" 1).alone 1 ++ QueueCall.dequeueNext.alone 1 ++
    (QueueCall.admitTenant queueTenantA).alone 1 ++ (QueueCall.enqueue queueTenantA "a2" 2).alone
    1 ++ (QueueCall.enqueue queueTenantB "b1" 3).alone 2 ++ dequeueThird

/-- The next dequeue answers the row of the tenant that was never served. -/
theorem dequeue_owed_most_turns :
    (turns.foldl QueueSystem.step QueueSystem.empty).tasks 3 =
        some (.done (.ok (.head (some ⟨queueTenantB, "b1", 3, 0⟩)))) ∧
      Along QueueSystem.step QueueSystem.Fresh QueueSystem.empty turns ∧
      Along QueueSystem.step (fun s event => ∀ i row,
        ((s.step event).tasks i).bind QueueTask.claimed = some row →
          (s.tasks i).bind QueueTask.claimed = some row ∨ ∃ onlyIds,
            s.tasks i = some (.dequeueHead onlyIds) ∧ s.OwedMost onlyIds row)
        QueueSystem.empty turns :=
  have fresh : Along QueueSystem.step QueueSystem.Fresh QueueSystem.empty turns := by decide +kernel
  ⟨by decide +kernel, fresh, dequeue_owed_most turns fresh⟩

/-- One tenant enqueues two requests and wins with the first; then another tenant, never served,
enqueues its own. -/
def burst : QueueSystem :=
  ((QueueCall.enqueue queueTenantA "a1" 1).alone 1 ++ (QueueCall.enqueue queueTenantA "a2" 2).alone
    1 ++ QueueCall.dequeueNext.alone 1 ++ (QueueCall.admitTenant queueTenantA).alone 1 ++
    (QueueCall.enqueue queueTenantB "b1" 3).alone 2).foldl QueueSystem.step QueueSystem.empty

/-- The next dequeue answers the second row of the tenant that was served, with the other's row
queued and free: the rows of a burst keep the stamp they were enqueued with. -/
theorem burst_served_first : burst.db.pgAdmissionQueue["b1"]? = some ⟨queueTenantB, "b1", 3, 0⟩ ∧
      burst.locks (.row "b1") = none ∧
      burst.db.admitCount queueTenantB < burst.db.admitCount queueTenantA ∧
      (dequeueThird.foldl QueueSystem.step burst).tasks 3 =
        some (.done (.ok (.head (some ⟨queueTenantA, "a2", 2, 0⟩)))) := by
  decide +kernel

end CorelinkRunners
