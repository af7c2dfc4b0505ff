import CorelinkRunners.Server.Admission

/-!
# Where a handler stands

The typestate of the handlers. A `Stage` is what one task knows and owes: the leases it knows to
have had a box, the leases whose box it has had torn down, and the slot event that is due for the
move it has just made.

`rule` is the discipline: a task moves a row to a terminal state only after it had the box torn
down, records only the slot event that is due, works on the lease until it is recorded, and cannot
be dropped before.
-/

namespace CorelinkRunners.Server

open Kit Envelope

def slotKind : RunnerState → SlotEventKind
  | .held => .acquired
  | .released => .released
  | .expired => .expired
  | .crashed => .crashed

/-! ## Stages -/

/-- What a task knows and owes. -/
structure Stage where
  /-- Leases that had a box: this task spawned it, or read the row as Held. -/
  known : List String := []
  /-- Leases whose teardown was confirmed to this task. -/
  torn : List String := []
  /-- The lease this task has moved, with the slot event of the move. -/
  due : Option (String × SlotEventKind) := none

namespace Stage

variable (g : Stage)

def reads (rows : List LeaseRecord) : Stage :=
  { g with known := rows.map LeaseRecord.leaseId ++ g.known }

def afterRow : (op : RowOp) → op.Ans → Stage
  | .get _, .ok (some row) => g.reads ([row].filter fun row => row.state.isHeld)
  | .held, .ok rows => g.reads rows
  | .byTenant _, .ok rows => g.reads (rows.filter fun row => row.state.isHeld)
  | .transition id target _, .ok _ => { g with due := some (id, slotKind target) }
  | _, _ => g

def afterBox : (op : BoxOp) → op.Ans → Stage
  | .provision id _, .ok _ => { g with known := id :: g.known }
  | .teardown id, true => { g with torn := id :: g.torn }
  | _, _ => g

def afterMeter : MeterOp → Stage
  | .recordSlot .. => { g with due := none }
  | .count .. => g

def after : (op : Op) → op.Ans → Stage
  | .row op, x => g.afterRow op x
  | .box _ op, x => g.afterBox op x
  | .meter _ op, _ => g.afterMeter op
  | _, _ => g

end Stage

/-! ## The discipline -/

/-- The reservation of a selected item is for a Pending lease. -/
def Candidate.Fits (candidate : Candidate) : Prop :=
  ∀ reservation ∈ candidate.pending, reservation.1.state = .pending

def Stage.Ready (g : Stage) (leaseId : String) : RunnerState → Prop
  | .held => leaseId ∈ g.known
  | _ => leaseId ∈ g.torn

def Stage.Permits (g : Stage) : Op → Prop
  | .row (.tryAdmitWithCompute rec ..) => rec.state = .pending
  | .row (.transition id target _) => g.due = none ∧ g.Ready id target
  | .box _ (.teardown id) => id ∈ g.known
  | .meter _ (.recordSlot id _ kind _) => g.due = some (id, kind)
  | .queue _ (.insertWaiter _ queued) => queued.pending.state = .pending
  | _ => True

structure Stage.Allows (call : Call) (g : Stage) (op : Op) : Prop where
  /-- A task that owes a slot event works on its lease. -/
  busy : ∀ due ∈ g.due, op.about = some due.1
  /-- No request is suspended with a slot event due. -/
  awaits : op.awaits = true → call.isRequest = true → g.due = none
  permits : g.Permits op

def Op.Possible : (op : Op) → op.Ans → Prop
  | .row (.get id), .ok (some record) => record.leaseId = id
  | .queue _ (.takeWaiter _), some queued => queued.pending.state = .pending
  | .queue _ (.select _), candidates => ∀ candidate ∈ candidates, candidate.Fits
  | _, _ => True

/-- **The discipline of the handlers.** -/
def rule : Discipline Op Op.Ans Call Reply Stage where
  begins _ := {}
  allows call g op := g.Allows call op
  possible _ _ op x := op.Possible x
  next _ g op x := g.after op x
  ends _ _ g := g.due = none
  left _ g _ := g

/-! ## Rules for the programs -/

/-- The effects that every stage permits, and that make no slot event due. -/
def Op.inert : Op → Bool
  | .row (.tryAdmitWithCompute ..) | .row (.transition ..) | .box _ (.teardown _)
  | .meter _ (.recordSlot ..) | .queue _ (.insertWaiter ..) => false
  | _ => true

section Inert

variable {op : Op} (inert : op.inert = true) (g : Stage)

include inert

theorem Stage.permits_of_inert : g.Permits op := by
  unfold Stage.Permits
  split
  case h_6 => trivial
  all_goals nomatch inert

theorem Stage.after_inert (x : op.Ans) : (g.after op x).due = g.due := by
  cases op with
  | row op =>
    dsimp only [Stage.after]
    unfold Stage.afterRow
    split
    case h_4 => nomatch inert
    all_goals rfl
  | box i op =>
    dsimp only [Stage.after]
    unfold Stage.afterBox
    split <;> rfl
  | meter i op =>
    cases op with
    | recordSlot => nomatch inert
    | count => rfl
  | _ => rfl

end Inert

structure Stage.Grows (g g' : Stage) : Prop where
  known : g.known ⊆ g'.known
  torn : g.torn ⊆ g'.torn

theorem Stage.Grows.refl (g : Stage) : g.Grows g := ⟨List.Subset.refl _, List.Subset.refl _⟩

theorem Stage.after_grows (g : Stage) (op : Op) (x : op.Ans) : g.Grows (g.after op x) := by
  cases op with
  | row op =>
    dsimp only [Stage.after]
    unfold Stage.afterRow Stage.reads
    split
    case h_4 => exact ⟨List.Subset.refl _, List.Subset.refl _⟩
    case h_5 => exact .refl g
    all_goals exact ⟨List.subset_append_right _ _, List.Subset.refl _⟩
  | box i op =>
    dsimp only [Stage.after]
    unfold Stage.afterBox
    split
    · exact ⟨List.subset_cons_self _ _, List.Subset.refl _⟩
    · exact ⟨List.Subset.refl _, List.subset_cons_self _ _⟩
    · exact .refl g
  | meter i op => cases op <;> exact ⟨List.Subset.refl _, List.Subset.refl _⟩
  | _ => exact .refl g

section Rules

variable {A C : Type} {call : Call} {g : Stage} {post : A → Stage → Prop} {i : Nat} {id : String}
  {op : Op} {kind : SlotEventKind}

theorem Stage.Grows.trans {g g' g'' : Stage} (first : g.Grows g') (rest : g'.Grows g'') :
    g.Grows g'' :=
  ⟨List.Subset.trans first.known rest.known, List.Subset.trans first.torn rest.torn⟩

theorem Obeys.grown {p : Path A} (h : Obeys rule call post p g) :
    Obeys rule call (fun a g' => post a g' ∧ g.Grows g') p g :=
  h.grows Stage.Grows.refl
    Stage.Grows.trans
    fun g op x => g.after_grows op x

theorem Stage.allows_idle (idle : g.due = none) (permits : g.Permits op) : g.Allows call op :=
  ⟨fun _ due => (nomatch idle.symm.trans due), fun _ _ => idle, permits⟩

theorem Obeys.inert {k : op.Ans → Path A} (idle : g.due = none) (inert : op.inert = true)
    (rest : ∀ x, op.Possible x → ∀ g' : Stage, g'.due = none → Obeys rule call post (k x) g') :
    Obeys rule call post (Path.ask op k) g :=
  ⟨g.allows_idle idle (g.permits_of_inert inert), fun x possible =>
    rest x possible _ ((g.after_inert inert x).trans idle)⟩

theorem Obeys.chore {k : op.Ans → Path A} (due : g.due = some (id, kind)) (inert : op.inert = true)
    (about : op.about = some id) (awaits : op.awaits = false ∨ call.isRequest = false)
    (rest : ∀ x, op.Possible x → ∀ g' : Stage, g'.due = some (id, kind) →
      Obeys rule call post (k x) g') : Obeys rule call post (Path.ask op k) g := by
  refine ⟨⟨fun owed same => ?_, fun suspended request => ?_, g.permits_of_inert inert⟩,
    fun x possible => rest x possible _ ((g.after_inert inert x).trans due)⟩
  · cases due.symm.trans same
    exact about
  · rcases awaits with no | no
    · nomatch suspended.symm.trans no
    · nomatch request.symm.trans no

theorem Obeys.records {k : Path A} {tenant : TenantId} {stamp : Option Nat}
    (due : g.due = some (id, kind))
    (rest : ∀ g' : Stage, g'.due = none → g.Grows g' → Obeys rule call post k g') :
    Obeys rule call post (Path.act (.meter i (.recordSlot id tenant kind stamp)) k) g := by
  refine ⟨⟨fun owed same => ?_, nofun, due⟩, fun _ _ => rest _ rfl ⟨.refl _, .refl _⟩⟩
  cases due.symm.trans same
  rfl

theorem Obeys.transition {k : Result LeaseRecord → Path A} {target : RunnerState}
    {nowMs : Option Nat} (idle : g.due = none) (ready : g.Ready id target)
    (moved : ∀ row, ∀ g' : Stage, g'.due = some (id, slotKind target) → g.Grows g' →
      Obeys rule call post (k (.ok row)) g')
    (refused : ∀ e, Obeys rule call post (k (.error e)) g) :
    Obeys rule call post (Path.ask (.row (.transition id target nowMs)) k) g := by
  refine ⟨g.allows_idle idle ⟨idle, ready⟩, fun x _ => ?_⟩
  match x with
  | .ok row => exact moved row _ rfl (g.after_grows (.row (.transition id target nowMs)) (.ok row))
  | .error e => exact refused e

theorem Obeys.teardown {k : Bool → Path A} (idle : g.due = none) (known : id ∈ g.known)
    (torn : ∀ g' : Stage, g'.due = none → id ∈ g'.torn → g.Grows g' →
      Obeys rule call post (k true) g') (failed : Obeys rule call post (k false) g) :
    Obeys rule call post (Path.ask (.box i (.teardown id)) k) g := by
  refine ⟨g.allows_idle idle known, fun x _ => ?_⟩
  match x with
  | true => exact torn _ idle List.mem_cons_self (g.after_grows (.box i (.teardown id)) true)
  | false => exact failed

theorem Obeys.get {k : Result (Option LeaseRecord) → Path A} (idle : g.due = none)
    (found : ∀ row, row.leaseId = id → ∀ g' : Stage, g'.due = none →
      (row.state = .wire .held → id ∈ g'.known) → Obeys rule call post (k (.ok (some row))) g')
    (absent : Obeys rule call post (k (.ok none)) g)
    (failed : ∀ e, Obeys rule call post (k (.error e)) g) :
    Obeys rule call post (Path.ask (.row (.get id)) k) g := by
  refine ⟨g.allows_idle idle trivial, fun x possible => ?_⟩
  match x, possible with
  | .ok (some row), possible =>
    refine found row possible _ idle fun held => ?_
    have named : row.leaseId = id := possible
    simp [rule, Stage.after, Stage.afterRow, Stage.reads, LeaseState.isHeld_iff.mpr held, named]
  | .ok none, _ => exact absent
  | .error e, _ => exact failed e

/-- **From every stage without a due event to such a stage**, whatever is answered. -/
def Settles (call : Call) (p : Path A) : Prop :=
  ∀ g : Stage, g.due = none → Obeys rule call (fun _ g' => g'.due = none) p g

namespace Settles

theorem answer {a : A} : Settles call (Path.answer a) := fun _ idle => idle

theorem ask {k : op.Ans → Path A} (inert : op.inert = true)
    (rest : ∀ x, op.Possible x → Settles call (k x)) : Settles call (Path.ask op k) :=
  fun _ idle => Obeys.inert idle inert fun x possible g' idle' => rest x possible g' idle'

theorem act {k : Path A} (inert : op.inert = true) (rest : Settles call k) :
    Settles call (Path.act op k) := .ask inert fun _ _ => rest

theorem bind {p : Path C} {f : C → Path A} (first : Settles call p)
    (rest : ∀ c, Settles call (f c)) : Settles call (p.bind f) :=
  fun g idle => Obeys.bind (first g idle) fun c g' idle' => rest c g' idle'

end Settles

end Rules

end CorelinkRunners.Server
