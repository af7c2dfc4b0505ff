import CorelinkRunners.Server.Base

/-!
# Every slot is accounted for once

Seven paths move a lease, each from any process, and each records the slot event of the move it
made. The moves of a lease are those behind its state (`behind`), and for every kind of event the
moves are an obligation of the tasks: taken on with the transition, met with the event. A task that
owes one works on its lease, and it cannot be dropped before it is done.
-/

namespace CorelinkRunners.Server

open Kit

variable {B : Type}

/-! ## The account of a lease -/

def movesOf (id : String) (log : List Happening) : List RunnerState := log.filterMap (movedTo id)

def slotsOf (id : String) (log : List Happening) : List SlotEventKind := log.filterMap (slotFor id)

def Provisioned (id : String) (log : List Happening) : Prop := ∃ i, .provisioned i id ∈ log

/-- A teardown of the lease succeeded after its box was provisioned. -/
def TornAfter (id : String) (log : List Happening) : Prop :=
  ∃ i j, [.provisioned i id, .torn j id].Sublist log

variable {id : String} {log : List Happening}

theorem Provisioned.append (h : Provisioned id log) (new : List Happening) :
    Provisioned id (log ++ new) :=
  h.imp fun _ member => List.mem_append_left new member

theorem TornAfter.append (h : TornAfter id log) (new : List Happening) :
    TornAfter id (log ++ new) := by
  obtain ⟨i, j, sub⟩ := h
  exact ⟨i, j, sub.trans (List.sublist_append_left log new)⟩

theorem Provisioned.torn (h : Provisioned id log) (j : Nat) :
    TornAfter id (log ++ [.torn j id]) := by
  obtain ⟨i, member⟩ := h
  exact ⟨i, j, List.Sublist.append (List.singleton_sublist.mpr member) (List.Sublist.refl _)⟩

structure Knows (log : List Happening) (g : Stage) : Prop where
  known : ∀ id ∈ g.known, Provisioned id log
  torn : ∀ id ∈ g.torn, TornAfter id log

theorem Knows.append {g : Stage} (knows : Knows log g) (new : List Happening) :
    Knows (log ++ new) g :=
  ⟨fun id h => (knows.known id h).append new, fun id h => (knows.torn id h).append new⟩

def Owes (id : String) (kind : SlotEventKind) (_ : Call) (g : Stage) : Prop :=
  g.due = some (id, kind)

/-- An entry of the log that ends a lease comes after a teardown. -/
def EndsTorn (before : List Happening) (what : Happening) : Prop :=
  ∀ row state, what = .moved row → row.state = .wire state → state.isTerminal = true →
    TornAfter row.leaseId before

/-- How often the lease was moved to a state with this kind of event. -/
def taken (id : String) (kind : SlotEventKind) (log : List Happening) : Nat :=
  ((movesOf id log).map slotKind).count kind

/-- **The accounts are kept.** -/
structure Accounted (w : World B) (gs : Stages Call Stage) : Prop where
  moves : ∀ id, movesOf id w.log = behind (w.stateAt id)
  slots : ∀ id kind, Obligation gs (Owes id kind) (taken id kind w.log)
    ((slotsOf id w.log).count kind)
  held : ∀ id, behind (w.stateAt id) ≠ [] → Provisioned id w.log
  tasks : ∀ j call g, gs j = some (call, g) → Knows w.log g
  ordered : Traced EndsTorn w.log

/-! ## One event -/

section Silent

variable {new : List Happening} (silent : ∀ what ∈ new, what.Silent)

include silent

theorem movesOf_silent (id : String) (log : List Happening) :
    movesOf id (log ++ new) = movesOf id log := by
  rw [movesOf, List.filterMap_append, List.filterMap_eq_nil_iff.mpr fun what h =>
    (silent what h id).1, List.append_nil]
  rfl

theorem slotsOf_silent (id : String) (log : List Happening) :
    slotsOf id (log ++ new) = slotsOf id log := by
  rw [slotsOf, List.filterMap_append, List.filterMap_eq_nil_iff.mpr fun what h =>
    (silent what h id).2, List.append_nil]
  rfl

theorem endsTorn_silent (before : List Happening) : ∀ what ∈ new, EndsTorn before what := by
  intro what member row state same at_state
  subst same
  have never := (silent _ member row.leaseId).1
  simp [movedTo, at_state] at never

end Silent

namespace Accounted

variable {w w' : World B} {gs : Stages Call Stage} {i : Nat} {call : Call} {g g' : Stage}
  {stage : Option (Call × Stage)}

theorem tasks_set (inv : Accounted w gs) {new : List Happening}
    (knows : ∀ call g, stage = some (call, g) → Knows (w.log ++ new) g) :
    ∀ j call g, gs.set i stage j = some (call, g) → Knows (w.log ++ new) g := by
  intro j call g at_j
  by_cases here : j = i
  · subst here
    rw [Stages.set_self] at at_j
    exact knows call g at_j
  · rw [Stages.set_other gs here] at at_j
    exact (inv.tasks j call g at_j).append new

theorem has_owes_same (at_i : gs i = some (call, g)) (due : g'.due = g.due) (id : String)
    (kind : SlotEventKind) :
    (gs.set i (some (call, g'))).Has (Owes id kind) i ↔ gs.Has (Owes id kind) i := by
  rw [Stages.has_set_self, Stages.has_iff at_i, Owes, Owes, due]

theorem silent (inv : Accounted w gs) (new : List Happening) (alike : w.Alike w')
    (log : w'.log = w.log ++ new) (quiet : ∀ what ∈ new, what.Silent)
    (same : ∀ id kind, (gs.set i stage).Has (Owes id kind) i ↔ gs.Has (Owes id kind) i)
    (knows : ∀ call g, stage = some (call, g) → Knows (w.log ++ new) g) :
    Accounted w' (gs.set i stage) := by
  refine ⟨fun id => ?_, fun id kind => ?_, fun id held => ?_, ?_, ?_⟩
  · rw [log, movesOf_silent quiet, inv.moves, alike id]
  · rw [log, taken, movesOf_silent quiet, slotsOf_silent quiet]
    exact (inv.slots id kind).keep (same id kind)
  · rw [alike id] at held
    rw [log]
    exact (inv.held id held).append new
  · rw [log]
    exact inv.tasks_set knows
  · rw [log]
    exact inv.ordered.append (endsTorn_silent quiet)

variable {target : RunnerState}

theorem movesOf_moved (id : String) (log : List Happening) {row : LeaseRecord}
    (state : row.state = .wire target) : movesOf id (log ++ [.moved row]) =
      movesOf id log ++ if row.leaseId = id then [target] else [] := by
  rw [movesOf, List.filterMap_append]
  congr 1
  by_cases same : row.leaseId = id
  · simp [movedTo, state, same]
  · simp [movedTo, state, same]

theorem slotsOf_moved (id : String) (log : List Happening) (row : LeaseRecord) :
    slotsOf id (log ++ [.moved row]) = slotsOf id log := by
  rw [slotsOf, List.filterMap_append]
  exact List.append_nil _

variable {state : LeaseState}

theorem behind_moved (legal : transitionIsLegal state target = true) :
    behind (some state) ++ [target] = behind (some (.wire target)) := by
  rcases transitionIsLegal_iff.mp legal with ⟨rfl, rfl⟩ | ⟨rfl, terminal⟩
  · rfl
  · cases target <;> first | rfl | nomatch terminal

theorem count_behind (legal : transitionIsLegal state target = true) :
    ((behind (some state)).map slotKind).count (slotKind target) = 0 := by
  rcases transitionIsLegal_iff.mp legal with ⟨rfl, rfl⟩ | ⟨rfl, terminal⟩
  · rfl
  · cases target <;> first | rfl | nomatch terminal

/-- **A transition** takes its slot event on, after the teardown where it ends the lease. -/
theorem moved (inv : Accounted w gs) (at_i : gs i = some (call, g)) {id : String}
    {nowMs : Option Nat} {rec : LeaseRecord} {at_ : Nat}
    (permits : g.Permits (.row (.transition id target nowMs)))
    (found : w.ledger.records[id]? = some rec) (named : rec.leaseId = id)
    (legal : transitionIsLegal rec.state target = true)
    (inserted : w'.ledger.records = w.ledger.records.insert id (rec.stamped target at_))
    (log : w'.log = w.log ++ [.moved (rec.stamped target at_)]) : Accounted w'
      (gs.set i (some (call, { g with due := some (id, slotKind target) }))) := by
  obtain ⟨idle, ready⟩ := permits
  have knows := inv.tasks i call g at_i
  have before := World.stateAt_of_get found
  have after (other : String) : w'.stateAt other =
      if id = other then some (.wire target) else w.stateAt other := by
    rw [World.stateAt_insert inserted, LeaseRecord.stamped_state]
  have named' : (rec.stamped target at_).leaseId = id :=
    (LeaseRecord.stamped_leaseId _ _ _).trans named
  have moves (other : String) : movesOf other w'.log =
      movesOf other w.log ++ if id = other then [target] else [] := by
    rw [log, movesOf_moved other _ (LeaseRecord.stamped_state _ _ _), named']
  have provisioned : Provisioned id w.log := by
    rcases transitionIsLegal_iff.mp legal with ⟨_, held⟩ | ⟨held, _⟩
    · subst held
      exact knows.known id ready
    · exact inv.held id (by rw [before, held]; nofun)
  refine ⟨fun other => ?_, fun other kind => ?_, fun other held => ?_, ?_, ?_⟩
  · rw [moves, after, inv.moves]
    by_cases same : id = other
    · subst same
      rw [if_pos rfl, if_pos rfl, before]
      exact behind_moved legal
    · rw [if_neg same, if_neg same, List.append_nil]
  · rw [taken, moves, log, slotsOf_moved, List.map_append, List.count_append]
    by_cases due : id = other ∧ slotKind target = kind
    · obtain ⟨rfl, rfl⟩ := due
      have none_taken : taken id (slotKind target) w.log = 0 := by
        rw [taken, inv.moves, before, count_behind legal]
      have even : taken id (slotKind target) w.log =
          (slotsOf id w.log).count (slotKind target) := by
        have := (inv.slots id (slotKind target)).met_le
        omega
      rw [if_pos rfl]
      have one : ([target].map slotKind).count (slotKind target) = 1 := by simp
      rw [one]
      refine (inv.slots id (slotKind target)).take even ?_
      exact Stages.has_set_self.mpr rfl
    · have none_new : (List.map slotKind (if id = other then [target] else [])).count kind = 0 := by
        by_cases same : id = other
        · have apart : slotKind target ≠ kind := fun h => due ⟨same, h⟩
          simp [same, apart]
        · simp [same]
      rw [none_new, Nat.add_zero]
      refine (inv.slots other kind).keep ⟨fun held => ?_, fun held => ?_⟩
      · have owes : Owes other kind call _ := Stages.has_set_self.mp held
        exact absurd (Prod.mk.inj (Option.some.inj owes)) due
      · nomatch idle.symm.trans ((Stages.has_iff at_i).mp held)
  · by_cases same : id = other
    · subst same
      rw [log]
      exact provisioned.append _
    · rw [after, if_neg same] at held
      rw [log]
      exact (inv.held other held).append _
  · rw [log]
    refine inv.tasks_set fun call' g' same => ?_
    cases same
    exact ⟨(knows.append _).known, (knows.append _).torn⟩
  · rw [log]
    refine inv.ordered.snoc ?_
    rintro row state ⟨⟩ at_state terminal
    rw [LeaseRecord.stamped_state] at at_state
    cases at_state
    rw [named']
    cases target with
    | held => nomatch terminal
    | _ => exact knows.torn id ready

/-- **A slot event** meets the obligation of the task that records it. -/
theorem recorded (inv : Accounted w gs) (at_i : gs i = some (call, g)) {n : Nat}
    {ev : SlotOccupancyEvent} (owes : Owes ev.leaseId ev.kind call g) (knows : Knows w.log g) :
    Accounted (w.recordSlot n ev) (gs.set i (some (call, { g with due := none }))) := by
  have log : (w.recordSlot n ev).log = w.log ++ [.slot n ev] := rfl
  have alike : w.Alike (w.recordSlot n ev) :=
    World.alike_same (congrArg InMemoryInner.records (w.recordSlot_same n ev).1)
  have moves (id : String) : movesOf id (w.recordSlot n ev).log = movesOf id w.log := by
    rw [log, movesOf, List.filterMap_append]
    exact List.append_nil _
  have slots (id : String) : slotsOf id (w.recordSlot n ev).log =
      slotsOf id w.log ++ if ev.leaseId = id then [ev.kind] else [] := by
    rw [log, slotsOf, List.filterMap_append]
    congr 1
    by_cases same : ev.leaseId = id
    · simp [slotFor, same]
    · simp [slotFor, same]
  have done (id : String) (kind : SlotEventKind) :
      ¬(gs.set i (some (call, { g with due := none }))).Has (Owes id kind) i :=
    fun held => nomatch Stages.has_set_self.mp held
  refine ⟨fun id => ?_, fun id kind => ?_, fun id held => ?_, ?_, ?_⟩
  · rw [moves, alike, inv.moves]
  · rw [taken, moves, slots, List.count_append]
    by_cases due : ev.leaseId = id ∧ ev.kind = kind
    · obtain ⟨rfl, rfl⟩ := due
      have one : (if ev.leaseId = ev.leaseId then [ev.kind] else []).count ev.kind = 1 := by simp
      rw [one]
      exact (inv.slots _ _).meet ((Stages.has_iff at_i).mpr owes) (done _ _)
    · have none_new : (if ev.leaseId = id then [ev.kind] else []).count kind = 0 := by
        by_cases same : ev.leaseId = id
        · have apart : ev.kind ≠ kind := fun h => due ⟨same, h⟩
          simp [same, apart]
        · simp [same]
      rw [none_new, Nat.add_zero]
      refine (inv.slots id kind).keep ⟨fun held => absurd held (done id kind), fun held => ?_⟩
      have same := owes.symm.trans ((Stages.has_iff at_i).mp held)
      exact absurd (Prod.mk.inj (Option.some.inj same)) due
  · rw [alike] at held
    rw [log]
    exact (inv.held id held).append _
  · rw [log]
    refine inv.tasks_set fun call' g'' same => ?_
    cases same
    exact ⟨(knows.append _).known, (knows.append _).torn⟩
  · rw [log]
    refine inv.ordered.snoc ?_
    rintro row state ⟨⟩

end Accounted

/-! ## Every run -/

section Run

variable [SerdeJson] {prov : BoxProvisioner B} {w : World B} {gs : Stages Call Stage} {i : Nat}
  {call : Call} {g : Stage} {env : Outside}

open Accounted

theorem Accounted.row (based : w.Based) (inv : Accounted w gs) (at_i : gs i = some (call, g))
    {op : RowOp} (permits : g.Permits (.row op)) :
    Accounted (w.rowOp env op).2 (gs.set i (some (call, g.afterRow op (w.rowOp env op).1))) := by
  have does : RowDoes w op (w.rowOp env op).1 (w.rowOp env op).2 :=
    World.rowOp_does based.ledger permits
  have knows := inv.tasks i call g at_i
  generalize (w.rowOp env op).1 = x at does ⊢
  generalize (w.rowOp env op).2 = w' at does ⊢
  cases does with
  | quiet new alike read after =>
    rw [after]
    refine inv.silent [] alike (List.append_nil _).symm (List.forall_mem_nil _)
      (has_owes_same at_i rfl) fun call' g' stage => ?_
    cases stage
    rw [List.append_nil]
    refine ⟨fun id known => ?_, knows.torn⟩
    rcases List.mem_append.mp known with fresh | old
    · obtain ⟨row, member, rfl⟩ := List.mem_map.mp fresh
      obtain ⟨found, held⟩ := read row member
      exact inv.held row.leaseId (by rw [World.stateAt_of_get found, held]; nofun)
    · exact knows.known id old
  | refused =>
    refine inv.silent [_] (World.alike_same rfl) rfl (fun what only => ?_)
      (has_owes_same at_i rfl) fun call' g' stage => ?_
    · rw [List.mem_singleton.mp only]
      exact fun _ => ⟨rfl, rfl⟩
    · cases stage
      exact knows.append _
  | moved found named legal inserted => exact inv.moved at_i permits found named legal inserted rfl

omit [SerdeJson] in
theorem Accounted.spared (inv : Accounted w gs) (at_i : gs i = some (call, g)) {w' : World B}
    (spares : w.Spares w') : Accounted w' (gs.set i (some (call, g))) := by
  obtain ⟨new, log, quiet⟩ := spares.log
  refine inv.silent new (World.alike_same (congrArg InMemoryInner.records spares.ledger)) log quiet
    (has_owes_same at_i rfl) fun call' g' stage => ?_
  cases stage
  exact (inv.tasks i call g at_i).append new

/-- **Every effect keeps the accounts.** -/
theorem Accounted.perform (based : w.Based) (inv : Accounted w gs) (at_i : gs i = some (call, g))
    {op : Op} (permits : g.Permits op) : Accounted (w.perform prov env op).2
      (gs.set i (some (call, g.after op (w.perform prov env op).1))) := by
  have knows := inv.tasks i call g at_i
  cases op with
  | row op => exact inv.row based at_i permits
  | box n op =>
    have does := w.boxOp_does prov env n op
    change Accounted (w.boxOp prov env n op).2
      (gs.set i (some (call, g.afterBox op (w.boxOp prov env n op).1)))
    generalize (w.boxOp prov env n op).1 = x at does ⊢
    generalize (w.boxOp prov env n op).2 = w' at does ⊢
    have one {what : Happening} (quiet : what.Silent) : ∀ other ∈ [what], other.Silent :=
      fun other only => List.mem_singleton.mp only ▸ quiet
    cases does with
    | quiet spares after =>
      rw [after]
      exact inv.spared at_i spares
    | @spawned id spec x boxes =>
      have known : Provisioned id (w.log ++ [.provisioned n id]) :=
        ⟨n, List.mem_append_right _ (List.mem_singleton.mpr rfl)⟩
      have knows' := knows.append [.provisioned n id]
      refine inv.silent [.provisioned n id] (World.alike_same rfl) rfl (one fun _ => ⟨rfl, rfl⟩)
        (by cases x <;> exact has_owes_same at_i rfl) fun call' g' stage => ?_
      cases stage
      cases x with
      | error e => exact knows'
      | ok ref => exact ⟨List.forall_mem_cons.mpr ⟨known, knows'.known⟩, knows'.torn⟩
    | @torn id boxes =>
      refine inv.silent [.torn n id] (World.alike_same rfl) rfl (one fun _ => ⟨rfl, rfl⟩)
        (has_owes_same at_i rfl) fun call' g' stage => ?_
      have knows' := knows.append [.torn n id]
      cases stage
      exact ⟨knows'.known, List.forall_mem_cons.mpr ⟨(knows.known id permits).torn n, knows'.torn⟩⟩
  | meter n op =>
    cases op with
    | recordSlot => exact inv.recorded at_i permits knows
    | count => exact inv.spared at_i ((World.Spares.refl w).note fun _ => ⟨rfl, rfl⟩)
  | cred n op => exact inv.spared at_i (w.credOp_spares env n op)
  | side n op => exact inv.spared at_i (w.sideOp_spares prov n op)
  | hook n op => exact inv.spared at_i (w.hookOp_spares env n op)
  | gate n op => exact inv.spared at_i (w.gateOp_spares env n op)
  | queue n op => exact inv.spared at_i (w.queueOp_spares env n permits)
  | outer op => exact inv.spared at_i (.refl w)

omit [SerdeJson] in
theorem Accounted.without (inv : Accounted w gs) {w' : World B} (spares : w.Spares w')
    {stage : Option (Call × Stage)} (free : ∀ call g, gs i = some (call, g) → g.due = none)
    (fresh : ∀ call g, stage = some (call, g) → g = {}) : Accounted w' (gs.set i stage) := by
  obtain ⟨new, log, quiet⟩ := spares.log
  have never {gs' : Stages Call Stage} {id : String} {kind : SlotEventKind}
      (free : ∀ call g, gs' i = some (call, g) → g.due = none) : ¬gs'.Has (Owes id kind) i := by
    rintro ⟨call, g, at_i, owes⟩
    nomatch owes.symm.trans (free call g at_i)
  refine inv.silent new (World.alike_same (congrArg InMemoryInner.records spares.ledger)) log quiet
    (fun id kind => ?_) fun call g at_i => ?_
  · refine ⟨fun held => absurd held (never fun call g at_i => ?_), fun held =>
      absurd held (never free)⟩
    rw [Stages.set_self] at at_i
    rw [fresh call g at_i]
  · rw [fresh call g at_i]
    exact ⟨List.forall_mem_nil _, List.forall_mem_nil _⟩

theorem accounted_keeps : Keeps prov (anyTerms : Terms _ _ _ _ _ (World B)) Accounted where
  enter inv idle _ enters := by
    refine inv.without (World.enter_spares enters) (fun _ _ at_i => nomatch idle.symm.trans at_i) ?_
    rintro _ _ ⟨⟩
    rfl
  perform based inv _ at_i allows _ := inv.perform based at_i allows.permits
  finish inv at_i ends := by
    refine inv.without (World.leave_spares _ _ _) (fun _ _ same => ?_) nofun
    cases at_i.symm.trans same
    exact ends
  drop inv at_i allows _ request awaits := by
    refine ⟨inv.without (.refl _) (fun _ _ same => ?_) nofun, inv.spared at_i (.refl _)⟩
    cases at_i.symm.trans same
    exact allows.awaits awaits request

end Run

/-! ## The accounts of every run -/

theorem Accounted.empty (boxes : B) (tickSlots : Nat) :
    Accounted (World.empty boxes tickSlots) fun _ => none where
  moves id := by simp [movesOf, World.empty, World.stateAt, InMemoryInner.empty, behind]
  slots id kind := Obligation.initial
  held id moved := absurd (by simp [World.empty, World.stateAt, InMemoryInner.empty, behind]) moved
  tasks _ _ _ at_j := nomatch at_j
  ordered := .nil

theorem Accounted.settled {t : Running B} {gs : Stages Call Stage} (inv : Accounted t.shared gs)
    (agrees : t.Agrees rule gs) (rests : t.Rests id) (kind : SlotEventKind) :
    taken id kind t.shared.log = (slotsOf id t.shared.log).count kind := by
  refine (inv.slots id kind).even fun j owed => ?_
  obtain ⟨call, g, at_j, owes⟩ := owed
  exact rests.due agrees at_j kind owes

/-- **Exactly-once lease accounting.** In every run, on any number of processes, with any drops and
failures: the moves of a lease are those behind its state; no slot event is recorded twice or
without its move; once nobody works on the lease, its slot events are those of its moves, each once;
and a lease ends only after a teardown of it succeeded, after its box was provisioned. -/
theorem slots_accounted_once [SerdeJson] (cfg : ServerConfig) (prov : BoxProvisioner B) (boxes : B)
    (tickSlots : Nat) (events : List (TaskEvent Call Outside)) :
    let t := Running.run cfg prov events (World.empty boxes tickSlots)
    (∀ id, movesOf id t.shared.log = behind (t.shared.stateAt id)) ∧
    (∀ id, (slotsOf id t.shared.log).Subperm ((movesOf id t.shared.log).map slotKind)) ∧
    (∀ id, t.Rests id → (slotsOf id t.shared.log).Perm ((movesOf id t.shared.log).map slotKind)) ∧
    Traced EndsTorn t.shared.log := by
  intro t
  obtain ⟨gs, _, inv, agrees⟩ := accounted_keeps.run
    (Along.of_forall fun s event => by cases event <;> simp [Tasks.Meets, anyTerms])
    (World.Based.empty boxes tickSlots) (Accounted.empty boxes tickSlots)
  refine ⟨inv.moves, fun id => ?_, fun id rests => ?_, inv.ordered⟩
  · exact List.subperm_ext_iff.mpr fun kind _ => (inv.slots id kind).met_le
  · exact List.perm_iff_count.mpr fun kind => (inv.settled agrees rests kind).symm

end CorelinkRunners.Server
