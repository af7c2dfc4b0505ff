import CorelinkRunners.Kit.Prog
import CorelinkRunners.Kit.Run

/-!
# Tasks over a shared state

Any number of tasks run programs over one shared state. Their effects interleave in any order; what
the outside decides about an effect (a failure, a clock, the answer of a remote service) comes with
the step that performs it. An effect that a task awaits is a point at which the task can be dropped,
when nobody waits for it any more: its program is gone, but what it awaits may go on by itself.

A `Discipline` is a typestate for tasks. `Obeys` says of one program that it keeps to the
discipline, and `Discipline.Sound` of one effect that it keeps a joint invariant of the shared state
and the stages of all tasks. Put together, the invariant holds along every run within given `Terms`
(`Staged.run`). -/

namespace Kit

variable {Sig : Type} {Ans : Sig → Type} {Env Call A B σ G : Type}

/-! ## The machine -/

structure Machine (Sig : Type) (Ans : Sig → Type) (Env Call A σ : Type) where
  /-- What an effect answers and makes of the shared state, as the outside decides. -/
  perform : (e : Sig) → Env → σ → Ans e × σ
  prog : Call → Prog Sig Ans A
  /-- Whether a call can start now, and what its start makes of the shared state. -/
  enter : Call → σ → Option σ
  leave : Call → A → σ → σ
  awaits : Sig → Bool
  /-- The calls that somebody waits for and may give up. -/
  droppable : Call → Bool
  /-- What goes on by itself of an awaited effect. -/
  remnant : Sig → Prog Sig Ans A
  /-- The awaited effects that need not go on. -/
  cancels : Sig → Bool

structure Task (Sig : Type) (Ans : Sig → Type) (Call A : Type) where
  call : Call
  prog : Prog Sig Ans A

def Task.asks (task : Task Sig Ans Call A) : Option Sig :=
  match task.prog with
  | .pure _ => none
  | .vis e _ => some e

structure Tasks (Sig : Type) (Ans : Sig → Type) (Call A σ : Type) where
  shared : σ
  tasks : Nat → Option (Task Sig Ans Call A)

inductive TaskEvent (Call Env : Type)
  | start (i : Nat) (call : Call)
  | step (i : Nat) (env : Env)
  /-- The task goes away; what it awaits may go on. -/
  | drop (i : Nat) (goesOn : Bool)

namespace Tasks

def initial (s : σ) : Tasks Sig Ans Call A σ := ⟨s, fun _ => none⟩

def withTask (s : Tasks Sig Ans Call A σ) (i : Nat) (task : Option (Task Sig Ans Call A)) :
    Tasks Sig Ans Call A σ :=
  { s with tasks := fun j => if j = i then task else s.tasks j }

def step (m : Machine Sig Ans Env Call A σ) (s : Tasks Sig Ans Call A σ) :
    TaskEvent Call Env → Tasks Sig Ans Call A σ
  | .start i call =>
    match s.tasks i, m.enter call s.shared with
    | none, some shared => { s.withTask i (some ⟨call, m.prog call⟩) with shared }
    | _, _ => s
  | .step i env =>
    match s.tasks i with
    | none => s
    | some ⟨call, .pure a⟩ => { s.withTask i none with shared := m.leave call a s.shared }
    | some ⟨call, .vis e k⟩ =>
      let (x, shared) := m.perform e env s.shared
      { s.withTask i (some ⟨call, k x⟩) with shared }
  | .drop i goesOn =>
    match s.tasks i with
    | some ⟨call, .vis e _⟩ =>
      if m.droppable call && m.awaits e then
        s.withTask i (if goesOn || !m.cancels e then some ⟨call, m.remnant e⟩ else none)
      else s
    | _ => s

end Tasks

/-- The events a result is about: which calls start and may be dropped, and what each effect has to
meet in the state it finds. -/
structure Terms (Sig : Type) (Ans : Sig → Type) (Env Call A σ : Type) where
  starts : Call → Prop
  drops : Call → Prop
  performs : Tasks Sig Ans Call A σ → Call → Sig → Env → Prop

namespace Tasks

def asks (s : Tasks Sig Ans Call A σ) (i : Nat) : Option (Call × Sig) :=
  (s.tasks i).bind fun task => task.asks.map fun e => (task.call, e)

variable {s : Tasks Sig Ans Call A σ} {i : Nat} {call : Call} {e : Sig}

theorem mem_asks {k : Ans e → Prog Sig Ans A} (at_i : s.tasks i = some ⟨call, .vis e k⟩) :
    (call, e) ∈ s.asks i := by
  simp [asks, at_i, Task.asks]

/-- **Everything one event can do.** -/
inductive Moves (m : Machine Sig Ans Env Call A σ) (s : Tasks Sig Ans Call A σ) :
    TaskEvent Call Env → Tasks Sig Ans Call A σ → Prop
  | stays {event : TaskEvent Call Env} : Moves m s event s
  | enters {i : Nat} {call : Call} {shared : σ} (idle : s.tasks i = none)
      (enters : m.enter call s.shared = some shared) :
      Moves m s (.start i call) { s.withTask i (some ⟨call, m.prog call⟩) with shared }
  | ends {i : Nat} {env : Env} {call : Call} {a : A} (at_i : s.tasks i = some ⟨call, .pure a⟩) :
      Moves m s (.step i env) { s.withTask i none with shared := m.leave call a s.shared }
  | performs {i : Nat} {env : Env} {call : Call} {e : Sig} {k : Ans e → Prog Sig Ans A}
      (at_i : s.tasks i = some ⟨call, .vis e k⟩) :
      Moves m s (.step i env) { s.withTask i (some ⟨call, k (m.perform e env s.shared).1⟩) with
        shared := (m.perform e env s.shared).2 }
  | drops {i : Nat} {goesOn : Bool} {call : Call} {e : Sig} {k : Ans e → Prog Sig Ans A}
      {task : Option (Task Sig Ans Call A)} (at_i : s.tasks i = some ⟨call, .vis e k⟩)
      (droppable : m.droppable call = true) (awaits : m.awaits e = true)
      (left : task = some ⟨call, m.remnant e⟩ ∨ task = none) :
      Moves m s (.drop i goesOn) (s.withTask i task)

theorem step_moves (m : Machine Sig Ans Env Call A σ) (s : Tasks Sig Ans Call A σ)
    (event : TaskEvent Call Env) : s.Moves m event (s.step m event) := by
  cases event with
  | start i call =>
    simp only [step]
    split
    next idle enters => exact .enters idle enters
    · exact .stays
  | step i env =>
    simp only [step]
    split
    · exact .stays
    next at_i => exact .ends at_i
    next at_i => exact .performs at_i
  | drop i goesOn =>
    simp only [step]
    split
    next at_i =>
      split
      next awaited =>
        obtain ⟨droppable, awaits⟩ := Bool.and_eq_true_iff.mp awaited
        refine .drops at_i droppable awaits ?_
        split
        · exact .inl rfl
        · exact .inr rfl
      · exact .stays
    · exact .stays

theorem step_shared {m : Machine Sig Ans Env Call A σ} (asked : (call, e) ∈ s.asks i) (env : Env) :
    (s.step m (.step i env)).shared = (m.perform e env s.shared).2 := by
  simp only [asks, Option.mem_def, Option.bind_eq_some_iff, Option.map_eq_some_iff,
    Task.asks] at asked
  obtain ⟨⟨call, p⟩, at_i, e, is, same⟩ := asked
  cases p with
  | pure a => nomatch is
  | vis e' k =>
    cases is
    cases same
    simp only [Tasks.step, at_i]

def Meets (terms : Terms Sig Ans Env Call A σ) (s : Tasks Sig Ans Call A σ) :
    TaskEvent Call Env → Prop
  | .start _ call => terms.starts call
  | .step i env => ∀ asked ∈ s.asks i, terms.performs s asked.1 asked.2 env
  | .drop i _ => ∀ asked ∈ s.asks i, terms.drops asked.1

end Tasks

/-! ## Disciplines -/

structure Discipline (Sig : Type) (Ans : Sig → Type) (Call A G : Type) where
  begins : Call → G
  allows : Call → G → Sig → Prop
  possible : Call → G → (e : Sig) → Ans e → Prop
  next : Call → G → (e : Sig) → Ans e → G
  ends : Call → A → G → Prop
  /-- The stage of what goes on when the task is dropped at an effect. -/
  left : Call → G → Sig → G

/-- **One program by a discipline**: it does what its stage allows, whatever it is answered, and it
ends with what `post` says of its answer and its stage. -/
def Obeys (rule : Discipline Sig Ans Call B G) (call : Call) (post : A → G → Prop) :
    Prog Sig Ans A → G → Prop
  | .pure a, g => post a g
  | .vis e k, g => rule.allows call g e ∧
      ∀ x, rule.possible call g e x → Obeys rule call post (k x) (rule.next call g e x)

namespace Obeys

variable {C : Type} {rule : Discipline Sig Ans Call C G} {call : Call} {post : A → G → Prop} {g : G}
  {p : Prog Sig Ans A}

theorem bind {post : B → G → Prop} {mid : A → G → Prop} {f : A → Prog Sig Ans B}
    (first : Obeys rule call mid p g) (rest : ∀ a g', mid a g' → Obeys rule call post (f a) g') :
    Obeys rule call post (p.bind f) g := by
  induction p generalizing g with
  | pure a => exact rest a g first
  | vis e k ih =>
    refine ⟨first.1, fun x possible => ?_⟩
    exact ih x (first.2 x possible)

theorem mono {post' : A → G → Prop} (h : Obeys rule call post p g)
    (weaken : ∀ a g', post a g' → post' a g') : Obeys rule call post' p g := by
  induction p generalizing g with
  | pure a => exact weaken a g h
  | vis e k ih => exact ⟨h.1, fun x possible => ih x (h.2 x possible)⟩

theorem grows {R : G → G → Prop} (refl : ∀ g, R g g) (trans : ∀ {a b c}, R a b → R b c → R a c)
    (next : ∀ g e x, R g (rule.next call g e x)) (h : Obeys rule call post p g) :
    Obeys rule call (fun a g' => post a g' ∧ R g g') p g := by
  induction p generalizing g with
  | pure a => exact ⟨h, refl g⟩
  | vis e k ih =>
    refine ⟨h.1, fun x possible => ?_⟩
    exact (ih x (h.2 x possible)).mono fun _ _ ended => ⟨ended.1, trans (next g e x) ended.2⟩

theorem map {post : B → G → Prop} {f : A → B} (h : Obeys rule call (fun a g => post (f a) g) p g) :
    Obeys rule call post (p.map f) g := by
  induction p generalizing g with
  | pure a => exact h
  | vis e k ih => exact ⟨h.1, fun x possible => ih x (h.2 x possible)⟩

end Obeys

/-! ## The joint invariant -/

abbrev Stages (Call G : Type) : Type := Nat → Option (Call × G)

def Stages.set (gs : Stages Call G) (i : Nat) (stage : Option (Call × G)) : Stages Call G :=
  fun j => if j = i then stage else gs j

@[simp]
theorem Stages.set_self (gs : Stages Call G) (i : Nat) (stage : Option (Call × G)) :
    gs.set i stage i = stage := if_pos rfl

theorem Stages.set_other (gs : Stages Call G) {i j : Nat} (apart : j ≠ i)
    (stage : Option (Call × G)) : gs.set i stage j = gs j := if_neg apart

namespace Tasks

variable {m : Machine Sig Ans Env Call A σ} {rule : Discipline Sig Ans Call A G}
  {terms : Terms Sig Ans Env Call A σ} {Inv : σ → Stages Call G → Prop}
  {s : Tasks Sig Ans Call A σ}

/-- Every task is in a stage from which it follows the discipline to its end. -/
structure Agrees (rule : Discipline Sig Ans Call A G) (s : Tasks Sig Ans Call A σ)
    (gs : Stages Call G) : Prop where
  idle : ∀ i, s.tasks i = none → gs i = none
  each : ∀ i task, s.tasks i = some task → ∃ g, gs i = some (task.call, g) ∧
    Obeys rule task.call (rule.ends task.call) task.prog g

end Tasks

structure Discipline.Sound (m : Machine Sig Ans Env Call A σ) (rule : Discipline Sig Ans Call A G)
    (terms : Terms Sig Ans Env Call A σ) (Inv : σ → Stages Call G → Prop) : Prop where
  enter : ∀ {s s' gs i call}, Inv s gs → gs i = none → terms.starts call →
    m.enter call s = some s' → Inv s' (gs.set i (some (call, rule.begins call)))
  perform : ∀ {t : Tasks Sig Ans Call A σ} {gs i call g e env}, Inv t.shared gs → t.Agrees rule gs →
    gs i = some (call, g) → rule.allows call g e → terms.performs t call e env →
    rule.possible call g e (m.perform e env t.shared).1 ∧
      Inv (m.perform e env t.shared).2
        (gs.set i (some (call, rule.next call g e (m.perform e env t.shared).1)))
  finish : ∀ {s gs i call a g}, Inv s gs → gs i = some (call, g) → rule.ends call a g →
    Inv (m.leave call a s) (gs.set i none)
  drop : ∀ {s gs i call g e}, Inv s gs → gs i = some (call, g) → rule.allows call g e →
    terms.drops call → m.droppable call = true → m.awaits e = true → Inv s (gs.set i none) ∧
      Inv s (gs.set i (some (call, rule.left call g e)))

structure Discipline.Covers (m : Machine Sig Ans Env Call A σ) (rule : Discipline Sig Ans Call A G)
    (terms : Terms Sig Ans Env Call A σ) : Prop where
  prog : ∀ call, terms.starts call →
    Obeys rule call (rule.ends call) (m.prog call) (rule.begins call)
  remnant : ∀ call g e, terms.drops call → m.droppable call = true → rule.allows call g e →
    m.awaits e = true → Obeys rule call (rule.ends call) (m.remnant e) (rule.left call g e)

namespace Tasks

variable {m : Machine Sig Ans Env Call A σ} {rule : Discipline Sig Ans Call A G}
  {terms : Terms Sig Ans Env Call A σ} {Inv : σ → Stages Call G → Prop}
  {s : Tasks Sig Ans Call A σ}

/-- Every task follows the discipline from its stage, and the invariant holds of all stages. -/
def Staged (rule : Discipline Sig Ans Call A G) (Inv : σ → Stages Call G → Prop)
    (s : Tasks Sig Ans Call A σ) : Prop :=
  ∃ gs, Inv s.shared gs ∧ s.Agrees rule gs

namespace Staged

theorem move {gs : Stages Call G} {shared : σ} {i : Nat} {task : Option (Task Sig Ans Call A)}
    {stage : Option (Call × G)} (agrees : s.Agrees rule gs)
    (inv : Inv shared (gs.set i stage)) (gone : task = none → stage = none)
    (there : ∀ t, task = some t → ∃ g, stage = some (t.call, g) ∧
      Obeys rule t.call (rule.ends t.call) t.prog g) :
    Staged rule Inv { s.withTask i task with shared } := by
  refine ⟨gs.set i stage, inv, fun j none_there => ?_, fun j t at_j => ?_⟩
  · by_cases same : j = i
    · subst same
      rw [Stages.set_self]
      exact gone ((if_pos rfl).symm.trans none_there)
    · rw [Stages.set_other gs same]
      exact agrees.idle j ((if_neg same).symm.trans none_there)
  · by_cases same : j = i
    · subst same
      rw [Stages.set_self]
      exact there t ((if_pos rfl).symm.trans at_j)
    · rw [Stages.set_other gs same]
      exact agrees.each j t ((if_neg same).symm.trans at_j)

/-- **One event keeps the stages.** -/
theorem step (sound : rule.Sound m terms Inv) (covers : rule.Covers m terms)
    (staged : Staged rule Inv s) {event : TaskEvent Call Env} (meets : s.Meets terms event) :
    Staged rule Inv (s.step m event) := by
  obtain ⟨gs, inv, agrees⟩ := id staged
  have moves := s.step_moves m event
  generalize s.step m event = s' at moves ⊢
  cases moves with
  | stays => exact staged
  | enters idle enters =>
    refine move agrees (sound.enter inv (agrees.idle _ idle) meets enters) nofun fun t same => ?_
    cases same
    exact ⟨_, rfl, covers.prog _ meets⟩
  | ends at_i =>
    obtain ⟨g, stage, follows⟩ := agrees.each _ _ at_i
    exact move agrees (sound.finish inv stage follows) (fun _ => rfl) nofun
  | performs at_i =>
    obtain ⟨g, stage, follows⟩ := agrees.each _ _ at_i
    obtain ⟨possible, inv'⟩ := sound.perform inv agrees stage follows.1 (meets _ (mem_asks at_i))
    refine move agrees inv' nofun fun t same => ?_
    cases same
    exact ⟨_, rfl, follows.2 _ possible⟩
  | drops at_i droppable awaits left =>
    obtain ⟨g, stage, follows⟩ := agrees.each _ _ at_i
    have drops := meets _ (mem_asks at_i)
    obtain ⟨gone, goesOn⟩ := sound.drop inv stage follows.1 drops droppable awaits
    rcases left with rfl | rfl
    · refine move agrees goesOn nofun fun t same => ?_
      cases same
      exact ⟨_, rfl, covers.remnant _ g _ drops droppable follows.1 awaits⟩
    · exact move agrees gone (fun _ => rfl) nofun

/-- **The invariant holds along every run** within the terms. -/
theorem run (sound : rule.Sound m terms Inv) (covers : rule.Covers m terms)
    {events : List (TaskEvent Call Env)} (along : Along (Tasks.step m) (Tasks.Meets terms) s events)
    (staged : Staged rule Inv s) : Staged rule Inv (events.foldl (Tasks.step m) s) :=
  along.invariant (Staged rule Inv) (fun staged meets => staged.step sound covers meets) staged

theorem initial {shared : σ} (inv : Inv shared fun _ => none) :
    Staged rule Inv (Tasks.initial shared : Tasks Sig Ans Call A σ) :=
  ⟨fun _ => none, inv, fun _ _ => rfl, fun _ _ h => nomatch h⟩

end Staged

end Tasks

/-! ## Obligations -/

def Stages.Has (gs : Stages Call G) (P : Call → G → Prop) (i : Nat) : Prop :=
  ∃ call g, gs i = some (call, g) ∧ P call g

namespace Stages

variable {gs : Stages Call G} {P : Call → G → Prop} {i j : Nat} {stage : Option (Call × G)}

theorem has_set_self {call : Call} {g : G} : (gs.set i (some (call, g))).Has P i ↔ P call g := by
  simp only [Stages.Has, Stages.set_self, Option.some.injEq, Prod.mk.injEq]
  constructor
  · rintro ⟨_, _, ⟨rfl, rfl⟩, holds⟩
    exact holds
  · exact fun holds => ⟨call, g, ⟨rfl, rfl⟩, holds⟩

theorem has_set_other (apart : j ≠ i) : (gs.set i stage).Has P j ↔ gs.Has P j := by
  simp only [Stages.Has, Stages.set_other gs apart]

theorem has_iff {call : Call} {g : G} (at_i : gs i = some (call, g)) : gs.Has P i ↔ P call g := by
  simp only [Stages.Has, at_i, Option.some.injEq, Prod.mk.injEq]
  constructor
  · rintro ⟨_, _, ⟨rfl, rfl⟩, holds⟩
    exact holds
  · exact fun holds => ⟨call, g, ⟨rfl, rfl⟩, holds⟩

theorem not_has (idle : gs i = none) : ¬gs.Has P i := by
  simp [Stages.Has, idle]

end Stages

/-- **An obligation is met once.** It was taken on as often as it was met, and no task is at it; or
it was taken on once more, and exactly one task is at it. -/
inductive Obligation (gs : Stages Call G) (P : Call → G → Prop) (taken met : Nat) : Prop
  | settled (even : taken = met) (nobody : ∀ i, ¬gs.Has P i)
  | due (once : taken = met + 1) (i : Nat) (at_ : gs.Has P i) (only : ∀ j, gs.Has P j → j = i)

namespace Obligation

variable {gs : Stages Call G} {P : Call → G → Prop} {taken met : Nat} {i : Nat}
  {stage : Option (Call × G)}

theorem keep (h : Obligation gs P taken met) (same : (gs.set i stage).Has P i ↔ gs.Has P i) :
    Obligation (gs.set i stage) P taken met := by
  have every (j : Nat) : (gs.set i stage).Has P j ↔ gs.Has P j := by
    by_cases here : j = i
    · subst here
      exact same
    · exact Stages.has_set_other here
  cases h with
  | settled even nobody => exact .settled even fun j holds => nobody j ((every j).mp holds)
  | due once k at_ only =>
    exact .due once k ((every k).mpr at_) fun j holds => only j ((every j).mp holds)

theorem take (h : Obligation gs P taken met) (even : taken = met)
    (holds : (gs.set i stage).Has P i) : Obligation (gs.set i stage) P (taken + 1) met := by
  cases h with
  | due once => omega
  | settled _ nobody =>
    refine .due (congrArg (· + 1) even) i holds fun j held => ?_
    by_contra apart
    exact nobody j ((Stages.has_set_other apart).mp held)

theorem meet (h : Obligation gs P taken met) (had : gs.Has P i)
    (gone : ¬(gs.set i stage).Has P i) : Obligation (gs.set i stage) P taken (met + 1) := by
  cases h with
  | settled _ nobody => exact absurd had (nobody i)
  | due once k at_ only =>
    refine .settled once fun j held => ?_
    by_cases here : j = i
    · exact gone (here ▸ held)
    · have at_j := (Stages.has_set_other here).mp held
      exact here ((only j at_j).trans (only i had).symm)

theorem even (h : Obligation gs P taken met) (nobody : ∀ i, ¬gs.Has P i) : taken = met := by
  cases h with
  | settled even => exact even
  | due _ i at_ => exact absurd at_ (nobody i)

theorem met_le (h : Obligation gs P taken met) : met ≤ taken := by
  cases h <;> omega

theorem initial : Obligation (fun _ => none : Stages Call G) P 0 0 :=
  .settled rfl fun _ => Stages.not_has rfl

end Obligation

end Kit
