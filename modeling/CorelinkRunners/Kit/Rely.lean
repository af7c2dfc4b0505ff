import CorelinkRunners.Kit.Calls
import CorelinkRunners.Kit.Tasks

/-!
# Tasks that rely on each other

A second rule for tasks over a shared state, beside the typestates of `Kit.Tasks`. A `Rely` is an
invariant of the shared state and a preorder that every step of every task respects. What a task has
learned has to survive the steps of the others, so a program is judged from a state on: `Sustains`
says that whenever it goes on, in any state the others may have made of this one, its effect keeps
the invariant and respects the order, and its rest is sustained in turn.

`Sustained.run` is the soundness of the rule for any number of tasks, interleaved and cut anywhere.
-/

namespace Kit

variable {Sig : Type} {Ans : Sig → Type} {Env Req A B σ : Type}

/-- What every step of every task keeps and respects. -/
structure Rely (σ : Type) where
  Inv : σ → Prop
  Grows : σ → σ → Prop
  refl : ∀ s, Grows s s
  trans : ∀ {s t u}, Grows s t → Grows t u → Grows s u

/-- **One program among others**: from `s` on, at every effect `may` allows, it keeps the invariant
and respects the order, and it ends with what `post` says. -/
def Sustains (perform : (e : Sig) → Env → σ → Ans e × σ) (rely : Rely σ)
    (may : σ → Sig → Env → Prop) (post : A → σ → Prop) : Prog Sig Ans A → σ → Prop
  | .pure a, s => ∀ t, rely.Grows s t → rely.Inv t → post a t
  | .vis e k, s => ∀ t, rely.Grows s t → rely.Inv t → ∀ env, may t e env →
      rely.Inv (perform e env t).2 ∧ rely.Grows t (perform e env t).2 ∧
        Sustains perform rely may post (k (perform e env t).1) (perform e env t).2

namespace Sustains

variable {perform : (e : Sig) → Env → σ → Ans e × σ} {rely : Rely σ} {may : σ → Sig → Env → Prop}
  {post : A → σ → Prop} {p : Prog Sig Ans A} {s t : σ}

theorem later (h : Sustains perform rely may post p s) (grows : rely.Grows s t) :
    Sustains perform rely may post p t := by
  cases p with
  | pure a => exact fun u further inv => h u (rely.trans grows further) inv
  | vis e k => exact fun u further inv => h u (rely.trans grows further) inv

theorem of_later (h : ∀ t, rely.Grows s t → rely.Inv t → Sustains perform rely may post p t) :
    Sustains perform rely may post p s := by
  cases p with
  | pure a => exact fun t grows inv => h t grows inv t (rely.refl t) inv
  | vis e k => exact fun t grows inv => h t grows inv t (rely.refl t) inv

theorem bind {post : B → σ → Prop} {mid : A → σ → Prop} {f : A → Prog Sig Ans B}
    (first : Sustains perform rely may mid p s)
    (rest : ∀ a t, rely.Grows s t → rely.Inv t → mid a t → Sustains perform rely may post (f a) t) :
    Sustains perform rely may post (p.bind f) s := by
  induction p generalizing s with
  | pure a => exact of_later fun t grows inv => rest a t grows inv (first t grows inv)
  | vis e k ih =>
    intro t grows inv env allowed
    obtain ⟨keeps, respects, goesOn⟩ := first t grows inv env allowed
    refine ⟨keeps, respects, ih _ goesOn fun a u further inv' ended => ?_⟩
    exact rest a u (rely.trans grows (rely.trans respects further)) inv' ended

theorem mono {post' : A → σ → Prop} (h : Sustains perform rely may post p s)
    (weaken : ∀ a t, rely.Grows s t → rely.Inv t → post a t → post' a t) :
    Sustains perform rely may post' p s := by
  induction p generalizing s with
  | pure a => exact fun t grows inv => weaken a t grows inv (h t grows inv)
  | vis e k ih =>
    intro t grows inv env allowed
    obtain ⟨keeps, respects, goesOn⟩ := h t grows inv env allowed
    refine ⟨keeps, respects, ih _ goesOn fun a u further inv' ended => ?_⟩
    exact weaken a u (rely.trans grows (rely.trans respects further)) inv' ended

theorem always (h : Sustains perform rely may post p s) :
    Sustains perform rely may (fun a t => ∀ u, rely.Grows t u → rely.Inv u → post a u) p s := by
  induction p generalizing s with
  | pure a => exact fun t grows _ u further inv => h u (rely.trans grows further) inv
  | vis e k ih =>
    intro t grows inv env allowed
    obtain ⟨keeps, respects, goesOn⟩ := h t grows inv env allowed
    exact ⟨keeps, respects, ih _ goesOn⟩

theorem map {post : B → σ → Prop} {f : A → B}
    (h : Sustains perform rely may (fun a => post (f a)) p s) :
    Sustains perform rely may post (p.map f) s := by
  induction p generalizing s with
  | pure a => exact h
  | vis e k ih =>
    intro t grows inv env allowed
    obtain ⟨keeps, respects, goesOn⟩ := h t grows inv env allowed
    exact ⟨keeps, respects, ih _ goesOn⟩

theorem alone {e : Sig} {k : Ans e → Prog Sig Ans A} {a : A}
    (h : Sustains perform rely may post (.vis e k) s)
    (nothing : ∀ t, rely.Grows s t → rely.Inv t → post a t) :
    Sustains perform rely may post (.vis e fun _ => .pure a) s := by
  intro t grows inv env allowed
  obtain ⟨keeps, respects, -⟩ := h t grows inv env allowed
  refine ⟨keeps, respects, fun u further inv' => ?_⟩
  exact nothing u (rely.trans grows (rely.trans respects further)) inv'

/-! ## Rules for calls -/

section Calls

variable {E : Type} {perform : (e : Sig) → Env → σ → Except E (Ans e) × σ}
  {Q : Except E B → σ → Prop} {f : A → Kit.Call Sig Ans E B}

theorem seqOk (mid : A → σ → Prop) {post : B → σ → Prop} {p : Kit.Call Sig Ans E A}
    (first : Sustains perform rely may (fun x t => ∀ a, x = .ok a → mid a t) p.run s)
    (rest : ∀ a t, rely.Grows s t → rely.Inv t → mid a t →
      Sustains perform rely may (fun x t => ∀ b, x = .ok b → post b t) (f a).run t) :
    Sustains perform rely may (fun x t => ∀ b, x = .ok b → post b t)
      (p >>= f : Kit.Call Sig Ans E B).run s := by
  refine bind first fun x t grows inv ended => ?_
  cases x with
  | ok a => exact rest a t grows inv (ended a rfl)
  | error error => exact fun _ _ _ => nofun

theorem await {e : Sig} {Q : Except E (Ans e) → σ → Prop}
    (h : ∀ t, rely.Grows s t → rely.Inv t → ∀ env, may t e env →
      rely.Inv (perform e env t).2 ∧ rely.Grows t (perform e env t).2 ∧
        ∀ u, rely.Grows (perform e env t).2 u → rely.Inv u → Q (perform e env t).1 u) :
    Sustains perform rely may Q (Call.await e : Kit.Call Sig Ans E (Ans e)).run s := h

variable {error : E}

theorem throws (h : ∀ t, rely.Grows s t → rely.Inv t → Q (.error error) t) :
    Sustains perform rely may Q (throw error : Kit.Call Sig Ans E B).run s := h

theorem returns {a : B} (h : ∀ t, rely.Grows s t → rely.Inv t → Q (.ok a) t) :
    Sustains perform rely may Q (pure a : Kit.Call Sig Ans E B).run s := h

theorem guard {c : Prop} [Decidable c] {p : Kit.Call Sig Ans E B}
    (thrown : c → ∀ t, rely.Grows s t → rely.Inv t → Q (.error error) t)
    (goes : ¬c → Sustains perform rely may Q p.run s) : Sustains perform rely may Q
      (if c then (throw error >>= fun _ : Unit => p) else p : Kit.Call Sig Ans E B).run s := by
  split
  next holds => exact thrown holds
  next not => exact goes not

theorem checked {x : Except E A}
    (thrown : ∀ error, x = .error error → ∀ t, rely.Grows s t → rely.Inv t → Q (.error error) t)
    (goes : ∀ a, x = .ok a → Sustains perform rely may Q (f a).run s) :
    Sustains perform rely may Q (Call.ofExcept x >>= f : Kit.Call Sig Ans E B).run s := by
  cases x with
  | error e => exact thrown e rfl
  | ok a => exact goes a rfl

theorem catches {p : Kit.Call Sig Ans E B} {handler : E → Kit.Call Sig Ans E B}
    (body : Sustains perform rely may (fun x t => (∀ a, x = .ok a → Q (.ok a) t) ∧
      ∀ error, x = .error error → Sustains perform rely may Q (handler error).run t) p.run s) :
    Sustains perform rely may Q (tryCatch p handler : Kit.Call Sig Ans E B).run s := by
  refine bind body.always fun x t _ inv ended => ?_
  cases x with
  | ok a => exact fun u grows inv' => (ended u grows inv').1 a rfl
  | error error => exact (ended t (rely.refl t) inv).2 error rfl

end Calls

end Sustains

/-! ## Any number of tasks -/

structure Rely.Sound (rely : Rely σ) (m : Machine Sig Ans Env Req A σ)
    (terms : Terms Sig Ans Env Req A σ) (may : Req → σ → Sig → Env → Prop)
    (post : Req → A → σ → Prop) : Prop where
  allowed : ∀ {t : Tasks Sig Ans Req A σ} {call e env}, terms.performs t call e env →
    may call t.shared e env
  enter : ∀ {s s' call}, rely.Inv s → terms.starts call → m.enter call s = some s' →
    rely.Inv s' ∧ rely.Grows s s' ∧
      Sustains m.perform rely (may call) (post call) (m.prog call) s'
  leave : ∀ {s call a}, rely.Inv s → post call a s →
    rely.Inv (m.leave call a s) ∧ rely.Grows s (m.leave call a s)
  remnant : ∀ {s call e k}, Sustains m.perform rely (may call) (post call) (.vis e k) s →
    Sustains m.perform rely (may call) (post call) (m.remnant e) s

structure Sustained (rely : Rely σ) (m : Machine Sig Ans Env Req A σ)
    (may : Req → σ → Sig → Env → Prop) (post : Req → A → σ → Prop)
    (s : Tasks Sig Ans Req A σ) : Prop where
  inv : rely.Inv s.shared
  each : ∀ i task, s.tasks i = some task →
    Sustains m.perform rely (may task.call) (post task.call) task.prog s.shared

namespace Sustained

variable {rely : Rely σ} {m : Machine Sig Ans Env Req A σ} {terms : Terms Sig Ans Env Req A σ}
  {may : Req → σ → Sig → Env → Prop} {post : Req → A → σ → Prop} {s : Tasks Sig Ans Req A σ}
  {shared : σ}

theorem initial (inv : rely.Inv shared) : Sustained rely m may post (Tasks.initial shared) :=
  ⟨inv, fun _ _ h => nomatch (h : none = some _)⟩

theorem move {i : Nat} {task : Option (Task Sig Ans Req A)} (h : Sustained rely m may post s)
    (inv : rely.Inv shared) (grows : rely.Grows s.shared shared) (there : ∀ t, task = some t →
      Sustains m.perform rely (may t.call) (post t.call) t.prog shared) :
    Sustained rely m may post { s.withTask i task with shared } := by
  refine ⟨inv, fun j t at_j => ?_⟩
  by_cases same : j = i
  · subst same
    exact there t ((if_pos rfl).symm.trans at_j)
  · exact (h.each j t ((if_neg same).symm.trans at_j)).later grows

variable (sound : rely.Sound m terms may post)
include sound

/-- **One event keeps the invariant**, respects the order and leaves every task sustained. -/
theorem step {event : TaskEvent Req Env} (h : Sustained rely m may post s)
    (meets : s.Meets terms event) :
    Sustained rely m may post (s.step m event) ∧ rely.Grows s.shared (s.step m event).shared := by
  have moves := s.step_moves m event
  generalize s.step m event = s' at moves ⊢
  cases moves with
  | stays => exact ⟨h, rely.refl _⟩
  | enters _ enters =>
    obtain ⟨inv, grows, goes⟩ := sound.enter h.inv meets enters
    refine ⟨h.move inv grows fun t same => ?_, grows⟩
    cases same
    exact goes
  | ends at_i =>
    obtain ⟨inv, grows⟩ := sound.leave h.inv (h.each _ _ at_i _ (rely.refl _) h.inv)
    exact ⟨h.move inv grows nofun, grows⟩
  | performs at_i =>
    have allowed := sound.allowed (meets _ (Tasks.mem_asks at_i))
    obtain ⟨inv, grows, goes⟩ := h.each _ _ at_i _ (rely.refl _) h.inv _ allowed
    refine ⟨h.move inv grows fun t same => ?_, grows⟩
    cases same
    exact goes
  | drops at_i _ _ left =>
    refine ⟨h.move h.inv (rely.refl _) fun t same => ?_, rely.refl _⟩
    rcases left with rfl | rfl
    · cases same
      exact sound.remnant (h.each _ _ at_i)
    · nomatch same

variable {events : List (TaskEvent Req Env)}

/-- **Every run keeps the invariant**, respects the order and leaves every task sustained. -/
theorem run (along : Along (Tasks.step m) (Tasks.Meets terms) s events)
    (h : Sustained rely m may post s) : Sustained rely m may post (events.foldl (Tasks.step m) s) ∧
      rely.Grows s.shared (events.foldl (Tasks.step m) s).shared := by
  induction events generalizing s with
  | nil => exact ⟨h, rely.refl _⟩
  | cons event events ih =>
    obtain ⟨now, grows⟩ := h.step sound along.1
    obtain ⟨after, further⟩ := ih along.2 now
    exact ⟨after, rely.trans grows further⟩

theorem along (along : Along (Tasks.step m) (Tasks.Meets terms) s events)
    (h : Sustained rely m may post s) :
    Along (Tasks.step m) (fun s event => rely.Inv s.shared ∧ rely.Inv (s.step m event).shared ∧
      rely.Grows s.shared (s.step m event).shared) s events := by
  induction events generalizing s with
  | nil => exact trivial
  | cons event events ih =>
    obtain ⟨now, grows⟩ := h.step sound along.1
    exact ⟨⟨h.inv, now.inv, grows⟩, ih along.2 now⟩

end Sustained

end Kit
