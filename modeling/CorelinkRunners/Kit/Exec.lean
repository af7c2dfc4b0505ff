import CorelinkRunners.Kit.Rely
import CorelinkRunners.Kit.Typestate

/-!
# One call at a time

`Exec` runs a program alone: it is the only one, and the outside says to each of its effects
something that is allowed. `Ensures` is the rule for what holds of every such run.
-/

namespace Kit

variable {Sig : Type} {Ans : Sig → Type} {Env A B σ : Type}

inductive Exec (perform : (e : Sig) → Env → σ → Ans e × σ) (may : σ → Sig → Env → Prop) :
    Prog Sig Ans A → σ → A → σ → Prop
  | pure {a : A} {s : σ} : Exec perform may (.pure a) s a s
  | vis {e : Sig} {k : Ans e → Prog Sig Ans A} {env : Env} {s t : σ} {a : A} (allowed : may s e env)
      (rest : Exec perform may (k (perform e env s).1) (perform e env s).2 a t) :
      Exec perform may (.vis e k) s a t

/-- What holds of every run of the program from the state. -/
def Ensures (perform : (e : Sig) → Env → σ → Ans e × σ) (may : σ → Sig → Env → Prop)
    (post : A → σ → Prop) : Prog Sig Ans A → σ → Prop
  | .pure a, s => post a s
  | .vis e k, s => ∀ env, may s e env →
      Ensures perform may post (k (perform e env s).1) (perform e env s).2

variable {perform : (e : Sig) → Env → σ → Ans e × σ} {may : σ → Sig → Env → Prop} {s t : σ}
  {post : A → σ → Prop} {p : Prog Sig Ans A} {a : A}

theorem Ensures.exec (h : Ensures perform may post p s) (run : Exec perform may p s a t) :
    post a t := by
  induction run with
  | pure => exact h
  | vis allowed _ ih => exact ih (h _ allowed)

theorem exists_exec (answers : ∀ s e, ∃ env, may s e env) (p : Prog Sig Ans A) (s : σ) :
    ∃ a t, Exec perform may p s a t := by
  induction p generalizing s with
  | pure a => exact ⟨a, s, .pure⟩
  | vis e k ih =>
    obtain ⟨env, allowed⟩ := answers s e
    obtain ⟨a, t, run⟩ := ih (perform e env s).1 (perform e env s).2
    exact ⟨a, t, .vis allowed run⟩

theorem Sustains.exec {rely : Rely σ} {among : σ → Sig → Env → Prop}
    (h : Sustains perform rely among post p s) (inv : rely.Inv s)
    (weaken : ∀ s e env, may s e env → among s e env) (run : Exec perform may p s a t) :
    rely.Inv t ∧ rely.Grows s t ∧ post a t := by
  induction run with
  | pure => exact ⟨inv, rely.refl _, h _ (rely.refl _) inv⟩
  | vis allowed _ ih =>
    obtain ⟨inv', grows, rest⟩ := h _ (rely.refl _) inv _ (weaken _ _ _ allowed)
    obtain ⟨last, further, ended⟩ := ih rest inv'
    exact ⟨last, rely.trans grows further, ended⟩

theorem Every.exec {P : Sig → Prop} {post : A → Prop} {f : σ → B} (all : Every P post p)
    (keeps : ∀ e env s, P e → f (perform e env s).2 = f s) (run : Exec perform may p s a t) :
    f t = f s := by
  induction run with
  | pure => rfl
  | vis _ _ ih => exact (ih (all.2 _)).trans (keeps _ _ _ all.1)

/-- Run a program on given answers of the outside, as long as they are allowed. -/
def replay (perform : (e : Sig) → Env → σ → Ans e × σ) (allowed : σ → Sig → Env → Bool) :
    Prog Sig Ans A → List Env → σ → Option (A × σ)
  | .pure a, _, s => some (a, s)
  | .vis _ _, [], _ => none
  | .vis e k, env :: envs, s =>
    if allowed s e env then
      replay perform allowed (k (perform e env s).1) envs (perform e env s).2
    else none

theorem exec_of_replay {allowed : σ → Sig → Env → Bool}
    (sound : ∀ s e env, allowed s e env = true → may s e env) {envs : List Env}
    (run : replay perform allowed p envs s = some (a, t)) : Exec perform may p s a t := by
  induction p generalizing s envs with
  | pure a =>
    cases run
    exact .pure
  | vis e k ih =>
    cases envs with
    | nil => nomatch run
    | cons env envs =>
      rw [replay] at run
      split at run
      next ok => exact .vis (sound s e env ok) (ih _ run)
      · nomatch run

namespace Ensures

theorem bind {post : B → σ → Prop} {p : Prog Sig Ans A} {f : A → Prog Sig Ans B}
    (h : Ensures perform may (fun a t => Ensures perform may post (f a) t) p s) :
    Ensures perform may post (p.bind f) s := by
  induction p generalizing s with
  | pure a => exact h
  | vis e k ih => exact fun env allowed => ih _ (h env allowed)

theorem mono {post post' : A → σ → Prop} {p : Prog Sig Ans A} (h : Ensures perform may post p s)
    (weaken : ∀ a t, post a t → post' a t) : Ensures perform may post' p s := by
  induction p generalizing s with
  | pure a => exact weaken a s h
  | vis e k ih => exact fun env allowed => ih _ (h env allowed)

/-! ## Rules for calls -/

section Calls

variable {E : Type} {perform : (e : Sig) → Env → σ → Except E (Ans e) × σ}
  {Q : Except E B → σ → Prop} {p : Kit.Call Sig Ans E A} {f : A → Kit.Call Sig Ans E B}

theorem seq
    (h : Ensures perform may (fun x t => (∀ a, x = .ok a → Ensures perform may Q (f a).run t) ∧
      ∀ error, x = .error error → Q (.error error) t) p.run s) :
    Ensures perform may Q (p >>= f : Kit.Call Sig Ans E B).run s := by
  refine bind (h.mono fun x t ended => ?_)
  cases x with
  | ok a => exact ended.1 a rfl
  | error error => exact ended.2 error rfl

variable {mid : A → σ → Prop}

theorem seqOk {post : B → σ → Prop}
    (first : Ensures perform may (fun x t => ∀ a, x = .ok a → mid a t) p.run s)
    (rest : ∀ a t, mid a t →
      Ensures perform may (fun x t => ∀ b, x = .ok b → post b t) (f a).run t) :
    Ensures perform may (fun x t => ∀ b, x = .ok b → post b t)
      (p >>= f : Kit.Call Sig Ans E B).run s :=
  seq (first.mono fun _ t ended => ⟨fun a same => rest a t (ended a same), fun _ _ => nofun⟩)

theorem seqReturns (first : Ensures perform may (fun x t => ∃ a, x = .ok a ∧ mid a t) p.run s)
    (rest : ∀ a t, mid a t → Ensures perform may Q (f a).run t) :
    Ensures perform may Q (p >>= f : Kit.Call Sig Ans E B).run s := by
  refine seq (first.mono ?_)
  rintro x t ⟨a, rfl, ended⟩
  refine ⟨fun b same => ?_, fun _ => nofun⟩
  cases same
  exact rest a t ended

theorem await {e : Sig} {f : Ans e → Kit.Call Sig Ans E B}
    (answered : ∀ env, may s e env → ∀ x, (perform e env s).1 = .ok x →
      Ensures perform may Q (f x).run (perform e env s).2)
    (failed : ∀ env, may s e env → ∀ error, (perform e env s).1 = .error error →
      Q (.error error) (perform e env s).2) :
    Ensures perform may Q (Call.await e >>= f : Kit.Call Sig Ans E B).run s := by
  intro env allowed
  cases told : (perform e env s).1 with
  | ok x => exact answered env allowed x told
  | error error => exact failed env allowed error told

theorem guard {c : Prop} [Decidable c] {error : E} {p : Kit.Call Sig Ans E B}
    (thrown : c → Q (.error error) s) (goes : ¬c → Ensures perform may Q p.run s) :
    Ensures perform may Q
      (if c then (throw error >>= fun _ : Unit => p) else p : Kit.Call Sig Ans E B).run s := by
  split
  next holds => exact thrown holds
  next not => exact goes not

theorem checked {x : Except E A} (thrown : ∀ error, x = .error error → Q (.error error) s)
    (goes : ∀ a, x = .ok a → Ensures perform may Q (f a).run s) :
    Ensures perform may Q (Call.ofExcept x >>= f : Kit.Call Sig Ans E B).run s := by
  cases x with
  | error e => exact thrown e rfl
  | ok a => exact goes a rfl

end Calls

end Ensures

end Kit
