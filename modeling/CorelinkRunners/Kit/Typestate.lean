import CorelinkRunners.Kit.Calls
import CorelinkRunners.Kit.Tasks

/-!
# Disciplines for calls

The rules of `Obeys` for programs whose effects answer or fail: a sequence ends with the error of
its first part, and an error can be caught. `Every` is for the many programs that do
nothing their discipline looks at.
-/

namespace Kit

variable {Sig : Type} {Ans : Sig → Type} {Req A B C E G : Type}

/-! ## Programs with effects of one kind -/

/-- Every effect of the program has the property, whatever it is answered, and so has its answer. -/
def Every (P : Sig → Prop) (post : A → Prop) : Prog Sig Ans A → Prop
  | .pure a => post a
  | .vis e k => P e ∧ ∀ x, Every P post (k x)

namespace Every

variable {P : Sig → Prop}

theorem bind {mid : A → Prop} {post : B → Prop} {p : Prog Sig Ans A} {f : A → Prog Sig Ans B}
    (first : Every P mid p) (rest : ∀ a, mid a → Every P post (f a)) : Every P post (p.bind f) := by
  induction p with
  | pure a => exact rest a first
  | vis e k ih => exact ⟨first.1, fun x => ih x (first.2 x)⟩

theorem weaken {P' : Sig → Prop} {post : A → Prop} {p : Prog Sig Ans A} (h : Every P post p)
    (sub : ∀ e, P e → P' e) : Every P' post p := by
  induction p with
  | pure a => exact h
  | vis e k ih => exact ⟨sub e h.1, fun x => ih x (h.2 x)⟩

section Calls

variable {post : B → Prop}

def Returning (post : B → Prop) (x : Except E B) : Prop := ∀ b, x = .ok b → post b

variable {p : Call Sig Ans E A} {f : A → Call Sig Ans E B}

theorem seq (mid : A → Prop) (first : Every P (Returning mid) p.run)
    (rest : ∀ a, mid a → Every P (Returning post) (f a).run) :
    Every P (Returning post) (p >>= f : Call Sig Ans E B).run := by
  refine first.bind fun x ended => ?_
  cases x with
  | ok a => exact rest a (ended a rfl)
  | error error => exact nofun

variable {e : Sig}

theorem effect (h : P e) :
    Every P (Returning fun _ => True) (Call.await e : Call Sig Ans E (Ans e)).run :=
  ⟨h, fun _ _ _ => trivial⟩

theorem await {f : Ans e → Call Sig Ans E B} (h : P e)
    (rest : ∀ a, Every P (Returning post) (f a).run) :
    Every P (Returning post) (Call.await e >>= f : Call Sig Ans E B).run := by
  refine ⟨h, fun x => ?_⟩
  cases x with
  | ok a => exact rest a
  | error error => exact nofun

theorem checked {x : Except E A} (rest : ∀ a, x = .ok a → Every P (Returning post) (f a).run) :
    Every P (Returning post) (Call.ofExcept x >>= f : Call Sig Ans E B).run := by
  cases x with
  | ok a => exact rest a rfl
  | error error => exact nofun

theorem returns {b : B} (h : post b) :
    Every P (Returning post) (pure b : Call Sig Ans E B).run := by
  intro _ same
  cases same
  exact h

variable {error : E}

theorem throws : Every P (Returning post) (throw error : Call Sig Ans E B).run :=
  nofun

theorem map {post : B → Prop} {f : A → B} (h : Every P (Returning fun a => post (f a)) p.run) :
    Every P (Returning post) (f <$> p : Call Sig Ans E B).run := by
  refine h.bind fun x ended => ?_
  cases x with
  | ok a =>
    rintro _ ⟨⟩
    exact ended a rfl
  | error error => exact nofun

theorem catches {p : Call Sig Ans E B} {handler : E → Call Sig Ans E B}
    (body : Every P (Returning post) p.run)
    (handled : ∀ error, Every P (Returning post) (handler error).run) :
    Every P (Returning post) (tryCatch p handler : Call Sig Ans E B).run := by
  refine body.bind fun x ended => ?_
  cases x with
  | ok b => exact ended
  | error error => exact handled error

theorem guard {c : Prop} [Decidable c] {p : Call Sig Ans E B}
    (goes : Every P (Returning post) p.run) : Every P (Returning post)
      (if c then (throw error >>= fun _ : Unit => p) else p : Call Sig Ans E B).run := by
  split
  · exact nofun
  · exact goes

end Calls

end Every

/-! ## Rules for calls -/

namespace Obeys

section Calls

variable {rule : Discipline Sig (fun e => Except E (Ans e)) Req C G} {req : Req} {g : G}
  {Q : Except E B → G → Prop}

theorem every {P : Sig → Prop} {post : A → Prop} {p : Prog Sig (fun e => Except E (Ans e)) A}
    (all : Every P post p) (allowed : ∀ e, P e → rule.allows req g e)
    (stays : ∀ e x, P e → rule.next req g e x = g) :
    Obeys rule req (fun a g' => post a ∧ g' = g) p g := by
  induction p with
  | pure a => exact ⟨all, rfl⟩
  | vis e k ih =>
    refine ⟨allowed e all.1, fun x _ => ?_⟩
    rw [stays e x all.1]
    exact ih x (all.2 x)

theorem seq (mid : A → G → Prop) {p : Call Sig Ans E A} {f : A → Call Sig Ans E B}
    (first : Obeys rule req (fun x g' => (∀ a, x = .ok a → mid a g') ∧
      ∀ error, x = .error error → Q (.error error) g') p.run g)
    (rest : ∀ a g', mid a g' → Obeys rule req Q (f a).run g') :
    Obeys rule req Q (p >>= f : Call Sig Ans E B).run g := by
  refine bind first fun x g' ended => ?_
  cases x with
  | ok a => exact rest a g' (ended.1 a rfl)
  | error error => exact ended.2 error rfl

theorem catches (mid : E → G → Prop) {p : Call Sig Ans E B} {handler : E → Call Sig Ans E B}
    (body : Obeys rule req (fun x g' => (∀ a, x = .ok a → Q (.ok a) g') ∧
      ∀ error, x = .error error → mid error g') p.run g)
    (handled : ∀ error g', mid error g' → Obeys rule req Q (handler error).run g') :
    Obeys rule req Q (tryCatch p handler : Call Sig Ans E B).run g := by
  refine bind body fun x g' ended => ?_
  cases x with
  | ok a => exact ended.1 a rfl
  | error error => exact handled error g' (ended.2 error rfl)

end Calls

end Obeys

/-! ## One task alone -/

def TaskEvent.slot {Req Env : Type} : TaskEvent Req Env → Nat
  | .start i _ | .step i _ | .drop i _ => i

namespace Tasks

variable {Env σ : Type} {m : Machine Sig Ans Env Req A σ} {s : Tasks Sig Ans Req A σ}

theorem step_other {event : TaskEvent Req Env} {j : Nat} (apart : j ≠ event.slot) :
    (s.step m event).tasks j = s.tasks j := by
  have moves := s.step_moves m event
  generalize s.step m event = s' at moves ⊢
  cases moves with
  | stays => rfl
  | _ => exact if_neg apart

theorem along_alone {i : Nat} {shared : σ} {events : List (TaskEvent Req Env)}
    (one : ∀ event ∈ events, event.slot = i) :
    Along (Tasks.step m) (fun s _ => ∀ j, j ≠ i → s.tasks j = none)
      (Tasks.initial shared) events := by
  refine Along.mono (fun _ _ h => h.1) (Along.of_invariant
    (fun s : Tasks Sig Ans Req A σ => ∀ j, j ≠ i → s.tasks j = none)
    (Q := fun event => event.slot = i) ?_ one fun _ _ => rfl)
  intro s event alone same j apart
  rw [step_other (same ▸ apart)]
  exact alone j apart

end Tasks

end Kit
