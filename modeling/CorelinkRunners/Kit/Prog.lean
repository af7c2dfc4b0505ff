import Mathlib

/-!
# Programs over a signature of effects

A program either answers or performs one effect and continues with the effect's answer. What an
effect does is no part of the program: a run supplies the answers. The same program can therefore
be run where every effect succeeds, where some fail, or interleaved with other programs.

The second half is the signature with one effect, appending a line to a log.
-/

namespace Kit

/-- A program over the effects `Sig`, whose effect `e` is answered by `Ans e`. -/
inductive Prog (Sig : Type) (Ans : Sig → Type) (A : Type) : Type
  | pure (a : A)
  | vis (e : Sig) (k : Ans e → Prog Sig Ans A)

namespace Prog

variable {Sig : Type} {Ans : Sig → Type} {A B : Type}

def bind (p : Prog Sig Ans A) (f : A → Prog Sig Ans B) : Prog Sig Ans B :=
  match p with
  | .pure a => f a
  | .vis e k => .vis e fun x => (k x).bind f

def map (f : A → B) (p : Prog Sig Ans A) : Prog Sig Ans B :=
  match p with
  | .pure a => .pure (f a)
  | .vis e k => .vis e fun x => (k x).map f

def perform (e : Sig) : Prog Sig Ans (Ans e) := .vis e .pure

instance : Monad (Prog Sig Ans) where
  pure := .pure
  bind := bind

end Prog

/-! ## Appending to a log -/

/-- A program whose effects append lines; an append answers with success or an error. -/
abbrev Appending (L E A : Type) : Type := Prog L (fun _ => Except E Unit) A

namespace Appending

variable {L E A : Type}

def settle : Appending L E A → A × List L
  | .pure a => (a, [])
  | .vis line k => ((settle (k (.ok ()))).1, line :: (settle (k (.ok ()))).2)

/-- The answer and the lines that landed, where the environment decides each append in turn. A
failed append leaves nothing behind. -/
def run (env : Nat → Except E Unit) : Appending L E A → A × List L
  | .pure a => (a, [])
  | .vis line k =>
    let rest := run (fun n => env (n + 1)) (k (env 0))
    match env 0 with
    | .ok () => (rest.1, line :: rest.2)
    | .error _ => rest

/-- The line whose append is the first to fail. -/
def refused (env : Nat → Except E Unit) : Appending L E A → Option L
  | .pure _ => none
  | .vis line k =>
    match env 0 with
    | .ok () => refused (fun n => env (n + 1)) (k (.ok ()))
    | .error _ => some line

/-- The lines that landed when the run stops before its append number `n`. -/
def durable (env : Nat → Except E Unit) : Nat → Appending L E A → List L
  | 0, _ => []
  | _ + 1, .pure _ => []
  | n + 1, .vis line k =>
    let rest := durable (fun n => env (n + 1)) n (k (env 0))
    match env 0 with
    | .ok () => line :: rest
    | .error _ => rest

theorem run_ok (p : Appending L E A) : run (fun _ => .ok ()) p = settle p := by
  induction p with
  | pure a => rfl
  | vis line k ih => simp only [run, settle, ih]

theorem refused_ok (p : Appending L E A) : refused (fun _ => .ok ()) p = none := by
  induction p with
  | pure a => rfl
  | vis line k ih => exact ih _

end Appending

end Kit
