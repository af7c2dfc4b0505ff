import CorelinkRunners.Kit.Prog

/-!
# Calls that can fail and be cut

Calls run one after the other on a host. A call is a program whose effects are awaited: each is
done, or fails, and a failed one may have taken effect nevertheless; and a call can be cut at any of
them. What the outside decides about an effect comes with its `Fate`.

`Meets` is the rule for proofs about such calls: an invariant of the host's state at every effect,
done or not, and what holds when the call returns or throws.
-/

namespace Kit

variable {Sig : Type} {Ans : Sig → Type} {Env E A B σ : Type}

/-- A call: its effects answer or fail, and so does the call. -/
abbrev Call (Sig : Type) (Ans : Sig → Type) (E A : Type) : Type :=
  ExceptT E (Prog Sig fun e => Except E (Ans e)) A

namespace Call

def await (e : Sig) : Call Sig Ans E (Ans e) := ExceptT.mk (.perform e)

def ofExcept (x : Except E A) : Call Sig Ans E A := ExceptT.mk (.pure x)

end Call

/-! ## Checks in a row -/

section Checks

variable {x : Except E A} {f : A → Except E B} {b : B}

theorem bind_eq_ok : (x >>= f) = .ok b ↔ ∃ a, x = .ok a ∧ f a = .ok b := by
  cases x with
  | error e => simp [bind, Except.bind]
  | ok a => simp [bind, Except.bind]

variable {c : Prop} {error : E} {rest : Except E B}

theorem guard_eq_ok [Decidable c] :
    (if c then (.error error >>= fun _ : Unit => rest) else rest) = .ok b ↔ ¬c ∧ rest = .ok b := by
  split
  next holds => simp [holds, bind, Except.bind]
  next not => simp [not]

theorem unless_eq_ok [Decidable c] :
    (if c then rest else throw error >>= fun _ : PUnit => rest) = .ok b ↔ c ∧ rest = .ok b := by
  split
  next holds => simp [holds]
  next not => simp [not, bind, Except.bind, throw, throwThe, MonadExceptOf.throw]

end Checks

/-! ## Hosts -/

/-- A host: what it notes when an effect is asked for, and what an effect that is done answers and
makes of the state. -/
structure Host (Sig : Type) (Ans : Sig → Type) (Env σ : Type) where
  note : Sig → σ → σ
  perform : (e : Sig) → Env → σ → Ans e × σ

/-- What becomes of an effect, and of the call that awaits it. -/
inductive Fate (Env E : Type)
  | done (env : Env)
  | failed (applied : Option Env) (error : E)
  | cut (applied : Option Env)

namespace Host

variable (host : Host Sig Ans Env σ)

def unanswered (e : Sig) (applied : Option Env) (s : σ) : σ :=
  match applied with
  | none => host.note e s
  | some env => (host.perform e env (host.note e s)).2

/-- Run a call: what it answers, unless it is cut, and the state it leaves. A script that is too
short cuts it too. -/
def exec : Prog Sig (fun e => Except E (Ans e)) A → List (Fate Env E) → σ → Option A × σ
  | .pure a, _, s => (some a, s)
  | .vis _ _, [], s => (none, s)
  | .vis e k, fate :: rest, s =>
    match fate with
    | .done env =>
      let (x, s') := host.perform e env (host.note e s)
      exec (k (.ok x)) rest s'
    | .failed applied error => exec (k (.error error)) rest (host.unanswered e applied s)
    | .cut applied => (none, host.unanswered e applied s)

/-- **What a call meets**: the invariant at each of its effects, and `Q` at its end. -/
def Meets (Inv : σ → Prop) (Q : A → σ → Prop) : Prog Sig (fun e => Except E (Ans e)) A → σ → Prop
  | .pure a, s => Q a s
  | .vis e k, s =>
    (∀ applied, Inv (host.unanswered e applied s)) ∧
    (∀ env, Meets Inv Q (k (.ok (host.perform e env (host.note e s)).1))
      (host.perform e env (host.note e s)).2) ∧
    ∀ applied error, Meets Inv Q (k (.error error)) (host.unanswered e applied s)

variable {host} {Inv : σ → Prop} {s : σ} {Q : A → σ → Prop}
  {p : Prog Sig (fun e => Except E (Ans e)) A}

/-- **Soundness**: whatever the fates are, the invariant holds where the call ends, and what it
returns is as it promised. -/
theorem Meets.exec (meets : host.Meets Inv Q p s) (start : Inv s) (fates : List (Fate Env E)) :
    Inv (host.exec p fates s).2 ∧
      ∀ a, (host.exec p fates s).1 = some a → Q a (host.exec p fates s).2 := by
  induction p generalizing s fates with
  | pure a =>
    refine ⟨start, ?_⟩
    rintro _ ⟨⟩
    exact meets
  | vis e k ih =>
    obtain ⟨keeps, answered, thrown⟩ := meets
    cases fates with
    | nil => exact ⟨start, nofun⟩
    | cons fate rest =>
      cases fate with
      | done env => exact ih _ (answered env) (keeps (some env)) rest
      | failed applied error => exact ih _ (thrown applied error) (keeps applied) rest
      | cut applied => exact ⟨keeps applied, nofun⟩

theorem Meets.mono {Q' : A → σ → Prop} (meets : host.Meets Inv Q p s)
    (weaken : ∀ a s, Q a s → Q' a s) : host.Meets Inv Q' p s := by
  induction p generalizing s with
  | pure a => exact weaken a s meets
  | vis e k ih =>
    exact ⟨meets.1, fun env => ih _ (meets.2.1 env), fun applied error =>
      ih _ (meets.2.2 applied error)⟩

theorem Meets.bind {Q : B → σ → Prop} {f : A → Prog Sig (fun e => Except E (Ans e)) B}
    (meets : host.Meets Inv (fun a s => host.Meets Inv Q (f a) s) p s) :
    host.Meets Inv Q (p.bind f) s := by
  induction p generalizing s with
  | pure a => exact meets
  | vis e k ih =>
    exact ⟨meets.1, fun env => ih _ (meets.2.1 env), fun applied error =>
      ih _ (meets.2.2 applied error)⟩

/-! ## Rules for calls -/

section Rules

variable {Q : Except E B → σ → Prop}

def Then (host : Host Sig Ans Env σ) (Inv : σ → Prop) (Q : Except E B → σ → Prop)
    (f : A → Call Sig Ans E B) : Except E A → σ → Prop
  | .ok a, s => host.Meets Inv Q (f a).run s
  | .error e, s => Q (.error e) s

theorem Meets.seq {p : Call Sig Ans E A} {f : A → Call Sig Ans E B}
    (meets : host.Meets Inv (Then host Inv Q f) p.run s) :
    host.Meets Inv Q (p >>= f : Call Sig Ans E B).run s := by
  refine Meets.bind (meets.mono fun a s h => ?_)
  cases a with
  | ok a => exact h
  | error e => exact h

theorem Meets.await {e : Sig} {Q : Except E (Ans e) → σ → Prop}
    (keeps : ∀ applied, Inv (host.unanswered e applied s))
    (answered : ∀ env, Q (.ok (host.perform e env (host.note e s)).1)
      (host.perform e env (host.note e s)).2)
    (thrown : ∀ applied error, Q (.error error) (host.unanswered e applied s)) :
    host.Meets Inv Q (Call.await e : Call Sig Ans E (Ans e)).run s :=
  ⟨keeps, answered, thrown⟩

theorem Meets.ofExcept {x : Except E B} (h : Q x s) :
    host.Meets Inv Q (Call.ofExcept x : Call Sig Ans E B).run s := h

theorem Meets.check {c : Prop} [Decidable c] {error : E} {p : Call Sig Ans E B}
    (thrown : Q (.error error) s) (goes : ¬c → host.Meets Inv Q p.run s) :
    host.Meets Inv Q (if c then (throw error >>= fun _ : Unit => p) else p : Call Sig Ans E B).run
      s := by
  split
  · exact thrown
  next not => exact goes not

theorem Meets.returns {a : B} (h : Q (.ok a) s) :
    host.Meets Inv Q (pure a : Call Sig Ans E B).run s := h

end Rules

end Host

end Kit
