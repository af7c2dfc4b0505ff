import CorelinkRunners.Kit.Prog
import CorelinkRunners.Kit.Run

/-!
# Transactions of many sessions over one store

A session runs a program whose effects are statements. Statements of different sessions interleave
in any order. A statement reads the latest committed state under the session's own uncommitted
writes; a statement that needs a lock waits while another session holds it; locks are kept to the
end of the transaction, and a commit publishes the writes at once. A session can break off at any
point, which rolls it back.

`Protocol` is what a proof about such a system supplies: an invariant of the committed states, what
a session may *rely* on while it holds given locks, and the *moves* its commits may make. If every
program is `Safe`, what every move keeps holds in every committed state of every run
(`System.invariant`).
-/

namespace Kit

/-- A statement: the three that delimit a transaction, and the store's own. -/
inductive Stmt (Sig : Type)
  | start
  | commit
  | rollback
  | query (q : Sig)

abbrev Stmt.Ans {Sig : Type} (Ans : Sig → Type) : Stmt Sig → Type
  | .query q => Ans q
  | _ => Unit

abbrev TxnProg (Sig : Type) (Ans : Sig → Type) (A : Type) : Type := Prog (Stmt Sig) (Stmt.Ans Ans) A

/-- A store: over the committed state and the session's own writes, the lock a statement takes, what
it answers and what it writes; and what publishing writes makes of the committed state. -/
structure Store (Sig : Type) (Ans : Sig → Type) (Lock Write D : Type) where
  lock : Sig → D → List Write → Option Lock
  ask : (q : Sig) → D → List Write → Ans q × List Write
  publish : D → List Write → D

variable {Sig : Type} {Ans : Sig → Type} {Lock Write D A Call : Type}

/-- Run a program with no other session about. Outside a transaction a statement is committed at
once; a transaction left open is rolled back. -/
def Store.runAlone (store : Store Sig Ans Lock Write D) :
    Option (List Write) → TxnProg Sig Ans A → D → A × D
  | _, .pure a, d => (a, d)
  | _, .vis .start k, d => store.runAlone (some []) (k ()) d
  | some ws, .vis .commit k, d => store.runAlone none (k ()) (store.publish d ws)
  | none, .vis .commit k, d => store.runAlone none (k ()) d
  | _, .vis .rollback k, d => store.runAlone none (k ()) d
  | some ws, .vis (.query q) k, d =>
    store.runAlone (some (ws ++ (store.ask q d ws).2)) (k (store.ask q d ws).1) d
  | none, .vis (.query q) k, d =>
    store.runAlone none (k (store.ask q d []).1) (store.publish d (store.ask q d []).2)

/-! ## The interleaved system -/

/-- A session: what it still has to do, and its uncommitted writes if it is in a transaction. -/
structure Session (Sig : Type) (Ans : Sig → Type) (Write A : Type) where
  prog : TxnProg Sig Ans A
  writes : Option (List Write)

def Session.asks {Sig : Type} {Ans : Sig → Type} {Write A : Type}
    (session : Session Sig Ans Write A) : Option Sig :=
  match session.prog with
  | .vis (.query q) _ => some q
  | _ => none

/-- The committed state, who holds each lock, and the sessions. -/
structure System (Sig : Type) (Ans : Sig → Type) (Lock Write D A : Type) where
  shared : D
  locks : Lock → Option Nat
  sessions : Nat → Option (Session Sig Ans Write A)

/-- What can happen: an idle session starts a call, a session goes on by one statement, a session
breaks off. -/
inductive TxnEvent (Call : Type)
  | start (i : Nat) (call : Call)
  | step (i : Nat)
  | abort (i : Nat)

namespace System

def initial (d : D) : System Sig Ans Lock Write D A := ⟨d, fun _ => none, fun _ => none⟩

def withSession (s : System Sig Ans Lock Write D A) (i : Nat)
    (session : Option (Session Sig Ans Write A)) : System Sig Ans Lock Write D A :=
  { s with sessions := fun j => if j = i then session else s.sessions j }

def release (s : System Sig Ans Lock Write D A) (i : Nat) : System Sig Ans Lock Write D A :=
  { s with locks := fun l => if s.locks l = some i then none else s.locks l }

def free (s : System Sig Ans Lock Write D A) (i : Nat) : Option Lock → Bool
  | none => true
  | some l => s.locks l == none || s.locks l == some i

def acquire [DecidableEq Lock] (s : System Sig Ans Lock Write D A) (i : Nat) :
    Option Lock → System Sig Ans Lock Write D A
  | none => s
  | some lock => { s with locks := fun l => if l = lock then some i else s.locks l }

/-- One statement of a session. A statement whose lock another session holds waits. -/
def advance [DecidableEq Lock] (store : Store Sig Ans Lock Write D)
    (s : System Sig Ans Lock Write D A) (i : Nat) :
    Session Sig Ans Write A → System Sig Ans Lock Write D A
  | ⟨.pure _, _⟩ => (s.release i).withSession i none
  | ⟨.vis .start k, _⟩ => s.withSession i (some ⟨k (), some []⟩)
  | ⟨.vis .commit k, some ws⟩ =>
    { (s.release i).withSession i (some ⟨k (), none⟩) with shared := store.publish s.shared ws }
  | ⟨.vis .commit k, none⟩ => (s.release i).withSession i (some ⟨k (), none⟩)
  | ⟨.vis .rollback k, _⟩ => (s.release i).withSession i (some ⟨k (), none⟩)
  | ⟨.vis (.query q) k, some ws⟩ =>
    if s.free i (store.lock q s.shared ws) then
      (s.acquire i (store.lock q s.shared ws)).withSession i
        (some ⟨k (store.ask q s.shared ws).1, some (ws ++ (store.ask q s.shared ws).2)⟩)
    else s
  | ⟨.vis (.query q) k, none⟩ =>
    if s.free i (store.lock q s.shared []) then
      { s.withSession i (some ⟨k (store.ask q s.shared []).1, none⟩) with
        shared := store.publish s.shared (store.ask q s.shared []).2 }
    else s

def step [DecidableEq Lock] (store : Store Sig Ans Lock Write D) (prog : Call → TxnProg Sig Ans A)
    (s : System Sig Ans Lock Write D A) : TxnEvent Call → System Sig Ans Lock Write D A
  | .start i call =>
    match s.sessions i with
    | none => s.withSession i (some ⟨prog call, none⟩)
    | some _ => s
  | .step i =>
    match s.sessions i with
    | none => s
    | some session => s.advance store i session
  | .abort i => (s.release i).withSession i none

end System

/-! ## Protocols -/

structure Protocol (Lock D Call : Type) where
  /-- Holds of every committed state. -/
  Inv : D → Prop
  /-- What others may do to the committed state while a session holds the given locks. -/
  Rely : (Lock → Prop) → D → D → Prop
  /-- What a commit of a call may do under the locks it holds. -/
  Move : Call → (Lock → Prop) → D → D → Prop
  rely_refl : ∀ held d, Rely held d d
  rely_trans : ∀ {held d1 d2 d3}, Rely held d1 d2 → Rely held d2 d3 → Rely held d1 d3
  rely_mono : ∀ {held held' : Lock → Prop} {d d'}, (∀ l, held' l → held l) → Rely held d d' →
    Rely held' d d'
  rely_move : ∀ {call held held' d d'}, Inv d → Move call held d d' → (∀ l, held' l → ¬ held l) →
    Rely held' d d'
  inv_move : ∀ {call held d d'}, Inv d → Move call held d d' → Inv d'

def Takes (lock : Option Lock) (held : Lock → Prop) : Lock → Prop := fun l => lock = some l ∨ held l

/-- What is asked of a program: of what it commits under the locks it holds, of what it writes
outside a transaction, and of its answer. -/
structure Duty (Lock Write D A : Type) where
  commits : (Lock → Prop) → D → List Write → Prop
  writes : D → List Write → Prop
  answers : A → D → Prop

/-- **One program against all others.** From a committed state, holding given locks and having
written given writes: however others move between its statements, the program does its duty. `cond`
is what the run promises of each statement. -/
def Runs (store : Store Sig Ans Lock Write D) (proto : Protocol Lock D Call)
    (cond : D → List Write → Sig → Prop) (duty : Duty Lock Write D A) :
    (Lock → Prop) → Option (List Write) → TxnProg Sig Ans A → D → Prop
  | _, _, .pure a, d => duty.answers a d
  | held, _, .vis .start k, d => Runs store proto cond duty held (some []) (k ()) d
  | held, some ws, .vis .commit k, d =>
    ∀ d', proto.Rely held d d' → proto.Inv d' → duty.commits held d' ws ∧
      Runs store proto cond duty (fun _ => False) none (k ()) (store.publish d' ws)
  | _, none, .vis .commit k, d => Runs store proto cond duty (fun _ => False) none (k ()) d
  | _, _, .vis .rollback k, d => Runs store proto cond duty (fun _ => False) none (k ()) d
  | held, some ws, .vis (.query q) k, d =>
    ∀ d', proto.Rely held d d' → proto.Inv d' → cond d' ws q →
      Runs store proto cond duty (Takes (store.lock q d' ws) held)
        (some (ws ++ (store.ask q d' ws).2)) (k (store.ask q d' ws).1) d'
  | held, none, .vis (.query q) k, d =>
    ∀ d', proto.Rely held d d' → proto.Inv d' → cond d' [] q →
      duty.writes d' (store.ask q d' []).2 ∧ Runs store proto cond duty held none
        (k (store.ask q d' []).1) (store.publish d' (store.ask q d' []).2)

/-- Every commit is a move of the call, and nothing is written outside a transaction. -/
def Duty.moves (store : Store Sig Ans Lock Write D) (proto : Protocol Lock D Call) (call : Call)
    (post : A → D → Prop) : Duty Lock Write D A where
  commits held d ws := proto.Move call held d (store.publish d ws)
  writes d ws := store.publish d ws = d
  answers := post

abbrev Safe (store : Store Sig Ans Lock Write D) (proto : Protocol Lock D Call)
    (cond : D → List Write → Sig → Prop) (call : Call) (held : Lock → Prop)
    (w : Option (List Write)) (p : TxnProg Sig Ans A) (d : D) : Prop :=
  Runs store proto cond (.moves store proto call fun _ _ => True) held w p d

section Runs

variable {store : Store Sig Ans Lock Write D} {proto : Protocol Lock D Call}
  {cond : D → List Write → Sig → Prop} {duty : Duty Lock Write D A} {held : Lock → Prop} {d : D}

/-- Others do not make the answers false. -/
def Duty.Firm (duty : Duty Lock Write D A) (proto : Protocol Lock D Call) : Prop :=
  ∀ a d d', proto.Rely (fun _ => False) d d' → duty.answers a d → duty.answers a d'

variable {w : Option (List Write)} {p : TxnProg Sig Ans A}

/-- **Others do not disturb a program** while they leave alone what its locks protect. -/
theorem Runs.stable {d' : D} (firm : duty.Firm proto) (runs : Runs store proto cond duty held w p d)
    (rely : proto.Rely held d d') : Runs store proto cond duty held w p d' := by
  have free : proto.Rely (fun _ => False) d d' := proto.rely_mono (fun _ h => h.elim) rely
  induction p generalizing held w with
  | pure a => exact firm a d d' free runs
  | vis e k ih =>
    cases e with
    | start => exact ih () runs rely
    | rollback => exact ih () runs free
    | commit =>
      cases w with
      | none => exact ih () runs free
      | some ws =>
        intro d2 rely2 inv2
        exact runs d2 (proto.rely_trans rely rely2) inv2
    | query q =>
      cases w with
      | none =>
        intro d2 rely2 inv2 cond2
        exact runs d2 (proto.rely_trans rely rely2) inv2 cond2
      | some ws =>
        intro d2 rely2 inv2 cond2
        exact runs d2 (proto.rely_trans rely rely2) inv2 cond2

theorem Runs.peek {ws : List Write} {q : Sig} {k : Ans q → TxnProg Sig Ans A}
    (reads : ∀ d', (store.ask q d' ws).2 = []) (unlocked : ∀ d', store.lock q d' ws = none)
    (next : ∀ d', proto.Rely held d d' → proto.Inv d' →
      Runs store proto cond duty held (some ws) (k (store.ask q d' ws).1) d') :
    Runs store proto cond duty held (some ws) (.vis (.query q) k) d := by
  intro d' rely inv _
  have same : Takes (store.lock q d' ws) held = held := by
    rw [unlocked]
    funext l
    simp [Takes]
  rw [same, reads, List.append_nil]
  exact next d' rely inv

theorem Runs.map {B : Type} {duty : Duty Lock Write D B} (f : A → B)
    (runs : Runs store proto cond ⟨duty.commits, duty.writes, fun a => duty.answers (f a)⟩ held
      w p d) :
    Runs store proto cond duty held w (p.map f) d := by
  induction p generalizing held w d with
  | pure a => exact runs
  | vis e k ih =>
    cases e with
    | start => exact ih () runs
    | rollback => exact ih () runs
    | commit =>
      cases w with
      | none => exact ih () runs
      | some ws =>
        intro d' rely inv
        obtain ⟨commits, next⟩ := runs d' rely inv
        exact ⟨commits, ih () next⟩
    | query q =>
      cases w with
      | none =>
        intro d' rely inv hcond
        obtain ⟨writes, next⟩ := runs d' rely inv hcond
        exact ⟨writes, ih _ next⟩
      | some ws =>
        intro d' rely inv hcond
        exact ih _ (runs d' rely inv hcond)

end Runs

/-! ## Runs -/

namespace System

variable [DecidableEq Lock] {store : Store Sig Ans Lock Write D} {prog : Call → TxnProg Sig Ans A}
  {proto : Protocol Lock D Call} {cond : D → List Write → Sig → Prop} {allowed : Call → Prop}
  {J : D → Prop} {s : System Sig Ans Lock Write D A} {i j : Nat} {duty : Duty Lock Write D A}

/-- The run may start only allowed calls, and each statement meets its condition where it runs. -/
def Meets (allowed : Call → Prop) (cond : D → List Write → Sig → Prop)
    (s : System Sig Ans Lock Write D A) : TxnEvent Call → Prop
  | .start _ call => allowed call
  | .step i => ∀ session ∈ s.sessions i, ∀ q ∈ session.asks,
      cond s.shared (session.writes.getD []) q
  | .abort _ => True

instance {allowed : Call → Prop} {cond : D → List Write → Sig → Prop} [DecidablePred allowed]
    [∀ d ws q, Decidable (cond d ws q)] (s : System Sig Ans Lock Write D A) :
    (event : TxnEvent Call) → Decidable (s.Meets allowed cond event)
  | .start _ call => inferInstanceAs (Decidable (allowed call))
  | .step i => inferInstanceAs (Decidable (∀ session ∈ s.sessions i, ∀ q ∈ session.asks,
      cond s.shared (session.writes.getD []) q))
  | .abort _ => .isTrue trivial

def Holds (s : System Sig Ans Lock Write D A) (i : Nat) : Lock → Prop := fun l => s.locks l = some i

def Follows (store : Store Sig Ans Lock Write D) (proto : Protocol Lock D Call)
    (cond : D → List Write → Sig → Prop) (duty : Duty Lock Write D A) (i : Nat)
    (s : System Sig Ans Lock Write D A) : Prop :=
  ∀ session, s.sessions i = some session →
    Runs store proto cond duty (s.Holds i) session.writes session.prog s.shared

/-- What every run keeps: the committed state is sound, every session runs a safe program of an
allowed call, and one that is idle holds no lock. -/
structure Sound (store : Store Sig Ans Lock Write D) (proto : Protocol Lock D Call)
    (cond : D → List Write → Sig → Prop) (allowed : Call → Prop) (J : D → Prop)
    (s : System Sig Ans Lock Write D A) : Prop where
  inv : proto.Inv s.shared
  prop : J s.shared
  safe : ∀ i, (s.sessions i).isSome → ∃ call, allowed call ∧
    s.Follows store proto cond (.moves store proto call fun _ _ => True) i
  idle : ∀ i, s.sessions i = none → s.Holds i = fun _ => False

/-! ### Locks and sessions -/

omit [DecidableEq Lock] in
theorem release_holds : (s.release i).Holds i = fun _ => False := by
  funext l
  simp only [Holds, release, eq_iff_iff, iff_false]
  split
  · exact nofun
  next h => exact h

omit [DecidableEq Lock] in
theorem release_holds_other (apart : j ≠ i) : (s.release i).Holds j = s.Holds j := by
  funext l
  simp only [Holds, release, eq_iff_iff]
  split
  next h =>
    rw [h]
    simp [apart.symm]
  · rfl

variable (lock : Option Lock)

@[simp] theorem acquire_shared : (s.acquire i lock).shared = s.shared := by cases lock <;> rfl

@[simp] theorem acquire_sessions : (s.acquire i lock).sessions = s.sessions := by cases lock <;> rfl

theorem acquire_holds : (s.acquire i lock).Holds i = Takes lock (s.Holds i) := by
  funext l
  cases lock with
  | none => simp [Holds, acquire, Takes]
  | some lock =>
    by_cases h : l = lock
    · subst h
      simp [Holds, acquire, Takes]
    · simp [Holds, acquire, Takes, h, Ne.symm h]

theorem acquire_holds_other {lock : Option Lock} (hfree : s.free i lock = true) (apart : j ≠ i) :
    (s.acquire i lock).Holds j = s.Holds j := by
  funext l
  cases lock with
  | none => rfl
  | some lock =>
    simp only [free, Bool.or_eq_true, beq_iff_eq] at hfree
    by_cases h : l = lock
    · subst h
      rcases hfree with hfree | hfree <;> simp [Holds, acquire, hfree, apart.symm]
    · simp [Holds, acquire, h]

omit [DecidableEq Lock] in
theorem withSession_self (session : Option (Session Sig Ans Write A)) :
    (s.withSession i session).sessions i = session := if_pos rfl

omit [DecidableEq Lock] in
theorem withSession_other (session : Option (Session Sig Ans Write A)) (apart : j ≠ i) :
    (s.withSession i session).sessions j = s.sessions j := if_neg apart

omit [DecidableEq Lock] in
theorem Follows.of_session {s' : System Sig Ans Lock Write D A} {session : Session Sig Ans Write A}
    {held : Lock → Prop} (sessions : s'.sessions i = some session) (holds : s'.Holds i = held)
    (runs : Runs store proto cond duty held session.writes session.prog s'.shared) :
    s'.Follows store proto cond duty i := by
  intro session' there
  cases sessions.symm.trans there
  rw [holds]
  exact runs

/-! ### One event -/

def Published (store : Store Sig Ans Lock Write D) (duty : Duty Lock Write D A) (held : Lock → Prop)
    (d d' : D) : Prop :=
  d' = d ∨ ∃ ws, (duty.commits held d ws ∨ duty.writes d ws) ∧ d' = store.publish d ws

/-- **The session's own statement** does its duty, and leaves the rest of the program to do. -/
theorem Follows.advance {session : Session Sig Ans Write A}
    (follows : s.Follows store proto cond duty i) (inv : proto.Inv s.shared)
    (hsession : s.sessions i = some session)
    (meets : ∀ q ∈ session.asks, cond s.shared (session.writes.getD []) q) :
    (s.advance store i session).Follows store proto cond duty i ∧
      Published store duty (s.Holds i) s.shared (s.advance store i session).shared ∧
      ((s.advance store i session).sessions i = none →
        (s.advance store i session).Holds i = fun _ => False) := by
  have runs := follows session hsession
  obtain ⟨p, w⟩ := session
  have rely := proto.rely_refl (s.Holds i) s.shared
  have there {t : System Sig Ans Lock Write D A} {next : Session Sig Ans Write A} {P : Prop}
      (gone : (t.withSession i (some next)).sessions i = none) : P :=
    nomatch (withSession_self (s := t) (i := i) (some next)).symm.trans gone
  cases p with
  | pure a =>
    refine ⟨fun session' h => ?_, .inl rfl, fun _ => release_holds⟩
    nomatch (withSession_self (s := s.release i) (i := i) none).symm.trans h
  | vis e k =>
    cases e with
    | start => exact ⟨.of_session (withSession_self _) rfl runs, .inl rfl, there⟩
    | rollback => exact ⟨.of_session (withSession_self _) release_holds runs, .inl rfl, there⟩
    | commit =>
      cases w with
      | none => exact ⟨.of_session (withSession_self _) release_holds runs, .inl rfl, there⟩
      | some ws =>
        obtain ⟨commits, next⟩ := runs s.shared rely inv
        exact ⟨.of_session (withSession_self (s := s.release i) _) release_holds next,
          .inr ⟨ws, .inl commits, rfl⟩, there⟩
    | query q =>
      have waits {P : Prop} (gone : s.sessions i = none) : P := nomatch gone.symm.trans hsession
      cases w with
      | none =>
        obtain ⟨writes, next⟩ := runs s.shared rely inv (meets q rfl)
        simp only [System.advance]
        split
        · exact ⟨.of_session (withSession_self (s := s) _) rfl next, .inr ⟨_, .inr writes, rfl⟩,
            there⟩
        · exact ⟨follows, .inl rfl, waits⟩
      | some ws =>
        have next := runs s.shared rely inv (meets q rfl)
        have same : (s.acquire i (store.lock q s.shared ws)).shared = s.shared := acquire_shared _
        simp only [System.advance]
        split
        · refine ⟨.of_session (withSession_self _) (acquire_holds _) ?_, .inl same, there⟩
          exact same.symm ▸ next
        · exact ⟨follows, .inl rfl, waits⟩

theorem advance_other (apart : j ≠ i) (session : Session Sig Ans Write A) :
    (s.advance store i session).sessions j = s.sessions j ∧
      (s.advance store i session).Holds j = s.Holds j := by
  have released (next : Option (Session Sig Ans Write A)) :
      ((s.release i).withSession i next).sessions j = s.sessions j ∧
        ((s.release i).withSession i next).Holds j = s.Holds j :=
    ⟨withSession_other _ apart, release_holds_other apart⟩
  obtain ⟨p, w⟩ := session
  cases p with
  | pure a => exact released none
  | vis e k =>
    cases e with
    | start => exact ⟨withSession_other _ apart, rfl⟩
    | rollback => exact released _
    | commit => cases w <;> exact released _
    | query q =>
      cases w with
      | none =>
        simp only [System.advance]
        split
        · exact ⟨withSession_other _ apart, rfl⟩
        · exact ⟨rfl, rfl⟩
      | some ws =>
        simp only [System.advance]
        split
        next hfree =>
          refine ⟨?_, acquire_holds_other hfree apart⟩
          rw [withSession_other _ apart, acquire_sessions]
        · exact ⟨rfl, rfl⟩

end System

def TxnEvent.session : TxnEvent Call → Nat
  | .start i _ | .step i | .abort i => i

namespace System

variable [DecidableEq Lock] {store : Store Sig Ans Lock Write D} {prog : Call → TxnProg Sig Ans A}
  {proto : Protocol Lock D Call} {cond : D → List Write → Sig → Prop} {allowed : Call → Prop}
  {J : D → Prop} {s : System Sig Ans Lock Write D A} {i j : Nat} {event : TxnEvent Call}

theorem step_other (apart : j ≠ event.session) :
    (s.step store prog event).sessions j = s.sessions j ∧
      (s.step store prog event).Holds j = s.Holds j := by
  cases event with
  | abort i => exact ⟨withSession_other _ apart, release_holds_other apart⟩
  | start i call =>
    simp only [System.step]
    split
    · exact ⟨withSession_other _ apart, rfl⟩
    · exact ⟨rfl, rfl⟩
  | step i =>
    simp only [System.step]
    split
    · exact ⟨rfl, rfl⟩
    next session _ => exact advance_other apart session

namespace Sound

theorem advance (sound : Sound store proto cond allowed J s) {session : Session Sig Ans Write A}
    (hsession : s.sessions i = some session)
    (meets : ∀ q ∈ session.asks, cond s.shared (session.writes.getD []) q) : ∃ call, allowed call ∧
      (s.advance store i session).Follows store proto cond
      (.moves store proto call fun _ _ => True) i ∧ ((s.advance store i session).sessions i = none →
        (s.advance store i session).Holds i = fun _ => False) ∧
      ((s.advance store i session).shared = s.shared ∨
        proto.Move call (s.Holds i) s.shared (s.advance store i session).shared) := by
  obtain ⟨call, hcall, follows⟩ := sound.safe i (by rw [hsession]; rfl)
  obtain ⟨next, published, idle⟩ := follows.advance sound.inv hsession meets
  refine ⟨call, hcall, next, idle, ?_⟩
  rcases published with same | ⟨ws, move | same, published⟩
  · exact .inl same
  · rw [published]
    exact .inr move
  · exact .inl (published.trans same)

theorem moves_own (sound : Sound store proto cond allowed J s)
    (meets : s.Meets allowed cond event) :
    (s.step store prog event).shared = s.shared ∨ ∃ call, allowed call ∧
      proto.Move call (s.Holds event.session) s.shared (s.step store prog event).shared := by
  cases event with
  | abort i => exact .inl rfl
  | start i call =>
    simp only [System.step]
    split <;> exact .inl rfl
  | step i =>
    simp only [System.step]
    split
    · exact .inl rfl
    next session hsession =>
      obtain ⟨call, hcall, -, -, moved⟩ := sound.advance hsession (meets session hsession)
      exact moved.imp_right fun move => ⟨call, hcall, move⟩

theorem moves (sound : Sound store proto cond allowed J s) (meets : s.Meets allowed cond event) :
    (s.step store prog event).shared = s.shared ∨ ∃ call held, allowed call ∧
      proto.Move call held s.shared (s.step store prog event).shared :=
  (sound.moves_own meets).imp_right fun ⟨call, hcall, move⟩ => ⟨call, _, hcall, move⟩

theorem rely (sound : Sound store proto cond allowed J s) (meets : s.Meets allowed cond event)
    (apart : j ≠ event.session) :
    proto.Rely (s.Holds j) s.shared (s.step store prog event).shared := by
  rcases sound.moves_own meets with same | ⟨call, -, move⟩
  · rw [same]
    exact proto.rely_refl _ _
  · refine proto.rely_move sound.inv move fun l hj hi => ?_
    exact apart (Option.some.inj (hj.symm.trans hi))

theorem follows_other (sound : Sound store proto cond allowed J s) {duty : Duty Lock Write D A}
    (firm : duty.Firm proto) (meets : s.Meets allowed cond event) (apart : i ≠ event.session)
    (follows : s.Follows store proto cond duty i) :
    (s.step store prog event).Follows store proto cond duty i := by
  obtain ⟨sessions, holds⟩ : (s.step store prog event).sessions i = s.sessions i ∧
      (s.step store prog event).Holds i = s.Holds i := step_other apart
  intro session there
  rw [sessions] at there
  rw [holds]
  exact (follows session there).stable firm (sound.rely meets apart)

theorem starts (sound : Sound store proto cond allowed J s) {duty : Duty Lock Write D A}
    {call : Call} (idle : s.sessions i = none)
    (runs : Runs store proto cond duty (fun _ => False) none (prog call) s.shared) :
    (s.step store prog (.start i call)).Follows store proto cond duty i := by
  simp only [System.step, idle]
  exact .of_session (withSession_self _) (sound.idle i idle) runs

omit [DecidableEq Lock] in
theorem initial {d : D} (inv : proto.Inv d) (prop : J d) :
    Sound store proto cond allowed J (System.initial d : System Sig Ans Lock Write D A) where
  inv := inv
  prop := prop
  safe _ h := nomatch h
  idle _ _ := by
    funext l
    exact eq_false nofun

theorem own (sound : Sound store proto cond allowed J s)
    (programs : ∀ call d, allowed call → proto.Inv d →
      Safe store proto cond call (fun _ => False) none (prog call) d)
    (meets : s.Meets allowed cond event) :
    (((s.step store prog event).sessions event.session).isSome → ∃ call, allowed call ∧
      (s.step store prog event).Follows store proto cond (.moves store proto call fun _ _ => True)
        event.session) ∧
      ((s.step store prog event).sessions event.session = none →
        (s.step store prog event).Holds event.session = fun _ => False) := by
  cases event with
  | abort i =>
    refine ⟨fun h => ?_, fun _ => release_holds⟩
    rw [TxnEvent.session, System.step, withSession_self] at h
    nomatch h
  | start i call =>
    dsimp only [TxnEvent.session]
    cases idle : s.sessions i with
    | none =>
      refine ⟨fun _ => ⟨call, meets, sound.starts idle (programs call _ meets sound.inv)⟩,
        fun h => ?_⟩
      simp only [System.step, idle] at h
      nomatch (withSession_self (s := s) (i := i) _).symm.trans h
    | some session =>
      simp only [System.step, idle]
      exact ⟨fun _ => sound.safe i (by rw [idle]; rfl), nofun⟩
  | step i =>
    dsimp only [TxnEvent.session]
    cases hsession : s.sessions i with
    | none =>
      simp only [System.step, hsession]
      exact ⟨nofun, fun _ => sound.idle i hsession⟩
    | some session =>
      simp only [System.step, hsession]
      obtain ⟨call, hcall, next, idle, -⟩ := sound.advance hsession (meets session hsession)
      exact ⟨fun _ => ⟨call, hcall, next⟩, idle⟩

/-- **One event keeps the system sound.** -/
theorem step (sound : Sound store proto cond allowed J s)
    (keeps : ∀ {call held d d'}, allowed call → proto.Inv d → J d →
      proto.Move call held d d' → J d')
    (programs : ∀ call d, allowed call → proto.Inv d →
      Safe store proto cond call (fun _ => False) none (prog call) d)
    (meets : s.Meets allowed cond event) :
    Sound store proto cond allowed J (s.step store prog event) := by
  obtain ⟨safe, idle⟩ := sound.own programs meets
  have moved : (s.step store prog event).shared = s.shared ∨ _ := sound.moves_own meets
  refine ⟨?_, ?_, fun j there => ?_, fun j gone => ?_⟩
  · rcases moved with same | ⟨call, -, move⟩
    · exact same ▸ sound.inv
    · exact proto.inv_move sound.inv move
  · rcases moved with same | ⟨call, hcall, move⟩
    · exact same ▸ sound.prop
    · exact keeps hcall sound.inv sound.prop move
  · by_cases own : j = event.session
    · exact own ▸ safe (own ▸ there)
    · rw [(step_other own).1] at there
      obtain ⟨call, hcall, follows⟩ := sound.safe j there
      exact ⟨call, hcall, sound.follows_other (fun _ _ _ _ _ => trivial) meets own follows⟩
  · by_cases own : j = event.session
    · exact own ▸ idle (own ▸ gone)
    · rw [(step_other own).2]
      exact sound.idle j ((step_other own).1.symm.trans gone)

end Sound

/-- **What every move keeps holds of every committed state**, along every run that starts allowed
calls only and whose statements meet their condition. -/
theorem invariant {d : D} {events : List (TxnEvent Call)}
    (programs : ∀ call d, allowed call → proto.Inv d →
      Safe store proto cond call (fun _ => False) none (prog call) d)
    (keeps : ∀ {call held d d'}, allowed call → proto.Inv d → J d →
      proto.Move call held d d' → J d')
    (inv : proto.Inv d) (prop : J d)
    (along : Along (step store prog) (Meets allowed cond) (initial d) events) :
    J (events.foldl (step store prog) (initial d)).shared := by
  have sound := along.invariant (Sound store proto cond allowed J)
    (fun h meets => h.step keeps programs meets) (Sound.initial inv prop)
  exact sound.prop

end System

end Kit
