import CorelinkRunners.Kit.Txn

/-!
# What a call answers among other sessions

`Safe` speaks about what the commits of a call do to the shared state. A duty can ask more: what
holds when the call answers, whatever the other sessions do between its statements.
`Sound.follows_run` carries it along a run.

If every move goes up in some order, a session may also rely on the shared state going up
(`Protocol.within`).
-/

namespace Kit

variable {Sig : Type} {Ans : Sig → Type} {Lock Write D A Call : Type}

/-! ## Protocols whose moves go up -/

/-- An order that every move goes up in. -/
structure Protocol.Order (proto : Protocol Lock D Call) (le : D → D → Prop) : Prop where
  refl : ∀ d, le d d
  trans : ∀ {d1 d2 d3}, le d1 d2 → le d2 d3 → le d1 d3
  move : ∀ {call held d d'}, proto.Inv d → proto.Move call held d d' → le d d'

/-- The protocol in which sessions rely on the order too. -/
def Protocol.within (proto : Protocol Lock D Call) {le : D → D → Prop} (order : proto.Order le) :
    Protocol Lock D Call where
  Inv := proto.Inv
  Rely held d d' := proto.Rely held d d' ∧ le d d'
  Move := proto.Move
  rely_refl held d := ⟨proto.rely_refl held d, order.refl d⟩
  rely_trans h h' := ⟨proto.rely_trans h.1 h'.1, order.trans h.2 h'.2⟩
  rely_mono sub h := ⟨proto.rely_mono sub h.1, h.2⟩
  rely_move inv move apart := ⟨proto.rely_move inv move apart, order.move inv move⟩
  inv_move := proto.inv_move

/-! ## Other protocols and duties -/

section Runs

variable {store : Store Sig Ans Lock Write D} {proto : Protocol Lock D Call}
  {cond : D → List Write → Sig → Prop} {duty : Duty Lock Write D A} {held : Lock → Prop} {d : D}
  {w : Option (List Write)} {p : TxnProg Sig Ans A}

theorem Runs.imp {proto' : Protocol Lock D Call} {cond' : D → List Write → Sig → Prop}
    {duty' : Duty Lock Write D A} (runs : Runs store proto cond duty held w p d)
    (rely : ∀ {held d d'}, proto'.Rely held d d' → proto.Rely held d d')
    (inv : ∀ {d}, proto'.Inv d → proto.Inv d) (promised : ∀ {d ws q}, cond' d ws q → cond d ws q)
    (commits : ∀ {held d ws}, duty.commits held d ws → duty'.commits held d ws)
    (writes : ∀ {d ws}, duty.writes d ws → duty'.writes d ws)
    (answers : ∀ a d, duty.answers a d → duty'.answers a d) :
    Runs store proto' cond' duty' held w p d := by
  induction p generalizing held w d with
  | pure a => exact answers a d runs
  | vis e k ih =>
    cases e with
    | start => exact ih () runs
    | rollback => exact ih () runs
    | commit =>
      cases w with
      | none => exact ih () runs
      | some ws =>
        intro d' rely' inv'
        obtain ⟨committed, next⟩ := runs d' (rely rely') (inv inv')
        exact ⟨commits committed, ih () next⟩
    | query q =>
      cases w with
      | none =>
        intro d' rely' inv' cond'
        obtain ⟨wrote, next⟩ := runs d' (rely rely') (inv inv') (promised cond')
        exact ⟨writes wrote, ih _ next⟩
      | some ws =>
        intro d' rely' inv' cond'
        exact ih _ (runs d' (rely rely') (inv inv') (promised cond'))

theorem Runs.weaken {post : A → D → Prop} (answers : ∀ a d, duty.answers a d → post a d)
    (runs : Runs store proto cond duty held w p d) :
    Runs store proto cond { duty with answers := post } held w p d :=
  runs.imp id id id id id answers

theorem Runs.mono {held' : Lock → Prop} (sub : ∀ l, held l → held' l)
    (indifferent : ∀ {held held' d ws}, duty.commits held d ws → duty.commits held' d ws)
    (runs : Runs store proto cond duty held w p d) : Runs store proto cond duty held' w p d := by
  induction p generalizing held held' w d with
  | pure a => exact runs
  | vis e k ih =>
    cases e with
    | start => exact ih () sub runs
    | rollback => exact runs
    | commit =>
      cases w with
      | none => exact runs
      | some ws =>
        intro d' rely inv
        obtain ⟨committed, next⟩ := runs d' (proto.rely_mono sub rely) inv
        exact ⟨indifferent committed, next⟩
    | query q =>
      cases w with
      | none =>
        intro d' rely inv hcond
        obtain ⟨wrote, next⟩ := runs d' (proto.rely_mono sub rely) inv hcond
        exact ⟨wrote, ih _ sub next⟩
      | some ws =>
        intro d' rely inv hcond
        refine ih _ (fun l takes => ?_) (runs d' (proto.rely_mono sub rely) inv hcond)
        exact takes.imp_right (sub l)

end Runs

/-! ## Along a run -/

namespace System

variable [DecidableEq Lock] {store : Store Sig Ans Lock Write D} {prog : Call → TxnProg Sig Ans A}
  {proto : Protocol Lock D Call} {cond : D → List Write → Sig → Prop} {allowed : Call → Prop}
  {J : D → Prop} {s : System Sig Ans Lock Write D A} {i j : Nat} {duty : Duty Lock Write D A}

omit [DecidableEq Lock] in
def answer (s : System Sig Ans Lock Write D A) (i : Nat) : Option A :=
  match s.sessions i with
  | some ⟨.pure a, _⟩ => some a
  | _ => none

omit [DecidableEq Lock] in
theorem Follows.answer {a : A} (follows : s.Follows store proto cond duty i)
    (answered : s.answer i = some a) : duty.answers a s.shared := by
  unfold System.answer at answered
  split at answered
  next b w hsession =>
    cases answered
    exact follows _ hsession
  · cases answered

theorem start_sessions (store : Store Sig Ans Lock Write D) {call : Call}
    (idle : s.sessions i = none) :
    (s.step store prog (.start i call)).sessions i = some ⟨prog call, none⟩ := by
  simp only [System.step, idle]
  exact withSession_self _

def Quiet (i : Nat) : TxnEvent Call → Prop
  | .start j _ => i ≠ j
  | _ => True

instance {i : Nat} : (event : TxnEvent Call) → Decidable (Quiet i event)
  | .start j _ => inferInstanceAs (Decidable (i ≠ j))
  | .step _ => .isTrue trivial
  | .abort _ => .isTrue trivial

/-- **One event keeps track of a session** that it does not start. -/
theorem Sound.follows_step (sound : Sound store proto cond allowed J s) (firm : duty.Firm proto)
    (follows : s.Follows store proto cond duty i) {event : TxnEvent Call}
    (meets : s.Meets allowed cond event) (quiet : Quiet i event) :
    (s.step store prog event).Follows store proto cond duty i ∧ (event = .step i →
      Published store duty (s.Holds i) s.shared (s.step store prog event).shared) := by
  by_cases apart : i ≠ event.session
  · refine ⟨sound.follows_other firm meets apart follows, ?_⟩
    rintro rfl
    exact absurd rfl apart
  have own := not_not.mp apart
  cases event with
  | start j call => exact absurd own quiet
  | abort j =>
    obtain rfl : i = j := own
    refine ⟨fun session there => ?_, by rintro ⟨⟩⟩
    rw [System.step, withSession_self] at there
    cases there
  | step j =>
    obtain rfl : i = j := own
    cases hsession : s.sessions i with
    | none =>
      simp only [System.step, hsession]
      exact ⟨follows, fun _ => .inl rfl⟩
    | some session =>
      simp only [System.step, hsession]
      obtain ⟨next, published, -⟩ := follows.advance sound.inv hsession (meets session hsession)
      exact ⟨next, fun _ => published⟩

theorem Sound.follows_run {events : List (TxnEvent Call)}
    (programs : ∀ call d, allowed call → proto.Inv d →
      Safe store proto cond call (fun _ => False) none (prog call) d) (firm : duty.Firm proto)
    (along : Along (System.step store prog) (System.Meets allowed cond) s events)
    (quiet : ∀ event ∈ events, Quiet i event)
    (sound : Sound store proto cond allowed (fun _ => True) s)
    (follows : s.Follows store proto cond duty i) :
    Sound store proto cond allowed (fun _ => True) (events.foldl (System.step store prog) s) ∧
      (events.foldl (System.step store prog) s).Follows store proto cond duty i ∧
      Along (System.step store prog) (fun s event => event = .step i →
        Published store duty (s.Holds i) s.shared (s.step store prog event).shared) s events := by
  induction events generalizing s with
  | nil => exact ⟨sound, follows, trivial⟩
  | cons event events ih =>
    obtain ⟨next, published⟩ : (s.step store prog event).Follows store proto cond duty i ∧ _ :=
      sound.follows_step firm follows along.1 (quiet event List.mem_cons_self)
    obtain ⟨last, followed, rest⟩ :=
      ih along.2 (fun event h => quiet event (List.mem_cons_of_mem _ h))
      (sound.step (fun _ _ _ _ => trivial) programs along.1) next
    exact ⟨last, followed, published, rest⟩

end System

end Kit
