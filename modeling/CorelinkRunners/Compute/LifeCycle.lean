import CorelinkRunners.Compute.Obligations

/-!
# The life cycle of a compute obligation

`Sound` is what holds of the rows and of the history at every effect of every call: the rows that
were written for a key are moves, one from the other, and a reservation that was claimed is on
another branch than one whose cancellation was asked for.
-/

namespace CorelinkRunners.Compute

open Kit

def rowsOf (history : List Entry) (k : String) : List Row :=
  history.filterMap fun
    | .wrote k' row => if k' = k then some row else none
    | _ => none

def Row.status (row : Row) : Phase × Option TerminalState :=
  (row.phase, if row.phase = .terminal then row.terminalKind else none)

inductive Next : Phase × Option TerminalState → Phase × Option TerminalState → Prop
  | activated : Next (.preparing, none) (.active, none)
  | dispatched : Next (.active, none) (.dispatched, none)
  | settling : Next (.dispatched, none) (.settling, none)
  | settled : Next (.settling, none) (.terminal, some .settled)
  | abandonedEarly : Next (.preparing, none) (.abandoning, none)
  | abandoned : Next (.active, none) (.abandoning, none)
  | cancelled : Next (.abandoning, none) (.terminal, some .cancelled)

/-- A row goes one step on, and stays the row of the same obligation. -/
structure Row.Moves (row row' : Row) : Prop where
  binding : row'.binding = row.binding
  deadline : row'.deadlineMs = row.deadlineMs
  status : Next row.status row'.status

def Row.Provided (row : Row) : Prop :=
  row.status = (.dispatched, none) ∨ row.status = (.settling, none) ∨
    row.status = (.terminal, some .settled)

def Row.Abandoned (row : Row) : Prop :=
  row.status = (.abandoning, none) ∨ row.status = (.terminal, some .cancelled)

def Row.Bounded (row : Row) : Prop :=
  row.status = (.terminal, some .settled) →
    ∃ actual, row.actualVcpuMs = some actual ∧ bigInt actual ≤ row.binding.allowance

variable {row row' : Row}

theorem Row.Moves.provided (move : row.Moves row') (was : row.Provided) : row'.Provided := by
  have next := move.status
  rcases was with was | was | was
  all_goals
    rw [was] at next
    generalize at_ : row'.status = status at next
    cases next
  · exact .inr (.inl at_)
  · exact .inr (.inr at_)

theorem Row.Moves.abandoned (move : row.Moves row') (was : row.Abandoned) : row'.Abandoned := by
  have next := move.status
  rcases was with was | was
  all_goals
    rw [was] at next
    generalize at_ : row'.status = status at next
    cases next
  exact .inr at_

theorem Row.Provided.not_abandoned (provided : row.Provided) : ¬row.Abandoned := by
  rintro (h | h)
  all_goals
    rcases provided with h' | h' | h'
    all_goals nomatch h'.symm.trans h

theorem Row.status_of_phase {phase : Phase} (h : row.phase = phase) (running : phase ≠ .terminal) :
    row.status = (phase, none) := by
  rw [Row.status, h, if_neg running]

/-- **The rows and the history are sound.** -/
structure Sound (w : World) : Prop where
  last : ∀ k, w.rows[k]? = (rowsOf w.history k).getLast?
  chain : ∀ k, (rowsOf w.history k).IsChain Row.Moves
  first : ∀ k row, (rowsOf w.history k).head? = some row → row.phase = .preparing
  bounded : ∀ k, ∀ row ∈ rowsOf w.history k, row.Bounded
  claimed : ∀ id, .claimed id ∈ w.history → ∃ row, w.rows[key id]? = some row ∧ row.Provided
  cancelling : ∀ id, .cancelling id ∈ w.history → ∃ row, w.rows[key id]? = some row ∧ row.Abandoned
  once : ∀ id, w.history.count (.claimed id) ≤ 1

namespace Sound

variable {w : World}

theorem empty : Sound {} where
  last _ := by simp [rowsOf]
  chain _ := .nil
  first _ _ := nofun
  bounded _ _ := nofun
  claimed _ := nofun
  cancelling _ := nofun
  once _ := Nat.zero_le _

end Sound

theorem rowsOf_wrote (history : List Entry) (k k' : String) (row : Row) :
    rowsOf (history ++ [.wrote k row]) k' =
      if k = k' then rowsOf history k' ++ [row] else rowsOf history k' := by
  rw [rowsOf, List.filterMap_append]
  split
  next same => simp [rowsOf, same]
  next other => simp [rowsOf, other]

def World.wrote (w : World) (k : String) (row : Row) : World :=
  { rows := w.rows.insert k row, history := w.history ++ [.wrote k row] }

def World.Writable (w : World) (k : String) (row : Row) : Prop :=
  match w.rows[k]? with
  | none => row.phase = .preparing
  | some old => old.Moves row

namespace Sound

variable {w : World}

theorem wrote (inv : Sound w) {k : String} {row : Row} (writable : w.Writable k row)
    (bounded : row.Bounded) : Sound (w.wrote k row) := by
  have kept {P : Row → Prop} (closed : ∀ {old}, old.Moves row → P old → P row) {id : String}
      (there : ∃ row, w.rows[key id]? = some row ∧ P row) :
      ∃ row', (w.wrote k row).rows[key id]? = some row' ∧ P row' := by
    obtain ⟨old, found, holds⟩ := there
    dsimp only [World.wrote]
    rw [OrdMap.get_insert]
    split
    next same =>
      subst same
      rw [World.Writable, found] at writable
      exact ⟨row, rfl, closed writable holds⟩
    · exact ⟨old, found, holds⟩
  refine ⟨fun k' => ?_, fun k' => ?_, fun k' first => ?_, fun k' => ?_, fun id there => ?_,
    fun id there => ?_, fun id => ?_⟩
  · dsimp only [World.wrote]
    rw [OrdMap.get_insert, rowsOf_wrote]
    split
    · rw [List.getLast?_concat]
    · exact inv.last k'
  · dsimp only [World.wrote]
    rw [rowsOf_wrote]
    split
    next same =>
      subst same
      refine List.isChain_append.mpr ⟨inv.chain k, .singleton _, fun old is_last next is_next => ?_⟩
      rw [← inv.last k] at is_last
      cases is_next
      rwa [World.Writable, is_last] at writable
    · exact inv.chain k'
  · dsimp only [World.wrote]
    rw [rowsOf_wrote]
    split
    next same =>
      subst same
      intro is_first
      cases before : rowsOf w.history k with
      | nil =>
        rw [before] at is_first
        cases is_first
        rwa [World.Writable, inv.last k, before] at writable
      | cons head rest =>
        rw [before] at is_first
        exact inv.first k first (before ▸ is_first)
    · exact inv.first k' first
  · dsimp only [World.wrote]
    rw [rowsOf_wrote]
    split
    next same =>
      intro row' member
      rcases List.mem_append.mp member with old | new
      · exact inv.bounded k' row' old
      · rw [List.mem_singleton.mp new]
        exact bounded
    · exact inv.bounded k'
  · refine kept (fun move => move.provided) (inv.claimed id ?_)
    simpa [World.wrote] using there
  · refine kept (fun move => move.abandoned) (inv.cancelling id ?_)
    simpa [World.wrote] using there
  · simpa [World.wrote] using inv.once id

theorem asks (inv : Sound w) {id : String} {row : Row} (found : w.rows[key id]? = some row)
    (abandoned : row.Abandoned) : Sound { w with history := w.history ++ [.cancelling id] } where
  last k := by simpa [rowsOf] using inv.last k
  chain k := by simpa [rowsOf] using inv.chain k
  first k first := by simpa [rowsOf] using inv.first k first
  bounded k := by simpa [rowsOf] using inv.bounded k
  claimed id' there := inv.claimed id' (by simpa using there)
  cancelling id' there := by
    rcases List.mem_append.mp there with old | new
    · exact inv.cancelling id' old
    · cases List.mem_singleton.mp new
      exact ⟨row, found, abandoned⟩
  once id' := by simpa using inv.once id'

theorem claims (inv : Sound w) {id : String} {row : Row} (found : w.rows[key id]? = some row)
    (provided : row.Provided) (fresh : .claimed id ∉ w.history) :
    Sound { w with history := w.history ++ [.claimed id] } where
  last k := by simpa [rowsOf] using inv.last k
  chain k := by simpa [rowsOf] using inv.chain k
  first k first := by simpa [rowsOf] using inv.first k first
  bounded k := by simpa [rowsOf] using inv.bounded k
  cancelling id' there := inv.cancelling id' (by simpa using there)
  claimed id' there := by
    rcases List.mem_append.mp there with old | new
    · exact inv.claimed id' old
    · cases List.mem_singleton.mp new
      exact ⟨row, found, provided⟩
  once id' := by
    by_cases same : id' = id
    · subst same
      simp [List.count_eq_zero.mpr fresh]
    · have other : (Entry.claimed id == Entry.claimed id') = false := by simpa using Ne.symm same
      simpa [List.count_cons, other] using inv.once id'

end Sound

/-! ## The effects -/

section Effects

variable {w : World} {A : Type} {Inv : World → Prop}

theorem meets_quiet {e : Effect} {Q : Except String (Ans e) → World → Prop} (inv : Inv w)
    (noted : host.note e w = w) (same : ∀ reply, (host.perform e reply w).2 = w)
    (answered : ∀ reply, Q (.ok (host.perform e reply w).1) w)
    (thrown : ∀ error, Q (.error error) w) :
    host.Meets Inv Q (await e).run w := by
  have stays (applied : Option Reply) : host.unanswered e applied w = w := by
    cases applied with
    | none => exact noted
    | some reply =>
      dsimp only [Host.unanswered]
      rw [noted, same]
  refine .await (fun applied => (stays applied).symm ▸ inv) (fun reply => ?_)
    fun applied error => (stays applied).symm ▸ thrown error
  rw [noted, same]
  exact answered reply

theorem meets_write {id : String} {row : Row} {Q : Except String Unit → World → Prop} (inv : Inv w)
    (after : Inv (w.wrote (key id) row)) (done : Q (.ok ()) (w.wrote (key id) row))
    (thrown : ∀ error w', Inv w' → Q (.error error) w') : host.Meets Inv Q (put id row).run w := by
  refine .await (fun applied => ?_) (fun _ => done) fun applied error => ?_
  · cases applied with
    | none => exact inv
    | some => exact after
  · cases applied with
    | none => exact thrown error w inv
    | some => exact thrown error _ after

theorem meets_put {id : String} {row : Row} {Q : Except String Unit → World → Prop} (inv : Sound w)
    (writable : w.Writable (key id) row) (bounded : row.Bounded)
    (done : Sound (w.wrote (key id) row) → Q (.ok ()) (w.wrote (key id) row))
    (thrown : ∀ error w', Sound w' → Q (.error error) w') : host.Meets Sound Q (put id row).run w :=
  have after := inv.wrote writable bounded
  meets_write inv after (done after) thrown

theorem meets_read {rt : Runtime} {id : String} {Q : Except String (Option Row) → World → Prop}
    (inv : Inv w) (absent : w.rows[key id]? = none → Q (.ok none) w)
    (found : ∀ row, w.rows[key id]? = some row → row.binding.reservationId = id →
      Q (.ok (some row)) w)
    (thrown : ∀ error, Q (.error error) w) : host.Meets Inv Q (read rt id).run w := by
  refine .seq (meets_quiet inv rfl (fun _ => rfl) (fun _ => ?_) thrown)
  dsimp only [Host.Then, host]
  cases there : w.rows[key id]? with
  | none => exact .returns (absent there)
  | some row =>
    refine .seq (.ofExcept ?_)
    cases validateStored rt row with
    | error e => exact thrown e
    | ok =>
      by_cases same : row.binding.reservationId = id
      · simp only [Host.Then, same, ne_eq, not_true_eq_false, if_false]
        exact found row there same
      · simp only [Host.Then, same, ne_eq, not_false_eq_true, if_true]
        exact thrown _

theorem meets_ofExcept {B : Type} {x : Except String A} {f : A → Method B}
    {Q : Except String B → World → Prop} (thrown : ∀ error, Q (.error error) w)
    (goes : ∀ a, x = .ok a → host.Meets Inv Q (f a).run w) :
    host.Meets Inv Q (Call.ofExcept x >>= f : Method B).run w := by
  refine .seq (.ofExcept ?_)
  cases x with
  | error e => exact thrown e
  | ok a => exact goes a rfl

end Effects

/-! ## The methods -/

section Methods

variable {w : World} {rt : Runtime}

def Kept {A : Type} : Except String A → World → Prop := fun _ w => Sound w

def Staged (binding : ComputeBinding) : Except String Unit → World → Prop
  | .ok (), w => Sound w ∧ ∃ row, w.rows[key binding.reservationId]? = some row ∧
      row.binding = binding ∧ (row.phase = .active ∨ row.phase = .preparing)
  | .error _, w => Sound w

theorem running_bounded {row : Row} (running : row.phase ≠ .terminal) : row.Bounded := by
  intro settled
  rw [Row.status_of_phase rfl running] at settled
  exact absurd (congrArg Prod.fst settled) running

theorem stage_meets (inv : Sound w) (binding : ComputeBinding) (nowMs : Int) :
    host.Meets Sound (Staged binding) (stage rt binding nowMs).run w := by
  refine meets_ofExcept (fun _ => inv) fun payload _ => .check inv fun _ => .seq ?_
  refine meets_read inv (fun absent => ?_) (fun row found _ => ?_) fun _ => inv
  · refine meets_put inv ?_ (running_bounded nofun) (fun after => ?_) fun _ _ inv => inv
    · rw [World.Writable, absent]
    · exact ⟨after, _, OrdMap.get_insert_self _ _ _, rfl, .inr rfl⟩
  · refine .check inv fun same => ?_
    simp only [not_or, not_not] at same
    split
    next active => exact ⟨inv, row, found, same.1, .inl active⟩
    split
    · exact inv
    next preparing => exact ⟨inv, row, found, same.1, .inr (not_not.mp preparing)⟩

theorem reserveAndActivate_meets (inv : Sound w) (binding : ComputeBinding)
    {Q : Except String Unit → World → Prop} (done : Q (.ok ()) w)
    (thrown : ∀ error, Q (.error error) w) :
    host.Meets Sound Q (reserveAndActivate binding).run w := by
  refine .seq (meets_quiet inv rfl (fun _ => rfl) (fun reply => ?_) thrown)
  refine .check (thrown _) fun _ => ?_
  have ends (receipt : ComputeReceipt) : host.Meets Sound Q (ExceptT.run
      (if receipt.reservationId ≠ binding.reservationId ∨ receipt.state ≠ .active then
        throw "invalid compute activate receipt"
      else pure () : Method Unit)) w := by
    split
    · exact thrown _
    · exact done
  split
  · exact ends _
  · exact .seq (meets_quiet inv rfl (fun _ => rfl) (fun reply => ends _) thrown)

theorem prepare_meets (inv : Sound w) (binding : ComputeBinding) (nowMs : Int) :
    host.Meets Sound Kept (prepare rt binding nowMs).run w := by
  refine .seq ((stage_meets inv binding nowMs).mono fun answer w staged => ?_)
  cases answer with
  | error e => exact staged
  | ok =>
    obtain ⟨inv, row, there, rfl, phase⟩ := staged
    refine .seq (meets_read inv (fun _ => inv) (fun staged found _ => ?_) fun _ => inv)
    cases there.symm.trans found
    dsimp only [Host.Then]
    split
    · exact inv
    next inactive =>
      refine .seq (reserveAndActivate_meets inv _ ?_ fun _ => inv)
      have preparing := phase.resolve_left inactive
      refine meets_put inv ?_ (running_bounded nofun) id fun _ _ inv => inv
      rw [World.Writable, found]
      refine ⟨rfl, rfl, ?_⟩
      rw [Row.status_of_phase preparing nofun]
      exact .activated

def Claimed (id : String) : Except String Unit → World → Prop
  | .ok (), w => Sound w ∧ .claimed id ∉ w.history ∧
      ∃ row, w.rows[key id]? = some row ∧ row.Provided
  | .error _, w => Sound w

section

variable (inv : Sound w)
include inv

theorem claimProvider_meets (id workloadId : String) (nowMs : Int) :
    host.Meets Sound (Claimed id) (claimProvider rt id workloadId nowMs).run w := by
  refine .seq (meets_read inv (fun _ => inv) (fun row found _ => ?_) fun _ => inv)
  refine .check inv fun claimable => ?_
  simp only [not_or, not_not] at claimable
  have active := Row.status_of_phase claimable.1 nofun
  refine meets_ofExcept (fun _ => inv) fun payload _ => .check inv fun _ => ?_
  refine meets_put inv ?_ (running_bounded nofun) (fun after => ⟨after, ?_, ?_⟩) fun _ _ inv => inv
  · rw [World.Writable, found]
    refine ⟨rfl, rfl, ?_⟩
    rw [active]
    exact .dispatched
  · intro again
    have before : .claimed id ∈ w.history := by simpa [World.wrote] using again
    obtain ⟨row', found', provided⟩ := inv.claimed id before
    cases found.symm.trans found'
    rcases provided with h | h | h
    all_goals nomatch active.symm.trans h
  · exact ⟨_, OrdMap.get_insert_self _ _ _, .inl rfl⟩

theorem validateRuntimeDeadline_meets (id workloadId : String)
    (maximumWallMs deadlineMs nowMs : Int) : host.Meets Sound Kept
      (validateRuntimeDeadline rt id workloadId maximumWallMs deadlineMs nowMs).run w := by
  refine .seq (meets_read inv (fun _ => inv) (fun row found _ => ?_) fun _ => inv)
  refine .check inv fun _ => meets_ofExcept (fun _ => inv) fun payload _ => ?_
  dsimp only
  split
  · exact inv
  · exact inv

theorem cancel_meets {id : String} {row current : Row} {prior : Phase}
    (found : w.rows[key id]? = some current) (abandoning : current.phase = .abandoning)
    (binding : row.binding = current.binding) (deadline : row.deadlineMs = current.deadlineMs) :
    host.Meets Sound Kept (cancel rt id row prior).run w := by
  have status := Row.status_of_phase abandoning nofun
  have asked := inv.asks found (.inl status)
  have noted (applied : Option Reply) : host.unanswered (.cancel row.binding.token id) applied w =
      { w with history := w.history ++ [.cancelling id] } := by
    cases applied with
    | none => rfl
    | some => rfl
  refine .seq (.await (fun applied => (noted applied).symm ▸ asked) (fun reply => ?_)
    fun applied error => (noted applied).symm ▸ asked)
  refine meets_ofExcept (fun _ => asked) fun receipt _ => ?_
  refine meets_put asked ?_ (fun settled => ?_) (fun after => after) fun _ _ inv => inv
  · change World.Writable w _ _
    rw [World.Writable, found]
    refine ⟨binding, deadline, ?_⟩
    rw [status]
    exact .cancelled
  · nomatch congrArg Prod.snd settled

theorem abandonUnused_meets (id : String) : host.Meets Sound Kept (abandonUnused rt id).run w := by
  refine .seq (meets_read inv (fun _ => inv) (fun row found _ => ?_) fun _ => inv)
  -- the first write of an abandonment, from either of the phases
  have abandons (next : Next row.status (.abandoning, none)) : host.Meets Sound Kept (ExceptT.run
      (do
        put id { row with phase := .abandoning, priorPhase := some row.phase }
        cancel rt id row row.phase : Method Unit)) w := by
    refine .seq (meets_put inv ?_ (running_bounded nofun) (fun after => ?_) fun _ _ inv => inv)
    · rw [World.Writable, found]
      exact ⟨rfl, rfl, next⟩
    · exact cancel_meets after (OrdMap.get_insert_self _ _ _) rfl rfl rfl
  dsimp only [Host.Then]
  cases phase : row.phase with
  | dispatched => exact inv
  | settling => exact inv
  | terminal => exact inv
  | preparing =>
    rw [Row.status_of_phase phase nofun, phase] at abandons
    exact abandons .abandonedEarly
  | active =>
    rw [Row.status_of_phase phase nofun, phase] at abandons
    exact abandons .abandoned
  | abandoning =>
    dsimp only
    split
    · exact cancel_meets inv found phase rfl rfl
    · exact cancel_meets inv found phase rfl rfl
    · exact inv

theorem settle_meets {id : String} {row current : Row} {proven : TerminalReceipt}
    (found : w.rows[key id]? = some current) (settling : current.phase = .settling)
    (binding : row.binding = current.binding) (deadline : row.deadlineMs = current.deadlineMs)
    (within_ : bigInt proven.actualVcpuMs ≤ row.binding.allowance) :
    host.Meets Sound Kept (settle rt id row proven).run w := by
  refine .seq (meets_quiet inv rfl (fun _ => rfl) (fun reply => ?_) fun _ => inv)
  refine meets_ofExcept (fun _ => inv) fun receipt _ => .check inv fun _ => ?_
  refine meets_put inv ?_ (fun _ => ⟨_, rfl, within_⟩) (fun after => after) fun _ _ inv => inv
  rw [World.Writable, found]
  refine ⟨binding, deadline, ?_⟩
  rw [Row.status_of_phase settling nofun]
  exact .settled

theorem settleProven_meets (id : String) (receipt : Received) :
    host.Meets Sound Kept (settleProven rt id receipt).run w := by
  refine meets_ofExcept (fun _ => inv) fun proven _ => .seq ?_
  refine meets_read inv (fun _ => inv) (fun row found _ => ?_) fun _ => inv
  dsimp only [Host.Then]
  cases phase : row.phase with
  | preparing => exact inv
  | active => exact inv
  | abandoning => exact inv
  | terminal =>
    dsimp only
    split
    · exact inv
    · exact inv
  | dispatched =>
    refine .check inv fun bounded => .seq ?_
    refine meets_put inv ?_ (running_bounded nofun) (fun after => ?_) fun _ _ inv => inv
    · rw [World.Writable, found]
      refine ⟨rfl, rfl, ?_⟩
      rw [Row.status_of_phase phase nofun]
      exact .settling
    · exact settle_meets after (OrdMap.get_insert_self _ _ _) rfl rfl rfl (not_lt.mp bounded)
  | settling =>
    refine .check inv fun _ => .check inv fun bounded => ?_
    exact settle_meets inv found phase rfl rfl (not_lt.mp bounded)

theorem abandonQuietly_meets (id : String) :
    host.Meets Sound Kept (abandonQuietly rt id).run w := by
  have quiet : host.Meets Sound Kept (ExceptT.run
      (do abandonUnused rt id; return false : Method Bool)) w := by
    refine .seq ((abandonUnused_meets inv id).mono fun answer w inv => ?_)
    cases answer with
    | ok => exact inv
    | error => exact inv
  refine Host.Meets.bind (quiet.mono fun answer w inv => ?_)
  cases answer with
  | ok => exact inv
  | error => exact inv

theorem drainPage_meets (nowMs : Int) (d : Drained) (page : List (String × Row)) :
    host.Meets Sound Kept (drainPage rt nowMs d page).run w := by
  induction page generalizing w d with
  | nil => exact inv
  | cons entry rest ih =>
    unfold drainPage
    split
    · exact inv
    split
    · exact ih inv _
    split
    · exact ih inv _
    · exact ih inv _
    · exact ih inv _
    split
    · exact ih inv _
    refine .seq ((abandonQuietly_meets inv _).mono fun answer w inv => ?_)
    cases answer with
    | ok => exact ih inv _
    | error => exact inv

theorem drainUnused_meets (nowMs : Int) (cursor : Option String) :
    host.Meets Sound Kept (drainUnused rt nowMs cursor).run w := by
  refine .check inv fun _ => .seq ?_
  refine meets_quiet inv rfl (fun _ => rfl) (fun _ => .seq ?_) fun _ => inv
  refine (drainPage_meets inv nowMs {} _).mono fun answer w inv => ?_
  cases answer with
  | ok => exact inv
  | error => exact inv

end

def Ended (request : Request) : Except String Unit → World → Prop :=
  match request with
  | .claimProvider id _ _ => Claimed id
  | _ => Kept

/-- **Every method keeps to the life cycle.** -/
theorem method_meets (inv : Sound w) (request : Request) :
    host.Meets Sound (Ended request) (request.method rt).run w := by
  cases request with
  | stage binding nowMs =>
    refine (stage_meets inv binding nowMs).mono fun answer w staged => ?_
    cases answer with
    | ok => exact staged.1
    | error => exact staged
  | prepare binding nowMs => exact prepare_meets inv binding nowMs
  | claimProvider id workloadId nowMs => exact claimProvider_meets inv id workloadId nowMs
  | validateRuntimeDeadline id workloadId maximumWallMs deadlineMs nowMs =>
    exact validateRuntimeDeadline_meets inv id workloadId maximumWallMs deadlineMs nowMs
  | abandonUnused id => exact abandonUnused_meets inv id
  | settleProven id receipt => exact settleProven_meets inv id receipt
  | drainUnused nowMs cursor =>
    refine .seq ((drainUnused_meets inv nowMs cursor).mono fun answer w inv => ?_)
    cases answer with
    | ok => exact inv
    | error => exact inv

theorem Sound.step (inv : Sound w) (event : Event) : Sound (w.step rt event) := by
  obtain ⟨kept, returns⟩ := (method_meets inv event.request).exec inv event.fates
  dsimp only [World.step]
  generalize host.exec (event.request.method rt).run event.fates w = ended at kept returns
  obtain ⟨answer, w'⟩ := ended
  have unclaimed : Sound { w' with history := w'.history ++ [] } := by
    rw [List.append_nil]
    exact kept
  cases answer with
  | none => exact unclaimed
  | some answer =>
    cases answer with
    | error => exact unclaimed
    | ok =>
      cases about : event.request with
      | claimProvider id workloadId nowMs =>
        have claimed := returns _ rfl
        rw [about] at claimed
        obtain ⟨inv, fresh, row, found, provided⟩ := claimed
        exact inv.claims found provided fresh
      | _ => exact unclaimed

theorem run_sound (rt : Runtime) (events : List Event) : Sound (World.run rt events) := by
  suffices ∀ w, Sound w → Sound (events.foldl (World.step rt) w) from this {} .empty
  induction events with
  | nil => exact fun _ inv => inv
  | cons event rest ih => exact fun w inv => ih _ (inv.step event)

end Methods

structure LifeCycle (w : World) (id : String) : Prop where
  /-- The row that is stored is the last one that was written. -/
  last : w.rows[key id]? = (rowsOf w.history (key id)).getLast?
  first : ∀ row, (rowsOf w.history (key id)).head? = some row → row.phase = .preparing
  /-- Each row is a move from the one before, with the binding and the deadline kept. -/
  moves : (rowsOf w.history (key id)).IsChain Row.Moves
  once : w.history.count (.claimed id) ≤ 1
  /-- No reservation is both claimed and cancelled, in either order. -/
  apart : ¬(.claimed id ∈ w.history ∧ .cancelling id ∈ w.history)
  bounded : ∀ row, w.rows[key id]? = some row → row.phase = .terminal →
    row.terminalKind = some .settled →
    ∃ actual, row.actualVcpuMs = some actual ∧ bigInt actual ≤ row.binding.allowance

/-- **The life cycle of a compute obligation**, whatever is called, whatever fails and wherever a
call is cut. -/
theorem obligation_life_cycle (rt : Runtime) (events : List Event) (id : String) :
    LifeCycle (World.run rt events) id := by
  have inv := run_sound rt events
  refine ⟨inv.last _, inv.first _, inv.chain _, inv.once id, ?_,
    fun row found terminal settled => ?_⟩
  · rintro ⟨claimed, cancelling⟩
    obtain ⟨row, found, provided⟩ := inv.claimed id claimed
    obtain ⟨row', found', abandoned⟩ := inv.cancelling id cancelling
    cases found.symm.trans found'
    exact provided.not_abandoned abandoned
  · rw [inv.last] at found
    refine inv.bounded _ row (List.mem_of_getLast? found) ?_
    rw [Row.status, terminal, if_pos rfl, settled]

end CorelinkRunners.Compute
