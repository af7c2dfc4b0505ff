import CorelinkRunners.Kit.Run

/-!
# The introspection circuit breaker

Callers pass the breaker before they post and record how the round ended. Reading the clock and
taking the lock are two steps of a caller, so a caller may act on a clock value older than the
breaker's stamp. The log keeps what was granted and recorded, newest first.

A failure that is recorded on an open breaker with a value older than its stamp moves the stamp
back, and the next probe comes early.
-/

namespace CorelinkRunners.Breaker

open Kit

structure BreakerConfig where
  threshold : Nat
  cooldown : Nat

inductive State
  | closed (consecutive : Nat)
  | opened (openedAt : Nat)

inductive Gate
  | allow
  | probe
  | reject
  deriving DecidableEq

variable (cfg : BreakerConfig)

def onCall (now : Nat) : State → Gate × State
  | .closed consecutive => (.allow, .closed consecutive)
  | .opened openedAt =>
    if cfg.cooldown ≤ now - openedAt then (.probe, .opened now) else (.reject, .opened openedAt)

def onEndpointResponded : State := .closed 0

/-- The constructor raises a threshold of zero to one. -/
def onTransientFailure (now : Nat) : State → State
  | .closed consecutive =>
    if max cfg.threshold 1 ≤ consecutive + 1 then .opened now else .closed (consecutive + 1)
  | .opened _ => .opened now

/-! ## Callers -/

def introspectAttempts : Nat := 3

inductive Reply
  | status (code : Nat)
  | transportError

/-- Whether a reply is retried: any other is authoritative. -/
def Reply.isTransient : Reply → Bool
  | .status code => 500 ≤ code
  | .transportError => true

/-- Where a caller is in `run_introspect`. -/
inductive Phase
  | idle
  | calling (now : Nat)
  | posting (attempt : Nat)
  | responding
  | exhausted
  | recording (now : Nat)

inductive Entry
  | probe (now : Nat)
  | responded
  | failed
  deriving DecidableEq

structure System where
  state : State := .closed 0
  clock : Nat := 0
  callers : Nat → Phase := fun _ => .idle
  log : List Entry := []

inductive Event
  | tick (elapsed : Nat)
  | readClock (caller : Nat)
  | post (caller : Nat) (reply : Reply)
  | lock (caller : Nat)

def System.goto (s : System) (caller : Nat) (phase : Phase) : System :=
  { s with callers := fun i => if i = caller then phase else s.callers i }

def step (s : System) : Event → System
  | .tick elapsed => { s with clock := s.clock + elapsed }
  | .readClock i =>
    match s.callers i with
    | .idle => s.goto i (.calling s.clock)
    | .exhausted => s.goto i (.recording s.clock)
    | _ => s
  | .post i reply =>
    match s.callers i with
    | .posting attempt =>
      s.goto i <|
        if !reply.isTransient then .responding
        else if attempt + 1 < introspectAttempts then .posting (attempt + 1)
        else .exhausted
    | _ => s
  | .lock i =>
    match s.callers i with
    | .calling now =>
      let (gate, state) := onCall cfg now s.state
      { s.goto i (if gate = .reject then .idle else .posting 0) with
        state, log := if gate = .probe then .probe now :: s.log else s.log }
    | .responding =>
      { s.goto i .idle with state := onEndpointResponded, log := .responded :: s.log }
    | .recording now =>
      { s.goto i .idle with state := onTransientFailure cfg now s.state, log := .failed :: s.log }
    | _ => s

def run (events : List Event) : System := events.foldl (step cfg) {}

def since (log : List Entry) : List Entry := log.takeWhile (· ≠ .responded)

/-- A failure recorded on an open breaker is not older than the breaker's stamp. -/
def Fresh (s : System) (e : Event) : Prop :=
  ∀ i now openedAt, e = .lock i → s.callers i = .recording now → s.state = .opened openedAt →
    openedAt ≤ now

variable {cfg} {s : System} {e : Event}

theorem step_cases (P : State → List Entry → Prop) (same : P s.state s.log)
    (called : ∀ now openedAt, s.state = .opened openedAt → cfg.cooldown ≤ now - openedAt →
      P (.opened now) (.probe now :: s.log))
    (responded : ∀ i, e = .lock i → s.callers i = .responding → P (.closed 0) (.responded :: s.log))
    (failed : ∀ i now, e = .lock i → s.callers i = .recording now →
      P (onTransientFailure cfg now s.state) (.failed :: s.log)) :
    P (step cfg s e).state (step cfg s e).log := by
  cases e with
  | tick => exact same
  | readClock i =>
    simp only [step]
    split <;> exact same
  | post i reply =>
    simp only [step]
    split <;> exact same
  | lock i =>
    simp only [step]
    split
    next now _ =>
      cases state : s.state with
      | closed =>
        rw [state] at same
        exact same
      | opened openedAt =>
        rw [state] at same
        simp only [onCall]
        split
        next waited => exact called now openedAt state waited
        · exact same
    next phase => exact responded i rfl phase
    next now phase => exact failed i now rfl phase
    · exact same

/-! ## The counter -/

/-- A closed breaker counts the failures since the last response, and an open one has seen
enough. -/
def Counted (cfg : BreakerConfig) (log : List Entry) : State → Prop
  | .closed consecutive => consecutive = (since log).count .failed ∧ ∀ now, .probe now ∉ since log
  | .opened _ => max cfg.threshold 1 ≤ (since log).count .failed

theorem since_cons {entry : Entry} {log : List Entry} (silent : entry ≠ .responded) :
    since (entry :: log) = entry :: since log := by
  simp [since, silent]

theorem step_counted (counted : Counted cfg s.log s.state) :
    Counted cfg (step cfg s e).log (step cfg s e).state := by
  refine step_cases (fun state log => Counted cfg log state) counted ?_ ?_ ?_
  · intro now openedAt state _
    rw [state] at counted
    simpa [Counted, since_cons] using counted
  · intro _ _ _
    simp [Counted, since]
  · intro _ now _ _
    cases state : s.state with
    | closed consecutive =>
      rw [state] at counted
      obtain ⟨rfl, none⟩ := counted
      simp only [onTransientFailure]
      split
      next enough => simpa [Counted, since_cons] using enough
      · simpa [Counted, since_cons] using none
    | opened openedAt =>
      rw [state] at counted
      have grown : since (.failed :: s.log) = .failed :: since s.log := since_cons nofun
      rw [onTransientFailure, Counted, grown]
      exact counted.trans (List.count_le_count_cons ..)

/-! ## The probes -/

/-- Two probes with no response between them are a cooldown apart. -/
def Spaced (cfg : BreakerConfig) (log : List Entry) : Prop :=
  ∀ now older, (.probe now :: older) <:+ log → ∀ earlier, .probe earlier ∈ since older →
    cfg.cooldown ≤ now - earlier

/-- The stamp is not older than a probe since the last response. -/
def Paced (cfg : BreakerConfig) (log : List Entry) (state : State) : Prop :=
  Spaced cfg log ∧ ∀ openedAt, state = .opened openedAt → ∀ earlier, .probe earlier ∈ since log →
    cfg.cooldown = 0 ∨ earlier ≤ openedAt

theorem Spaced.cons {entry : Entry} {log : List Entry} (spaced : Spaced cfg log)
    (last : ∀ now, entry = .probe now → ∀ earlier, .probe earlier ∈ since log →
      cfg.cooldown ≤ now - earlier) : Spaced cfg (entry :: log) := by
  intro now older tail
  rcases List.suffix_cons_iff.mp tail with whole | tail
  · obtain ⟨rfl, rfl⟩ := List.cons.inj whole
    exact last now rfl
  · exact spaced now older tail

theorem step_paced (inv : Counted cfg s.log s.state ∧ Paced cfg s.log s.state) (fresh : Fresh s e) :
    Paced cfg (step cfg s e).log (step cfg s e).state := by
  obtain ⟨counted, spaced, stamped⟩ := inv
  refine step_cases (fun state log => Paced cfg log state) ⟨spaced, stamped⟩ ?_ ?_ ?_
  · intro now openedAt state waited
    have apart (earlier : Nat) (mem : .probe earlier ∈ since s.log) :=
      stamped openedAt state earlier mem
    refine ⟨spaced.cons fun _ same earlier mem => ?_, fun _ same earlier mem => ?_⟩
    · cases same
      have := apart earlier mem
      omega
    · cases same
      replace mem : earlier = now ∨ .probe earlier ∈ since s.log := by simpa [since_cons] using mem
      rcases mem with rfl | mem
      · exact .inr le_rfl
      · have := apart earlier mem
        omega
  · intro _ _ _
    exact ⟨spaced.cons nofun, nofun⟩
  · intro i now lock phase
    refine ⟨spaced.cons nofun, fun openedAt' after earlier mem => ?_⟩
    replace mem : .probe earlier ∈ since s.log := by simpa [since_cons] using mem
    cases state : s.state with
    | closed =>
      rw [state] at counted
      exact absurd mem (counted.2 earlier)
    | opened openedAt =>
      rw [state] at after
      cases after
      exact (stamped openedAt state earlier mem).imp_right
        (·.trans (fresh i now openedAt lock phase state))

/-- **The breaker.** Probes with no response between them are a cooldown apart in every run that
records no failure on an open breaker with a value older than its stamp. In every run the breaker
closes only on a response, and is open only after `threshold` failures since the last one. -/
theorem breaker_paced (cfg : BreakerConfig) (events : List Event) :
    (Along (step cfg) Fresh {} events → Spaced cfg (run cfg events).log) ∧
    (∀ e openedAt consecutive, (run cfg events).state = .opened openedAt →
      (step cfg (run cfg events) e).state = .closed consecutive →
        ∃ i, e = .lock i ∧ (run cfg events).callers i = .responding) ∧
    (∀ openedAt, (run cfg events).state = .opened openedAt →
      max cfg.threshold 1 ≤ (since (run cfg events).log).count .failed) := by
  have start : Counted cfg [] (.closed 0) := ⟨rfl, nofun⟩
  refine ⟨fun fresh => ?_, fun e openedAt consecutive before => ?_, fun openedAt state => ?_⟩
  · refine (fresh.invariant (fun s => Counted cfg s.log s.state ∧ Paced cfg s.log s.state)
      (fun inv fresh => ⟨step_counted inv.1, step_paced inv fresh⟩) ⟨start, ?_, nofun⟩).2.1
    exact fun _ _ tail => absurd tail (by simp)
  · refine step_cases (fun state _ => state = .closed consecutive → _) ?_ ?_ ?_ ?_
    · exact fun after => absurd (before ▸ after) nofun
    · exact fun _ _ _ _ => nofun
    · exact fun i lock phase _ => ⟨i, lock, phase⟩
    · exact fun _ _ _ _ after => absurd (before ▸ after) nofun
  · have all : Along (step cfg) (fun _ _ => True) {} events := .of_forall fun _ _ => trivial
    have counted := all.invariant (fun s => Counted cfg s.log s.state)
      (fun h _ => step_counted h) start
    rw [← run, state] at counted
    exact counted

def failure (i : Nat) : List Event :=
  [.readClock i, .lock i] ++ List.replicate 3 (.post i .transportError) ++ [.readClock i, .lock i]

/-- A failure opens the breaker, the probe at ten fails on the open breaker, and the next one comes
at twenty. -/
def twoProbes : List Event := failure 0 ++ [.tick 10] ++ failure 1 ++ [.tick 10] ++ failure 2

theorem breaker_paced_twoProbes :
    (run ⟨1, 10⟩ twoProbes).log = [.failed, .probe 20, .failed, .probe 10, .failed] ∧
      Spaced ⟨1, 10⟩ (run ⟨1, 10⟩ twoProbes).log := by
  refine ⟨by decide, (breaker_paced ⟨1, 10⟩ twoProbes).1 ?_⟩
  simp [twoProbes, failure, Along, Fresh, step, List.replicate, System.goto, onCall,
    onTransientFailure, Reply.isTransient, introspectAttempts]
  refine ⟨?_, ?_, ?_⟩ <;> rintro i now rfl there <;> simp at there <;> omega

/-- A failure read the clock at zero and is recorded after the probe at ten: the next probe comes at
eleven. -/
theorem stale_failure_probes_early : ¬∀ cfg events, Spaced cfg (run cfg events).log := by
  intro spaced
  let fail (i : Nat) : List Event := List.replicate 3 (.post i .transportError) ++ [.readClock i]
  let call (i : Nat) : List Event := [.readClock i, .lock i]
  have early :=
    spaced ⟨1, 10⟩ (call 0 ++ call 1 ++ fail 0 ++ fail 1 ++ [.lock 0, .tick 10] ++ call 2 ++
    [.lock 1, .tick 1] ++ call 3)
  exact absurd (early 11 _ ⟨[], rfl⟩ 10 (by decide)) (by decide)

end CorelinkRunners.Breaker
