import CorelinkRunners.Kit.Typestate
import CorelinkRunners.Monitor.Ingest

/-!
# What a quarantine stops

`ingest` looks for the quarantine record of a lane once, before everything else. The transaction
that commits an envelope does not name that record, so a call that has passed the look goes on to
commit after another call has quarantined the lane (`committed_after_quarantine`).

A quarantine is final where its record is written while no other call of the lane is in progress.
-/

namespace CorelinkRunners.Monitor.Ingest

open Kit

def laneOf (cfg : Config) (e : Envelope) : Option Data :=
  (exactRegistration e cfg.registrations).map laneKey

/-- A write that a commit of the lane makes: its cursor, or a new commit record. -/
def Advances (lane : Data) (w : Write Key Record) : Prop :=
  w.key = .source lane ∨ (∃ d, w.key = .ingest lane d) ∧ w.expectedVersion = none

def isQuarantine (w : Write Key Record) : Bool :=
  match w.key with
  | .quarantine _ => true
  | _ => false

/-- An effect that no lane advances by and that has nothing to do with a quarantine. -/
def Aside : Effect → Prop
  | .get (.quarantine _) => False
  | .transact writes => ∀ w ∈ writes, isQuarantine w = false ∧ ∀ lane, ¬Advances lane w
  | _ => True

/-! ## What a call writes -/

section Writes

variable {cfg : Config} {r : Registration} {e : Envelope} {w : Write Key Record}

theorem incidentWrites_aside {incident : Option (Stored Incident)} {decision : IncidentDecision}
    {queue : Option (Stored DeliveryQueue)} {planned : Plan}
    (mem : w ∈ incidentWrites r incident decision queue planned) :
    isQuarantine w = false ∧ ∀ lane, ¬Advances lane w := by
  simp only [incidentWrites, List.mem_append, Option.mem_toList, Option.map_eq_some_iff,
    List.mem_map] at mem
  rcases mem with (⟨next, -, rfl⟩ | queued) | ⟨delivery, -, rfl⟩
  · exact ⟨rfl, fun lane => by simp [Advances]⟩
  · split at queued
    · rw [List.mem_singleton.mp queued]
      exact ⟨rfl, fun lane => by simp [Advances]⟩
    · nomatch queued
  · exact ⟨rfl, fun lane => by simp [Advances]⟩

variable {lane : Data}

theorem aside_attach {d : Data} {version : Nat} {x : CommittedIngest} :
    Aside (.transact [⟨.ingest lane d, some version, x⟩]) := by
  intro w mem
  rw [List.mem_singleton.mp mem]
  exact ⟨rfl, fun l => by simp [Advances]⟩

theorem aside_pending {version : Option Nat} {m : Marker} :
    Aside (.transact [⟨.pending lane, version, m⟩]) := by
  intro w mem
  rw [List.mem_singleton.mp mem]
  exact ⟨rfl, fun l => by simp [Advances]⟩

/-- Nothing of the call has to do with a quarantine, and no lane advances by it. -/
def Harmless {A : Type} (m : Method A) : Prop := Every Aside (Every.Returning fun _ => True) m.run

variable {reason : String}

theorem refusalWrites_every {now : Nat} :
    Every Aside (Every.Returning fun writes => Aside (.transact writes))
      (refusalWrites cfg e r reason now).run := by
  unfold refusalWrites
  refine .await trivial fun incident => .checked fun decision _ => ?_
  refine .await trivial fun queue => .checked fun planned _ => .returns ?_
  exact fun w mem => incidentWrites_aside mem

variable {signer : PublicSigningIdentity}

theorem createAck_every {fields : AckFields} : Harmless (createAck fields signer) := by
  unfold createAck
  refine .guard ?_
  exact .await trivial fun signature => .guard (.returns trivial)

variable {ack : AckToken}

theorem createHistoricalTerminal_every {verify : Verifier} :
    Harmless (createHistoricalTerminal verify ack signer) := by
  unfold createHistoricalTerminal
  refine .guard ?_
  exact .await trivial fun signature => .guard (.returns trivial)

theorem terminalFor_every {fresh : Nat} : Harmless (terminalFor cfg e ack signer fresh) := by
  unfold terminalFor
  split
  · exact .map createHistoricalTerminal_every
  · exact .returns trivial

theorem committed_every : Harmless (committed e r) := by
  unfold committed
  refine .await trivial fun stored => ?_
  cases stored with
  | none => exact .returns trivial
  | some stored =>
    dsimp only
    split
    · exact .returns trivial
    refine .await trivial fun _ => ?_
    split
    · exact .await trivial fun _ => .returns trivial
    refine .await trivial fun receipt => .await trivial fun _ => ?_
    refine .await aside_attach fun outcome => ?_
    cases outcome with
    | committed => exact .returns trivial
    | conflict => exact .throws

theorem acknowledge_every {old : CommittedIngest} : Harmless (acknowledge cfg old) := by
  unfold acknowledge
  refine .await trivial fun now => .await trivial fun signer => ?_
  dsimp only
  split
  · exact .returns trivial
  refine .await trivial fun current => ?_
  split <;> exact .returns trivial

theorem attachResult_every {record : CommittedIngest} : Harmless (attachResult e r record) := by
  unfold attachResult
  refine .await trivial fun receipt => .await trivial fun _ => ?_
  refine .await trivial fun stored => ?_
  cases stored with
  | none => exact .returns trivial
  | some final =>
    refine .await aside_attach fun outcome => ?_
    cases outcome <;> exact .returns trivial

theorem recordSignal_every : Harmless (recordSignal cfg e r reason) := by
  unfold recordSignal
  refine .await trivial fun now => ?_
  split
  · exact .returns trivial
  refine .seq _ refusalWrites_every fun writes aside => ?_
  split
  · exact .returns trivial
  · exact .await aside fun _ => .returns trivial

end Writes

/-! ## The discipline -/

/-- Where a call is: before its look at the quarantine record, after it, or after its own
quarantine. -/
inductive Stage
  | fresh
  | passed
  | stopped

/-- A call advances its own lane, after the look. It may quarantine its own lane at any time. -/
def fencing (cfg : Config) :
    Discipline Effect (fun e => Except Failure (Ans e)) Envelope Reply Stage where
  begins _ := .fresh
  allows call g
    | .transact writes =>
      (∀ w ∈ writes, ∀ lane, Advances lane w → laneOf cfg call = some lane ∧ g = .passed) ∧
        ∀ w ∈ writes, ∀ lane, w.key = .quarantine lane → laneOf cfg call = some lane
    | .get (.quarantine lane) => laneOf cfg call = some lane
    | _ => True
  possible _ _ _ _ := True
  next _ g
    | .get (.quarantine _), .ok none => .passed
    | .transact writes, _ => if writes.any isQuarantine then .stopped else g
    | _, _ => g
  ends _ _ _ := True
  left _ g _ := g

section Programs

variable {cfg : Config} {e call : Envelope} {r : Registration} {g : Stage} {f : Effect}

theorem allows_of_aside (aside : Aside f) : (fencing cfg).allows call g f := by
  cases f with
  | transact writes =>
    refine ⟨fun w mem lane advances => absurd advances ((aside w mem).2 lane), ?_⟩
    exact fun w mem lane same => by simpa [isQuarantine, same] using (aside w mem).1
  | get k =>
    cases k with
    | quarantine lane => exact absurd aside id
    | _ => trivial
  | _ => trivial

theorem next_of_aside (x : Except Failure (Ans f)) (aside : Aside f) :
    (fencing cfg).next call g f x = g := by
  cases f with
  | transact writes =>
    refine if_neg fun quarantines => ?_
    obtain ⟨w, mem, is⟩ := List.any_eq_true.mp quarantines
    rw [(aside w mem).1] at is
    nomatch is
  | get k =>
    cases k with
    | quarantine lane => exact absurd aside id
    | _ => rfl
  | _ => rfl

variable {A : Type} {post : A → Prop} {m : Method A}

theorem obeys_every (harmless : Every Aside (Every.Returning post) m.run) :
    Obeys (fencing cfg) call (fun x g' => Every.Returning post x ∧ g' = g) m.run g :=
  .every harmless (fun _ aside => allows_of_aside aside) fun _ x aside => next_of_aside x aside

abbrev Ends (cfg : Config) (call : Envelope) {A : Type} (m : Method A) (g : Stage) : Prop :=
  Obeys (fencing cfg) call (fun _ _ => True) m.run g

theorem Ends.harmless (harmless : Harmless m) : Ends cfg call m g :=
  (obeys_every harmless).mono fun _ _ _ => trivial

variable {B : Type}

theorem Ends.seq {f : A → Method B} (first : Every Aside (Every.Returning post) m.run)
    (rest : ∀ a, post a → Ends cfg call (f a) g) : Ends cfg call (m >>= f) g := by
  refine Obeys.seq (fun a g' => post a ∧ g' = g) ?_ fun a g' => ?_
  · refine (obeys_every first).mono fun x g' => ?_
    rintro ⟨returns, rfl⟩
    exact ⟨fun a same => ⟨returns a same, rfl⟩, fun _ _ => trivial⟩
  · rintro ⟨holds, rfl⟩
    exact rest a holds

theorem Ends.await {k : Ans f → Method B} (aside : Aside f) (rest : ∀ a, Ends cfg call (k a) g) :
    Ends cfg call (await f >>= k) g := by
  refine ⟨allows_of_aside aside, fun x _ => ?_⟩
  rw [next_of_aside x aside]
  cases x with
  | ok a => exact rest a
  | error error => exact trivial

theorem Ends.checked {x : Except String A} {f : A → Method B}
    (rest : ∀ a, x = .ok a → Ends cfg call (f a) g) : Ends cfg call (decided x >>= f) g := by
  cases x with
  | ok a => exact rest a rfl
  | error error => exact trivial

theorem Ends.last {f : A → Method B} (first : Ends cfg call m g)
    (rest : ∀ a g', Ends cfg call (f a) g') : Ends cfg call (m >>= f) g :=
  Obeys.seq (fun _ _ => True) (first.mono fun _ _ _ => ⟨fun _ _ => trivial, fun _ _ => trivial⟩)
    fun a g' _ => rest a g'

variable {writes : List (Write Key Record)}

theorem Ends.transact {k : Outcome → Method B}
    (allowed : (fencing cfg).allows call g (.transact writes))
    (rest : ∀ outcome g', Ends cfg call (k outcome) g') :
    Ends cfg call (Ingest.transact writes >>= k) g := by
  refine ⟨allowed, fun x _ => ?_⟩
  cases x with
  | ok outcome => exact rest outcome _
  | error error => exact trivial

theorem Ends.catches {handler : Failure → Method A} (body : Ends cfg call m g)
    (handled : ∀ failure g', Ends cfg call (handler failure) g') :
    Ends cfg call (tryCatch m handler) g :=
  Obeys.catches (fun _ _ => True) (body.mono fun _ _ _ => ⟨fun _ _ => trivial, fun _ _ => trivial⟩)
    fun failure g' _ => handled failure g'

theorem Ends.pure {a : A} : Ends cfg call (Pure.pure a : Method A) g := trivial

section

variable (lane : laneOf cfg call = some (laneKey r))
include lane

theorem allows_quarantine {value : Quarantine} (aside : Aside (.transact writes)) :
    (fencing cfg).allows call g (.transact (⟨.quarantine (laneKey r), none, value⟩ :: writes)) := by
  have others : (fencing cfg).allows call g (.transact writes) := allows_of_aside aside
  obtain ⟨advances, quarantines⟩ := others
  constructor
  · intro w mem l moves
    rcases List.mem_cons.mp mem with rfl | later
    · simp [Advances] at moves
    · exact advances w later l moves
  · intro w mem l same
    rcases List.mem_cons.mp mem with rfl | later
    · cases same
      exact lane
    · exact quarantines w later l same

variable {source : Option (Stored Cursor)}

theorem allows_commit {marker : Option (Stored Marker)}
    {next : Cursor} {record : CommittedIngest} (aside : Aside (.transact writes)) :
    (fencing cfg).allows call .passed
      (.transact (commitWrites r e source marker next record ++ writes)) := by
  have others : (fencing cfg).allows call .passed (.transact writes) := allows_of_aside aside
  obtain ⟨advances, quarantines⟩ := others
  constructor
  · intro w mem l moves
    rcases List.mem_append.mp mem with mine | later
    · simp only [commitWrites, List.mem_cons, List.not_mem_nil, or_false] at mine
      rcases mine with rfl | rfl | rfl <;>
        simp_all [Advances, ingestKey]
    · exact advances w later l moves
  · intro w mem l same
    rcases List.mem_append.mp mem with mine | later
    · simp only [commitWrites, List.mem_cons, List.not_mem_nil, or_false] at mine
      rcases mine with rfl | rfl | rfl <;> simp [ingestKey] at same
    · exact quarantines w later l same

variable {reason : String}

theorem recordQuarantine_ends : Ends cfg call (recordQuarantine cfg e r reason) g := by
  unfold recordQuarantine
  refine .await trivial fun now => ?_
  split
  · exact .pure
  refine .seq refusalWrites_every fun writes aside => ?_
  refine .last ?_ fun _ _ => .pure
  refine .catches ?_ fun _ _ => .pure
  exact .transact (allows_quarantine lane aside) fun _ _ => .pure

theorem quarantineLane_ends : Ends cfg call (quarantineLane e r reason) g := by
  unfold quarantineLane
  have alone : Aside (.transact []) := fun _ mem => nomatch mem
  refine .transact (allows_quarantine lane alone) fun outcome _ => ?_
  cases outcome <;> exact .pure

variable {intent : AuditReceipt}

theorem commit_ends {fresh : Nat} {decision : Option LifecycleDecision} :
    Ends cfg call (commit cfg e r source intent fresh decision) .passed := by
  unfold commit
  refine .await trivial fun signer => .await trivial fun current => ?_
  split
  · exact .pure
  refine .seq createAck_every fun ack _ => ?_
  refine .seq terminalFor_every fun terminal _ => ?_
  refine .await trivial fun incident => .checked fun incidentDecision _ => ?_
  refine .await trivial fun queue => .checked fun planned _ => ?_
  refine .await trivial fun marker => ?_
  refine .transact (allows_commit lane fun w mem => incidentWrites_aside mem) fun outcome _ => ?_
  cases outcome with
  | conflict => exact .pure
  | committed => exact .harmless attachResult_every

theorem classify_ends : Ends cfg call (classify cfg e r source intent) .passed := by
  unfold classify
  refine .await trivial fun fresh => ?_
  split
  · exact .pure
  split
  · exact commit_ends lane
  split
  · exact commit_ends lane
  refine .last (recordQuarantine_ends lane) fun done _ => ?_
  split <;> exact .pure

theorem writeIntent_ends {version : Nat} :
    Ends cfg call (writeIntent cfg e r source version) .passed := by
  unfold writeIntent
  refine .await trivial fun receipt => .await trivial fun _ => ?_
  refine .await aside_pending fun outcome => ?_
  cases outcome with
  | conflict => exact .pure
  | committed => exact classify_ends lane

theorem reserve_ends : Ends cfg call (reserve cfg e r source) .passed := by
  unfold reserve
  refine .await trivial fun stored => ?_
  split
  next version active =>
    split
    · exact .pure
    split
    · exact classify_ends lane
    · exact writeIntent_ends lane
  · refine .await aside_pending fun outcome => ?_
    cases outcome with
    | conflict => exact .pure
    | committed =>
      refine .await trivial fun mine => ?_
      cases mine with
      | none => exact trivial
      | some mine => exact writeIntent_ends lane

theorem ingestNew_ends : Ends cfg call (ingestNew cfg e r) .passed := by
  unfold ingestNew
  refine .await trivial fun now => ?_
  split
  · exact .pure
  refine .await trivial fun source => ?_
  split
  · split
    · refine .seq recordSignal_every fun done _ => ?_
      split <;> exact .pure
    · exact .pure
  · split
    · exact quarantineLane_ends lane
    split
    · exact quarantineLane_ends lane
    · exact reserve_ends lane

theorem ingestAuthentic_ends : Ends cfg call (ingestAuthentic cfg e r) .fresh := by
  refine ⟨lane, fun x _ => ?_⟩
  cases x with
  | error error => exact trivial
  | ok found =>
    cases found with
    | some record => exact trivial
    | none =>
      refine Ends.seq committed_every fun old _ => ?_
      cases old with
      | some old => exact .harmless acknowledge_every
      | none => exact ingestNew_ends lane

end

theorem ingest_ends : Ends cfg e (ingest cfg e) .fresh := by
  unfold ingest
  split
  · exact .pure
  split
  · exact .pure
  next r registered =>
    have lane : laneOf cfg e = some (laneKey r) := congrArg (Option.map laneKey) registered
    have load_every : Harmless
        (tryCatch (some <$> await (.load r)) fun _ => Pure.pure none : Method (Option String)) :=
      .catches (.map (.effect trivial)) fun _ => .returns trivial
    refine .seq load_every fun secret _ => ?_
    cases secret with
    | none => exact .pure
    | some secret =>
      dsimp only
      split
      · refine .last (recordQuarantine_ends lane) fun done _ => ?_
        split <;> exact .pure
      · exact .catches (ingestAuthentic_ends lane) fun _ _ => .pure

end Programs

/-! ## The invariant -/

def Sole (cfg : Config) (t : Tasks Effect (fun e => Except Failure (Ans e)) Envelope Reply World)
    (lane : Data) : Prop :=
  ∀ i j first second, t.tasks i = some first → t.tasks j = some second →
    laneOf cfg first.call = some lane → laneOf cfg second.call = some lane → i = j

/-- A quarantine record is written while no other call of its lane is in progress. -/
def soleQuarantine (cfg : Config) :
    Terms Effect (fun e => Except Failure (Ans e)) Outside Envelope Reply World where
  starts _ := True
  drops _ := True
  performs t _ e _ := ∀ writes, e = .transact writes →
    ∀ w ∈ writes, ∀ lane, w.key = .quarantine lane → Sole cfg t lane

/-- **No call of a quarantined lane is past its look.** And since a lane was quarantined in a world,
it has not advanced. -/
structure Fenced (cfg : Config) (since : Option (Data × World)) (s : World)
    (gs : Stages Envelope Stage) : Prop where
  none_passed : ∀ lane, s.store.held (.quarantine lane) ≠ [] →
    ∀ i call, gs i = some (call, .passed) → laneOf cfg call ≠ some lane
  unmoved : ∀ lane w, since = some (lane, w) → s.store.held (.quarantine lane) ≠ [] ∧
    s.commits lane = w.commits lane ∧ s.store.held (.source lane) = w.store.held (.source lane)

section Invariant

variable {cfg : Config} {since : Option (Data × World)} {s t : World} {gs : Stages Envelope Stage}
  {i : Nat}

theorem Fenced.move (h : Fenced cfg since s gs) {stage : Option (Envelope × Stage)}
    (store : t.store = s.store) (log : t.log = s.log)
    (here : ∀ call, stage = some (call, .passed) → gs i = some (call, .passed) ∨
      ∃ lane, laneOf cfg call = some lane ∧ s.store.held (.quarantine lane) = []) :
    Fenced cfg since t (gs.set i stage) := by
  constructor
  · intro lane quarantined j call at_j
    rw [store] at quarantined
    by_cases same : j = i
    · subst same
      rw [Stages.set_self] at at_j
      rcases here call at_j with before | ⟨l, own, clear⟩
      · exact h.none_passed lane quarantined j call before
      · intro other
        have : l = lane := Option.some.inj (own.symm.trans other)
        exact quarantined (this ▸ clear)
    · rw [Stages.set_other gs same] at at_j
      exact h.none_passed lane quarantined j call at_j
  · intro lane w is
    obtain ⟨quarantined, commits, source⟩ := h.unmoved lane w is
    rw [store]
    exact ⟨quarantined, by rw [World.commits, log]; exact commits, source⟩

variable {writes : List (Write Key Record)}

theorem commitOf_eq_none {lane : Data} (still : ∀ w ∈ writes, ¬Advances lane w) :
    commitOf lane writes = none := by
  unfold commitOf
  split
  next l d record rest =>
    refine if_neg fun same => still _ List.mem_cons_self ?_
    exact .inr ⟨⟨d, by rw [same]⟩, rfl⟩
  · rfl

variable {call : Envelope} {g : Stage}

theorem Fenced.commit (h : Fenced cfg since s gs) (at_i : gs i = some (call, g))
    (allowed : (fencing cfg).allows call g (.transact writes))
    (sole : ∀ w ∈ writes, ∀ lane, w.key = .quarantine lane →
      ∀ j other stage, gs j = some (other, stage) → laneOf cfg other = some lane → j = i)
    (committed : s.store.Committed writes t.store) (log : t.log = s.log ++ [writes]) :
    Fenced cfg since t
      (gs.set i (some (call, if writes.any isQuarantine then .stopped else g))) := by
  obtain ⟨advances, quarantines⟩ := allowed
  constructor
  · intro lane quarantined j other at_j own
    by_cases now : ∃ w ∈ writes, w.key = .quarantine lane
    · -- the call that writes the record is the only one of the lane, and stops with it
      obtain ⟨w, mem, same⟩ := now
      have stops : writes.any isQuarantine = true :=
        List.any_eq_true.mpr ⟨w, mem, by simp [isQuarantine, same]⟩
      rw [if_pos stops] at at_j
      by_cases here : j = i
      · subst here
        rw [Stages.set_self] at at_j
        cases at_j
      · rw [Stages.set_other gs here] at at_j
        exact here (sole w mem lane same j other .passed at_j own)
    · have before : s.store.held (.quarantine lane) ≠ [] := by
        rw [← committed.others _ fun w mem same => now ⟨w, mem, same⟩]
        exact quarantined
      by_cases here : j = i
      · subst here
        rw [Stages.set_self] at at_j
        split at at_j
        · cases at_j
        cases at_j
        exact h.none_passed lane before j call at_i own
      · rw [Stages.set_other gs here] at at_j
        exact h.none_passed lane before j other at_j own
  · intro lane w is
    obtain ⟨quarantined, commits, source⟩ := h.unmoved lane w is
    have still : ∀ v ∈ writes, ¬Advances lane v := by
      intro v mem moves
      obtain ⟨own, passed⟩ := advances v mem lane moves
      exact h.none_passed lane quarantined i call (passed ▸ at_i) own
    refine ⟨?_, ?_, ?_⟩
    · exact fun empty => quarantined (List.prefix_nil.mp (empty ▸ committed.extends_ _))
    · rw [World.commits, log, List.filterMap_append, ← commits]
      simp [commitOf_eq_none still, World.commits]
    · rw [committed.others _ fun v mem same => still v mem (.inl same)]
      exact source

theorem Fenced.reads (h : Fenced cfg since s gs) {e : Effect} {env : Outside}
    (at_i : gs i = some (call, g)) (allowed : (fencing cfg).allows call g e)
    (store : (perform e env s).2.store = s.store) (log : (perform e env s).2.log = s.log) :
    Fenced cfg since (perform e env s).2
      (gs.set i (some (call, (fencing cfg).next call g e (perform e env s).1))) := by
  refine h.move store log fun other is => ?_
  obtain ⟨rfl, passed⟩ : call = other ∧ (fencing cfg).next call g e (perform e env s).1 =
    .passed := by
    simpa using is
  have stays (same : g = .passed) : gs i = some (call, .passed) := same ▸ at_i
  cases e with
  | get k =>
    cases k with
    | quarantine lane =>
      -- the look: it passes only where there is no record
      cases told : (perform (.get (.quarantine lane)) env s).1 with
      | error failure =>
        rw [told] at passed
        exact .inl (stays passed)
      | ok found =>
        cases found with
        | some record =>
          rw [told] at passed
          exact .inl (stays passed)
        | none => exact .inr ⟨lane, allowed, Versioned.get_eq_none.mp (perform_get told).symm⟩
    | _ => exact .inl (stays passed)
  | transact writes =>
    change (if writes.any isQuarantine then Stage.stopped else g) = .passed at passed
    split at passed
    · nomatch passed
    · exact .inl (stays passed)
  | _ => exact .inl (stays passed)

end Invariant

theorem fencing_sound (cfg : Config) (since : Option (Data × World)) :
    (fencing cfg).Sound (machine cfg) (soleQuarantine cfg) (Fenced cfg since) where
  enter {s s' gs i call} h _ _ enters := by
    cases enters
    exact h.move rfl rfl fun other is => by cases is
  perform {t gs i call g e env} h agrees at_i allowed performs := by
    refine ⟨trivial, ?_⟩
    rcases perform_cases e env t.shared with ⟨store, log⟩ | ⟨writes, rfl, committed, log⟩
    · exact h.reads at_i allowed store log
    · refine h.commit at_i allowed (fun w mem lane same j other stage at_j own => ?_) committed log
      have there (k : Nat) (c : Envelope) (g' : Stage) (at_k : gs k = some (c, g')) :
          ∃ task, t.tasks k = some task ∧ task.call = c := by
        cases task : t.tasks k with
        | none => nomatch (agrees.idle k task).symm.trans at_k
        | some found =>
          obtain ⟨_, is, -⟩ := agrees.each k found task
          exact ⟨found, rfl, congrArg Prod.fst (Option.some.inj (is.symm.trans at_k))⟩
      obtain ⟨first, at_first, rfl⟩ := there j other stage at_j
      obtain ⟨second, at_second, rfl⟩ := there i call g at_i
      exact performs writes rfl w mem lane same j i first second at_first at_second own
        (allowed.2 w mem lane same)
  finish {s gs i call a g} h _ _ := by
    have same : ((machine cfg).leave call a s).store = s.store ∧
        ((machine cfg).leave call a s).log = s.log := by
      cases a with
      | none => exact ⟨rfl, rfl⟩
      | some x => cases x <;> exact ⟨rfl, rfl⟩
    exact h.move same.1 same.2 fun other is => nomatch is
  drop {s gs i call g e} h at_i _ _ _ _ := by
    refine ⟨h.move rfl rfl fun other is => (nomatch is), h.move rfl rfl fun other is => ?_⟩
    exact .inl (is ▸ at_i)

theorem fencing_covers (cfg : Config) : (fencing cfg).Covers (machine cfg)
    (soleQuarantine cfg) where
  prog _ _ := Obeys.map (ingest_ends.mono fun _ _ _ => trivial)
  remnant _ _ _ _ _ allowed _ := ⟨allowed, fun _ _ => trivial⟩

/-- **A quarantine is final** where its record is written while no other call of the lane is in
progress: from then on no envelope of the lane is committed, and its cursor does not change. -/
theorem quarantine_final (cfg : Config) (before after : List Event) (lane : Data)
    (along : Along (Tasks.step (machine cfg)) (Tasks.Meets (soleQuarantine cfg)) (Tasks.initial {})
      (before ++ after))
    (quarantined : ((World.run cfg before).store.get (.quarantine lane)).isSome = true) :
    (World.run cfg (before ++ after)).commits lane = (World.run cfg before).commits lane ∧
      (World.run cfg (before ++ after)).store.get (.source lane) =
        (World.run cfg before).store.get (.source lane) := by
  obtain ⟨first, second⟩ := Along.append_iff.mp along
  have held : (World.run cfg before).store.held (.quarantine lane) ≠ [] := by
    intro empty
    rw [Versioned.get_eq_none.mpr empty] at quarantined
    nomatch quarantined
  have start : Fenced cfg none {} fun _ => none :=
    ⟨fun _ _ _ _ h => (nomatch h), fun _ _ h => nomatch h⟩
  obtain ⟨gs, fenced, agrees⟩ :=
    Tasks.Staged.run (fencing_sound cfg none) (fencing_covers cfg) first (.initial start)
  -- from here on, with the world of this moment
  have now : Fenced cfg (some (lane, World.run cfg before)) (World.run cfg before) gs := by
    refine ⟨fenced.none_passed, fun l w is => ?_⟩
    cases is
    exact ⟨held, rfl, rfl⟩
  obtain ⟨_, after_, -⟩ :=
    Tasks.Staged.run (fencing_sound cfg _) (fencing_covers cfg) second ⟨gs, now, agrees⟩
  obtain ⟨-, commits, source⟩ := after_.unmoved lane _ rfl
  unfold World.run
  rw [List.foldl_append]
  exact ⟨commits, Versioned.get_congr source⟩

/-! ## A quarantine that comes too late -/

def tickLane : Registration where
  source := "canary"
  service := "tick"
  application := "runners"
  keyId := "key-1"
  credentialEpoch := "epoch-1"
  allowedKinds := [.canaryTick]
  intervalMs := some 300000
  sourceVersion := "v1"
  authoritySourceId := none
  enabled := true

/-- A deployment with one lane, and a code that any secret gives. -/
def tickConfig : Config where
  registrations := [tickLane]
  monitorTupleDigest := .hash (.text "tuple")
  destination := "pager"
  hmac _ _ := "00"
  verify _ _ _ := true

def tick (seq : Nat) : Envelope where
  kind := .canaryTick
  source := "canary"
  service := "tick"
  application := "runners"
  eventId := "tick-" ++ Nat.repr seq
  producerSeq := seq
  occurredAt := 1000
  scheduledFor := 1000
  keyId := "key-1"
  credentialEpoch := "epoch-1"
  payloadDigest :=
    .hash (.list [.text "canary-tick", .number seq, .number 1000, .number 1000, .text "1"])
  monitorRearmTupleDigest := .hash (.text "tuple")
  payload := none
  signature := "00"

def tickSigner : PublicSigningIdentity := ⟨"ack-1", "epoch-1", "pem", .ingestAck⟩

def tickSecret : Outside := .secret "0123456789abcdef0123456789abcdef"

/-- What a call for the tick is answered up to its commit. -/
def upToCommit (seq : Nat) : List Outside :=
  [tickSecret, .done, .done, .time 2000, .done, .done, .done, .done,
    .receipt ⟨intentId (laneKey tickLane) (tick seq), .hash (.text "root")⟩, .done, .done,
    .time 2000, .signer tickSigner, .current true, .signature "sig", .done, .done, .done]

def fromCommit (seq : Nat) : List Outside :=
  [.done, .receipt ⟨resultId (laneKey tickLane) (tick seq), .hash (.text "root")⟩, .done, .done,
    .done, .done]

def called (slot : Nat) (e : Envelope) (answers : List Outside) : List Event :=
  .start slot e :: answers.map (.step slot)

/-- The first tick is committed and acknowledged. The second one has got to its commit when one out
of sequence has the lane quarantined. -/
def untilQuarantine : List Event :=
  called 0 (tick 1) (upToCommit 1 ++ fromCommit 1) ++ called 1 (tick 2) (upToCommit 2) ++
    called 2 (tick 4) [tickSecret, .done, .done, .time 2000, .done, .done]

/-- **A commit after a quarantine.** -/
theorem committed_after_quarantine :
    ((World.run tickConfig untilQuarantine).store.get
      (.quarantine (laneKey tickLane))).isSome = true ∧
      ((World.run tickConfig untilQuarantine).commits (laneKey tickLane)).map
        (·.envelope.producerSeq) = [1] ∧
      ((World.run tickConfig (untilQuarantine ++ [.step 1 .done])).commits (laneKey tickLane)).map
        (·.envelope.producerSeq) = [1, 2] ∧
      ((World.run tickConfig (untilQuarantine ++ [.step 1 .done])).store.get
        (.source (laneKey tickLane))).map (·.value.lastSequence) = some 2 := by
  decide +kernel

theorem meets_of_one_slot {cfg : Config} {i : Nat} {events : List Event}
    (one : ∀ event ∈ events, event.slot = i) :
    Along (Tasks.step (machine cfg)) (Tasks.Meets (soleQuarantine cfg))
      (Tasks.initial {}) events := by
  refine (Tasks.along_alone one).mono fun s event alone => ?_
  have sole (lane : Data) : Sole cfg s lane := by
    have only (j : Nat) (task) (at_j : s.tasks j = some task) : j = i := by
      by_contra apart
      nomatch (alone j apart).symm.trans at_j
    intro j k first second at_j at_k _ _
    exact (only j first at_j).trans (only k second at_k).symm
  cases event with
  | start _ _ => trivial
  | drop _ _ => exact fun _ _ => trivial
  | step _ _ => exact fun _ _ _ _ _ _ lane _ => sole lane

/-- A tick that is not authentic has its lane quarantined; the next one is not committed. -/
theorem quarantine_final_forged_tick :
    ((World.run tickConfig (called 0 { tick 1 with signature := "11" }
        [tickSecret, .time 2000, .done, .done, .done, .done])).store.get
      (.quarantine (laneKey tickLane))).isSome = true ∧
    (World.run tickConfig (called 0 { tick 1 with signature := "11" }
        [tickSecret, .time 2000, .done, .done, .done, .done] ++
      called 0 (tick 1) (upToCommit 1 ++ fromCommit 1))).commits (laneKey tickLane) = [] := by
  have quarantined : ((World.run tickConfig (called 0 { tick 1 with signature := "11" }
        [tickSecret, .time 2000, .done, .done, .done, .done])).store.get
      (.quarantine (laneKey tickLane))).isSome = true := by decide +kernel
  refine ⟨quarantined, ?_⟩
  rw [(quarantine_final tickConfig _ (called 0 (tick 1) (upToCommit 1 ++ fromCommit 1)) _
    (meets_of_one_slot (i := 0) (by decide)) quarantined).1]
  decide +kernel

end CorelinkRunners.Monitor.Ingest
