import CorelinkRunners.Kit.Exec
import CorelinkRunners.Monitor.Publications
import CorelinkRunners.Monitor.Quarantine

/-!
# Quarantined lanes and their incidents

A check of the scheduler lets the incident of a lane go on with what the cursor of the lane says; it
does not look at the quarantine record.

Nothing sets the flag of the cursor that stands for a quarantine, and a lane that is quarantined
because of a gap gets no incident with it. So a quarantine can go unnoticed by the scheduler.
-/

namespace CorelinkRunners.Monitor.Outbox

open Kit
open Ingest (Key Record AuditReceipt)

/-! ## Decisions -/

def recoversWith (previous : Incident) (signal : Signal) (now : Nat) : Bool :=
  allAdvanced previous signal &&
    previous.allClearSince.any fun clear => decide (quietMs ≤ now - clear)

def staysOpen (cfg : Config) (lane : Data) (cursor : Cursor) (previous : Option Incident)
    (now : Nat) (late : Bool) : Bool :=
  isFailing cursor now late || previous.any fun p => p.status != .recovered &&
    !recoversWith p
    (cursorSignal cfg lane cursor (isFailing cursor now late) (failureReason cursor late)) now

def IsOpen (incident : Option Incident) : Prop := ∃ i, incident = some i ∧ i.status ≠ .recovered

theorem recover_isOpen_iff (previous : Incident) (signal : Signal) (now : Nat) :
    IsOpen (recover previous signal now).incident ↔
      previous.status ≠ .recovered ∧ recoversWith previous signal now = false := by
  unfold recover recoversWith IsOpen
  split
  next recovered => simp [recovered]
  next open_ =>
    split
    next behind =>
      have : allAdvanced previous signal = false := by simpa using behind
      split <;> simp [this, open_]
    next advanced =>
      have : allAdvanced previous signal = true := by simpa using advanced
      split
      next clear => simp [clear, open_]
      next since clear =>
        split
        next early => simp [clear, this, open_, early]
        next quiet =>
          have waited : quietMs ≤ now - since := by omega
          simp [clear, waited, this]

variable {previous : Option Incident} {now : Nat} {d : IncidentDecision}

theorem evaluateEscalation_isOpen_iff (h : evaluateEscalation previous now = .ok d) :
    IsOpen d.incident ↔ IsOpen previous := by
  obtain ⟨-, -, rest⟩ := bind_eq_ok.mp h
  cases previous with
  | none =>
    cases rest
    exact Iff.rfl
  | some p =>
    obtain ⟨-, -, rest⟩ := bind_eq_ok.mp rest
    split at rest
    · cases rest
      exact Iff.rfl
    · cases rest
      simp [IsOpen]

theorem evaluateIncident_isOpen_iff {signal : Signal}
    (h : evaluateIncident previous signal now = .ok d) : IsOpen d.incident ↔ signal.failing = true ∨
      ∃ p, previous = some p ∧ p.status ≠ .recovered ∧ recoversWith p signal now = false := by
  obtain ⟨-, -, rest⟩ := bind_eq_ok.mp h
  have opens {d : IncidentDecision} (is : IsOpen d.incident) (failing : signal.failing = true)
      {Q : Prop} : IsOpen d.incident ↔ signal.failing = true ∨ Q := iff_of_true is (.inl failing)
  cases previous with
  | none =>
    split at rest
    next failing =>
      cases rest
      exact opens ⟨_, rfl, by simp [newIncident]⟩ failing.1
    next calm =>
      cases rest
      have : signal.failing = false := by simpa [replaces] using calm
      simp [IsOpen, this]
  | some p =>
    dsimp only at rest
    obtain ⟨-, -, rest⟩ := bind_eq_ok.mp rest
    split at rest
    next failing =>
      cases rest
      exact opens ⟨_, rfl, by simp [newIncident]⟩ failing.1
    · cases rest
      split
      next failing =>
        refine opens ?_ failing
        unfold failAgain
        split <;> exact ⟨_, rfl, by simp⟩
      next calm =>
        rw [recover_isOpen_iff]
        simp [calm]

variable {late : Bool}

theorem decideIncident_isOpen_iff {cfg : Config} {lane : Data} {cursor : Cursor}
    (h : decideIncident cfg lane cursor previous now late = .ok d) :
    IsOpen d.incident ↔ staysOpen cfg lane cursor previous now late = true := by
  obtain ⟨decision, decided, rest⟩ := bind_eq_ok.mp h
  obtain ⟨escalation, escalated, rest⟩ := bind_eq_ok.mp rest
  cases rest
  rw [evaluateEscalation_isOpen_iff escalated, evaluateIncident_isOpen_iff decided]
  cases previous <;> simp [staysOpen, cursorSignal]

/-! ## A check alone -/

abbrev RunsAlone {A : Type} (p : Method A) (s : World) (x : Except Failure A) (t : World) : Prop :=
  Exec perform (fun _ _ _ => True) p.run s x t

abbrev Gives {A : Type} (post : A → World → Prop) (p : Method A) (s : World) : Prop :=
  Ensures perform (fun _ _ _ => True) (fun x t => ∀ a, x = .ok a → post a t) p.run s

section Rules

variable {A B : Type} {post : B → World → Prop} {s : World}

theorem Gives.get {k : Key} {f : Option (Stored (Record k)) → Method B}
    (next : Gives post (f (s.store.get k)) s) : Gives post (Outbox.get k >>= f) s := by
  refine Ensures.await (fun env _ r told => ?_) fun _ _ _ _ => nofun
  obtain ⟨same, got⟩ := perform_get (k := k) env s
  rw [same, got r told]
  exact next

theorem Gives.tries {k : Key} {f : Option (Option (Stored (Record k))) → Method B}
    (failed : Gives post (f none) s) (next : Gives post (f (some (s.store.get k))) s) :
    Gives post (tryCatch (some <$> Outbox.get k) (fun _ => pure none) >>= f) s := by
  intro env _
  obtain ⟨same, got⟩ := perform_get (k := k) env s
  rw [same]
  cases told : (perform (.get k) env s).1 with
  | error failure => exact failed
  | ok r =>
    rw [got r told]
    exact next

theorem Gives.transact {writes : List (Write Key Record)} {f : Outcome → Method B}
    (conflict : Gives post (f .conflict) s)
    (next : ∀ store, s.store.Committed writes store → Gives post (f .committed) { s with store }) :
    Gives post (Outbox.transact writes >>= f) s := by
  refine Ensures.await (fun env _ outcome told => ?_) fun _ _ _ _ => nofun
  rcases perform_transact writes env s with ⟨store, committed, same, only⟩ | ⟨refused, same⟩
  · rw [same, only outcome told]
    exact next store committed
  · rw [same]
    cases outcome with
    | committed => exact absurd told refused
    | conflict => exact conflict

theorem Gives.checked {x : Except String A} {f : A → Method B}
    (next : ∀ a, x = .ok a → Gives post (f a) s) : Gives post (decided x >>= f) s := by
  cases x with
  | ok a => exact next a rfl
  | error message => exact nofun

theorem Gives.returns {b : B} (h : post b s) : Gives post (pure b : Method B) s :=
  fun _ same => Except.ok.inj same ▸ h

end Rules

section Check

variable {cfg : Config} {r : Registration} {now : Nat} {late : Bool} {s : World}

def World.staysOpen (s : World) (cfg : Config) (r : Registration) (now : Nat) (late : Bool) :
    Bool :=
  (s.store.get (.source (laneKey r))).any fun (cursor : Stored Cursor) =>
    Outbox.staysOpen cfg (laneKey r) cursor.value
      ((s.store.get (.incident (laneKey r))).map (·.value)) now late

def World.incident (s : World) (lane : Data) : Option Incident :=
  (s.store.get (.incident lane)).map (·.value)

theorem incident_of_committed {cursor : Stored Cursor} {incident : Option (Stored Incident)}
    {decision : IncidentDecision} {queued : List (Write Key Record)} {store : Versioned Key Record}
    (others : ∀ w ∈ queued, w.key ≠ .incident (laneKey r))
    (found : incident = s.store.get (.incident (laneKey r)))
    (kept : decision.incident = none → incident = none)
    (committed : s.store.Committed (checkWrites (laneKey r) cursor incident decision ++ queued)
      store) :
    World.incident { s with store } (laneKey r) = decision.incident := by
  cases is : decision.incident with
  | none =>
    have same : store.get (.incident (laneKey r)) = s.store.get (.incident (laneKey r)) := by
      refine committed.get_other fun w mem => ?_
      rcases List.mem_append.mp mem with first | later
      · simp only [checkWrites, is, Option.map_none, Option.toList_none,
          List.mem_singleton] at first
        rw [first]
        rintro ⟨⟩
      · exact others w later
    rw [World.incident, same, ← found, kept is]
    rfl
  | some next =>
    have wrote : (⟨.incident (laneKey r), incident.map (·.version), next⟩ : Write Key Record) ∈
        checkWrites (laneKey r) cursor incident decision ++ queued := by
      simp [checkWrites, is]
    rw [World.incident, committed.get_written wrote]
    rfl

theorem decideIncident_isSome {lane : Data} {cursor : Cursor} {p : Incident} {d : IncidentDecision}
    (h : decideIncident cfg lane cursor (some p) now late = .ok d) : d.incident.isSome := by
  obtain ⟨decision, decided, rest⟩ := bind_eq_ok.mp h
  obtain ⟨escalation, escalated, rest⟩ := bind_eq_ok.mp rest
  cases rest
  have first : decision.incident.isSome := by
    obtain ⟨-, -, rest⟩ := bind_eq_ok.mp decided
    dsimp only at rest
    obtain ⟨-, -, rest⟩ := bind_eq_ok.mp rest
    split at rest
    · cases rest
      rfl
    · cases rest
      split
      · unfold failAgain
        split <;> rfl
      · unfold recover
        repeat' split
        all_goals rfl
  obtain ⟨-, -, rest⟩ := bind_eq_ok.mp escalated
  obtain ⟨i, is⟩ := Option.isSome_iff_exists.mp first
  rw [is] at rest
  obtain ⟨-, -, rest⟩ := bind_eq_ok.mp rest
  split at rest <;> (cases rest; rfl)

theorem planAlerts_inside {alerts : List AlertIntent} {queue : Option (Stored DeliveryQueue)}
    {queued : List (Write Key Record)} (h : planAlerts cfg r now alerts queue = .ok queued) :
    ∀ w ∈ queued, IsOutbox w := by
  unfold planAlerts at h
  split at h
  · cases h
    exact fun w mem => absurd mem List.not_mem_nil
  · obtain ⟨plan, -, rest⟩ := bind_eq_ok.mp h
    cases rest
    intro w mem
    simp only [planWrites, List.mem_cons, List.mem_map] at mem
    rcases mem with rfl | ⟨d, -, rfl⟩
    · exact ⟨_, .inl rfl⟩
    · exact ⟨_, .inr rfl⟩

theorem not_incident {w : Write Key Record} (inside : IsOutbox w) (lane : Data) :
    w.key ≠ .incident lane := by
  obtain ⟨k, is | is⟩ := inside <;> rw [is] <;> exact nofun

/-- **A check alone** stores an incident that is not recovered exactly where its records say so. -/
theorem assess_gives (n : Nat) : Gives (fun x t => ∀ alerts, x = .committed alerts →
    (IsOpen (t.incident (laneKey r)) ↔ s.staysOpen cfg r now late = true))
    (assess cfg r now late n) s := by
  -- a round that meets a conflict leaves the store as it is
  induction n with
  | zero => exact .returns nofun
  | succ n ih =>
    refine .get ?_
    cases cursor : s.store.get (.source (laneKey r)) with
    | none => exact .returns nofun
    | some found =>
      dsimp only
      split
      · exact .returns nofun
      refine .get ?_
      split
      · exact .returns nofun
      refine .checked fun decision decided => .tries (.returns nofun) ?_
      dsimp only
      split
      · exact .returns nofun
      next queued planned =>
        refine .transact ih fun store committed => .returns fun alerts _ => ?_
        rw [incident_of_committed (fun w mem => not_incident (planAlerts_inside planned w mem) _)
          rfl ?_ committed, decideIncident_isOpen_iff decided]
        · simp [World.staysOpen, cursor]
        · intro none_left
          cases before : s.store.get (.incident (laneKey r)) with
          | none => rfl
          | some incident =>
            rw [before] at decided
            have := decideIncident_isSome decided
            rw [none_left] at this
            nomatch this

end Check

/-! ## The drain after a check -/

section Drain

variable {cfg : Config} {caller : Nat} {lane o : Data}

def WritesInside {A : Type} (m : Method A) : Prop :=
    Every Inside (Every.Returning fun _ => True) m.run

theorem Modest.inside {A : Type} {m : Method A} (h : Modest m) : WritesInside m :=
  h.weaken fun _ both => both.2

theorem publishClaimed_inside {c : String} {item : PendingDelivery} :
    WritesInside (publishClaimed cfg caller lane o item c) := by
  refine .await trivial fun intent => .await trivial fun _ => .await trivial fun r =>
    .seq _ trustedNow_modest.inside fun now _ => ?_
  cases r with
  | none => exact .returns trivial
  | some stored =>
    dsimp only
    split
    · exact .returns trivial
    · exact .await trivial fun result => settle_modest.inside

theorem attempt_inside : WritesInside (attempt cfg caller lane o) := by
  refine .await trivial fun r => ?_
  cases r with
  | none => exact .throws
  | some stored =>
    refine .guard (.seq _ trustedNow_modest.inside fun now _ => ?_)
    split
    · exact .returns trivial
    refine .guard (.await trivial fun told => ?_)
    match told with
    | (.conflict, c) => exact .returns trivial
    | (.committed, c) => exact publishClaimed_inside

theorem drainEach_inside (ids : List Data) (room : Nat) (d : Drained) :
    WritesInside (drainEach cfg caller lane ids room d) := by
  induction ids generalizing room d with
  | nil => exact .returns trivial
  | cons o rest ih =>
    cases room with
    | zero => exact .returns trivial
    | succ room =>
      refine .seq _ attempt_inside fun attempted _ => ?_
      cases attempted <;> exact ih _ _

theorem drain_inside (n : Nat) : WritesInside (drain cfg caller lane n) := by
  refine .guard (.guard (.await trivial fun r => ?_))
  cases r with
  | none => exact .returns trivial
  | some queue =>
    refine .guard (.seq _ (drainEach_inside _ _ _) fun counted _ => ?_)
    exact .await trivial fun _ => .returns trivial

theorem incident_of_inside {e : Effect} (inside : Inside e) (env : Outside) (s : World)
    (lane : Data) : (perform e env s).2.incident lane = s.incident lane := by
  have of_writes {writes : List (Write Key Record)} {t : World} (only : ∀ w ∈ writes, IsOutbox w)
      (committed : s.store.Committed writes t.store) : t.incident lane = s.incident lane := by
    rw [World.incident, committed.get_other fun w mem => not_incident (only w mem) lane,
      World.incident]
  have of_notes {h : Happened} {t : World} (notes : Notes s h t) :
      t.incident lane = s.incident lane := by
    rcases notes with rfl | rfl <;> rfl
  cases e with
  | get k => rw [(perform_get env s).1]
  | now => rw [perform_now env s]
  | transact writes =>
    rcases perform_transact writes env s with ⟨store, committed, same, -⟩ | ⟨-, same⟩
    · rw [same]
      exact of_writes inside committed
    · rw [same]
  | claim o stored now =>
    have spec := perform_claim o stored now env s
    generalize (perform (.claim o stored now) env s).2 = t at spec
    cases spec with
    | nothing => rfl
    | drawn c => rfl
    | claims c store new committed =>
      refine of_writes (fun w mem => ?_) committed
      rw [List.mem_singleton.mp mem]
      exact ⟨o, .inr rfl⟩
  | append operationId payload =>
    obtain ⟨receipt, notes, -⟩ := perform_append operationId payload env s
    exact of_notes notes
  | verify receipt => exact of_notes (perform_verify receipt env s).1
  | publish operation n caller => exact of_notes (perform_publish operation n caller env s)

end Drain

/-- **When a check leaves an incident that is not recovered**: exactly when the cursor it finds is
failing, or when it finds such an incident and that does not recover now. Whether the lane is
quarantined makes no difference. -/
theorem incident_open_iff (cfg : Config) (r : Registration) (now : Nat) (late : Bool)
    (caller alerts : Nat) (s t u : World) (x : Except Failure Drained)
    (checked : RunsAlone (assess cfg r now late 8) s (.ok (.committed alerts)) t)
    (drained : RunsAlone (drain cfg caller (laneKey r) 10) t x u) :
    IsOpen (u.incident (laneKey r)) ↔ s.staysOpen cfg r now late = true := by
  have same : u.incident (laneKey r) = t.incident (laneKey r) :=
    (drain_inside 10).exec (f := fun w : World => w.incident (laneKey r))
      (fun _ env w inside => incident_of_inside inside env w _) drained
  rw [same]
  exact (assess_gives 8).exec checked _ rfl alerts rfl

/-! ## A quarantine that nobody hears of -/

def breakerLane : Registration where
  source := "breaker"
  service := "spend"
  application := "runners"
  keyId := "key-1"
  credentialEpoch := "epoch-1"
  allowedKinds := [.attemptReserved, .breakerOpen, .breakerClosed]
  intervalMs := none
  sourceVersion := "v1"
  authoritySourceId := none
  enabled := true

def breakerConfig : Ingest.Config where
  registrations := [breakerLane]
  monitorTupleDigest := .hash (.text "tuple")
  destination := "pager"
  hmac _ _ := "00"
  verify _ _ _ := true

def breakerPayload : LifecyclePayload := ⟨"breaker", 1, "t-1", .healthy, 900, "v1", 950, "n-1"⟩

def breakerClosed (seq : Nat) : Envelope where
  kind := .breakerClosed
  source := "breaker"
  service := "spend"
  application := "runners"
  eventId := "event-" ++ Nat.repr seq
  producerSeq := seq
  occurredAt := 1000
  scheduledFor := 1000
  keyId := "key-1"
  credentialEpoch := "epoch-1"
  payloadDigest := .hash breakerPayload.data
  monitorRearmTupleDigest := .hash (.text "tuple")
  payload := some breakerPayload
  signature := "00"

/-- The first event is committed. The second one is lost, and the third has the lane quarantined. -/
def withGap : List Ingest.Event :=
  Ingest.called 0 (breakerClosed 1)
    [Ingest.tickSecret, .done, .done, .time 2000, .done, .done, .done, .done,
      .receipt ⟨Ingest.intentId (laneKey breakerLane) (breakerClosed 1), .hash (.text "root")⟩,
      .done, .done, .time 2000, .signer Ingest.tickSigner, .current true, .signature "sig", .done,
        .done, .done, .done,
      .receipt ⟨Ingest.resultId (laneKey breakerLane) (breakerClosed 1), .hash (.text "root")⟩,
        .done, .done,
      .done, .done] ++
    Ingest.called 0 (breakerClosed 3) [Ingest.tickSecret, .done, .done, .time 2000, .done, .done]

def gapWorld : World := { store := (Ingest.World.run breakerConfig withGap).store }

def schedulerConfig : Config := ⟨"pager", .hash (.text "tuple")⟩

/-- A check of the lane and the drain after it, on given answers. -/
def checkedLane (late : Bool) :
    Option (Except Failure Checked × Except Failure Drained × Option IncidentStatus) :=
  (replay perform (fun _ _ _ => true) (assess schedulerConfig breakerLane 3000 late 8).run
    (List.replicate 4 .done) gapWorld).bind fun (first, t) =>
      (replay perform (fun _ _ _ => true) (drain schedulerConfig 0 (laneKey breakerLane) 10).run
        [.done, .done, .fails (.other "unavailable")] t).map fun (second, u) =>
          (first, second, (u.incident (laneKey breakerLane)).map (·.status))

theorem runsAlone_of_checkedLane {first : Except Failure Checked} {second : Except Failure Drained}
    {status : Option IncidentStatus} (h : checkedLane late = some (first, second, status)) :
    ∃ t u, RunsAlone (assess schedulerConfig breakerLane 3000 late 8) gapWorld first t ∧
      RunsAlone (drain schedulerConfig 0 (laneKey breakerLane) 10) t second u ∧
      (u.incident (laneKey breakerLane)).map (·.status) = status := by
  obtain ⟨⟨first', t⟩, ran, rest⟩ := Option.bind_eq_some_iff.mp h
  obtain ⟨⟨second', u⟩, ran', same⟩ := Option.map_eq_some_iff.mp rest
  cases same
  exact ⟨t, u, exec_of_replay (fun _ _ _ _ => trivial) ran,
    exec_of_replay (fun _ _ _ _ => trivial) ran', rfl⟩

/-- **A silent quarantine.** The lane has a cursor and is quarantined, the scheduler reads it, and
there is no incident. -/
theorem quarantined_in_silence :
    (gapWorld.store.get (.quarantine (laneKey breakerLane))).isSome = true ∧
      (gapWorld.store.get (.source (laneKey breakerLane))).isSome = true ∧
      ∃ t u x, RunsAlone (assess schedulerConfig breakerLane 3000 false 8) gapWorld
        (.ok (.committed 0)) t ∧
        RunsAlone (drain schedulerConfig 0 (laneKey breakerLane) 10) t x u ∧
        ¬IsOpen (u.incident (laneKey breakerLane)) := by
  refine ⟨by decide +kernel, by decide +kernel, ?_⟩
  have ran : checkedLane false = some (.ok (.committed 0), .ok ⟨0, 0, 0⟩, none) := by decide +kernel
  obtain ⟨t, u, checked, drained, nothing⟩ := runsAlone_of_checkedLane ran
  refine ⟨t, u, _, checked, drained, ?_⟩
  rw [Option.map_eq_none_iff.mp nothing]
  rintro ⟨_, is, -⟩
  nomatch is

/-- A scheduler that is late opens an incident. -/
theorem incident_open_iff_late : ∃ t u x,
    RunsAlone (assess schedulerConfig breakerLane 3000 true 8) gapWorld (.ok (.committed 1)) t ∧
      RunsAlone (drain schedulerConfig 0 (laneKey breakerLane) 10) t x u ∧
      IsOpen (u.incident (laneKey breakerLane)) := by
  have ran : checkedLane true = some (.ok (.committed 1), .error (.other "unavailable"),
      some .opened) := by
    decide +kernel
  obtain ⟨t, u, checked, drained, -⟩ := runsAlone_of_checkedLane ran
  refine ⟨t, u, _, checked, drained, ?_⟩
  exact (incident_open_iff schedulerConfig breakerLane 3000 true 0 1 gapWorld t u _ checked
    drained).mpr
    (by decide +kernel)

end CorelinkRunners.Monitor.Outbox
