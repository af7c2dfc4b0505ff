import CorelinkRunners.Kit.Rely
import CorelinkRunners.Monitor.Outbox

/-!
# The queues and the deliveries of the outbox

Two records stand for a delivery: its own, and its place in the queue of its source. They are
written together where a delivery begins and where it is delivered, and in between only the delivery
is. That keeps them in step: an operation is in the queue exactly as long as it is not delivered.

What a drain has claimed it knows by the identifier of its claim, which is drawn once: whatever it
reads under that identifier is the record it wrote itself.
-/

namespace CorelinkRunners.Monitor.Outbox

open Kit
open Ingest (Key Record AuditReceipt)

/-! ## What holds of the world -/

def Queued (store : Versioned Key Record) (lane o : Data) : Prop :=
  ∃ q, store.get (.queue lane) = some q ∧ o ∈ q.value.pendingOperationIds

/-- The operation is a delivery of the lane that is queued or in flight. -/
def Waiting (store : Versioned Key Record) (lane o : Data) : Prop :=
  ∃ d, store.get (.delivery o) = some d ∧ d.value.sourceKey = lane ∧ d.value.status ≠ .delivered

def Delivered (store : Versioned Key Record) (o : Data) : Prop :=
  ∃ d, store.get (.delivery o) = some d ∧ d.value.status = .delivered

structure Succeeds (before : List PendingDelivery) (d : PendingDelivery) : Prop where
  grows : ∀ p ∈ before, p.attempt ≤ d.attempt
  claims : d.claimId.isSome → ∀ p ∈ before, p.attempt < d.attempt
  open_ : ∀ p ∈ before, p.status ≠ .delivered
  lane : ∀ p ∈ before, p.sourceKey = d.sourceKey

def Announced (before : List Happened) (h : Happened) : Prop :=
  ∀ o n caller, h = .published o n caller → ∃ operation receipt, operation.operationId = o ∧
    .appended (intentId o n) (intentPayload operation n) receipt ∈ before ∧
      .verified receipt ∈ before

/-- A call that publishes an attempt found the operation undelivered when it started. -/
def World.Justified (s : World) (o : Data) (n caller : Nat) : Prop :=
  (∃ store, (caller, store) ∈ s.started ∧ ¬Delivered store o) ∧
    ∃ d ∈ s.store.held (.delivery o), d.attempt = n ∧ d.claimId.isSome

structure Sound (s : World) : Prop where
  history : ∀ o, Traced Succeeds (s.store.held (.delivery o))
  named : ∀ o, ∀ d ∈ s.store.held (.delivery o), d.operation.operationId = o
  drawn : ∀ o, ∀ d ∈ s.store.held (.delivery o), ∀ c, d.claimId = some c → c ∈ s.drawn
  bounded : ∀ lane, ∀ q ∈ s.store.held (.queue lane),
    q.pendingOperationIds.length ≤ maxPendingDeliveries
  matched : ∀ lane o, Queued s.store lane o ↔ Waiting s.store lane o
  announced : Traced Announced s.trace
  justified : ∀ o n caller, .published o n caller ∈ s.trace → s.Justified o n caller
  names : (s.started.map Prod.fst).Nodup
  past : ∀ entry ∈ s.started, entry.2.Extends s.store

structure Grows (s t : World) : Prop where
  store : s.store.Extends t.store
  drawn : s.drawn <+: t.drawn
  trace : s.trace <+: t.trace
  started : s.started <+: t.started
  later : ∀ entry ∈ t.started, entry ∈ s.started ∨ s.store.Extends entry.2
  fresh : ∀ o, ∀ d ∈ t.store.held (.delivery o), d ∈ s.store.held (.delivery o) ∨
    ∀ c, d.claimId = some c → c ∉ s.drawn

section Basics

variable {s t u : World} {store store' : Versioned Key Record} {lane o : Data}

theorem Grows.refl (s : World) : Grows s s :=
  ⟨.refl _, List.prefix_rfl, List.prefix_rfl, List.prefix_rfl, fun _ mem => .inl mem,
    fun _ _ mem => .inl mem⟩

theorem Grows.trans (first : Grows s t) (second : Grows t u) : Grows s u where
  store := first.store.trans second.store
  drawn := first.drawn.trans second.drawn
  trace := first.trace.trans second.trace
  started := first.started.trans second.started
  later entry mem := by
    rcases second.later entry mem with old | new
    · exact first.later entry old
    · exact .inr (first.store.trans new)
  fresh o d mem := by
    rcases second.fresh o d mem with old | new
    · exact first.fresh o d old
    · exact .inr fun c same drawn => new c same (first.drawn.subset drawn)

def rely : Rely World where
  Inv := Sound
  Grows := Grows
  refl := .refl
  trans := .trans

theorem Queued.congr (h : store'.get (.queue lane) = store.get (.queue lane)) :
    Queued store' lane o ↔ Queued store lane o := by
  unfold Queued
  rw [h]

theorem Waiting.congr (h : store'.get (.delivery o) = store.get (.delivery o)) :
    Waiting store' lane o ↔ Waiting store lane o := by
  unfold Waiting
  rw [h]

theorem queued_of_get {q : Stored DeliveryQueue} (h : store.get (.queue lane) = some q) :
    Queued store lane o ↔ o ∈ q.value.pendingOperationIds := by
  unfold Queued
  rw [h]
  simp

variable {d : Stored PendingDelivery}

theorem waiting_of_get (h : store.get (.delivery o) = some d) :
    Waiting store lane o ↔ d.value.sourceKey = lane ∧ d.value.status ≠ .delivered := by
  unfold Waiting
  rw [h]
  simp

theorem Sound.last (h : Sound s) (got : s.store.get (.delivery o) = some d) :
    (∀ p ∈ s.store.held (.delivery o), p.attempt ≤ d.value.attempt) ∧
      (∀ p ∈ s.store.held (.delivery o), p.status = .delivered → p = d.value) ∧
      ∀ p ∈ s.store.held (.delivery o), p.sourceKey = d.value.sourceKey := by
  obtain ⟨before, split, -⟩ := Versioned.held_of_get got
  have succeeds := h.history o before d.value [] split
  rw [split]
  refine ⟨?_, ?_, ?_⟩
  · intro p mem
    rcases List.mem_append.mp mem with early | late
    · exact succeeds.grows p early
    · rw [List.mem_singleton.mp late]
  · intro p mem delivered
    rcases List.mem_append.mp mem with early | late
    · exact absurd delivered (succeeds.open_ p early)
    · exact List.mem_singleton.mp late
  · intro p mem
    rcases List.mem_append.mp mem with early | late
    · exact succeeds.lane p early
    · rw [List.mem_singleton.mp late]

theorem Sound.final (h : Sound s) {before after : List PendingDelivery} {d : PendingDelivery}
    (split : s.store.held (.delivery o) = before ++ d :: after)
    (delivered : d.status = .delivered) : after = [] := by
  cases after with
  | nil => rfl
  | cons next rest =>
    have succeeds := h.history o (before ++ [d]) next rest (by simp [split])
    exact absurd delivered (succeeds.open_ d (by simp))

theorem Sound.stays (h : Sound t) (grows : s.store.Extends t.store)
    (got : s.store.get (.delivery o) = some d) (delivered : d.value.status = .delivered) :
    t.store.held (.delivery o) = s.store.held (.delivery o) := by
  obtain ⟨before, split, -⟩ := Versioned.held_of_get got
  obtain ⟨more, same⟩ := grows (.delivery o)
  have all : t.store.held (.delivery o) = before ++ d.value :: more := by
    rw [← same, split, List.append_assoc, List.singleton_append]
  rw [← same, h.final all delivered, List.append_nil]

theorem Sound.succeeds (h : Sound s) {next : PendingDelivery}
    (got : s.store.get (.delivery o) = some d) (before : d.value.status ≠ .delivered)
    (lane : next.sourceKey = d.value.sourceKey) (attempt : d.value.attempt ≤ next.attempt)
    (claims : next.claimId.isSome → d.value.attempt < next.attempt) :
    Succeeds (s.store.held (.delivery o)) next := by
  obtain ⟨attempts, delivered, lanes⟩ := h.last got
  refine ⟨fun p mem => (attempts p mem).trans attempt, fun some_ p mem => ?_, fun p mem is => ?_,
    fun p mem => (lanes p mem).trans lane.symm⟩
  · exact (attempts p mem).trans_lt (claims some_)
  · rw [delivered p mem is] at is
    exact before is

end Basics

/-! ## Plans -/

structure Enqueued (lane : Data) (d : PendingDelivery) : Prop where
  lane : d.sourceKey = lane
  status : d.status = .queued
  claimId : d.claimId = none

structure Planned (lane : Data) (ids : List Data) (plan : Plan) : Prop where
  ids : plan.queue.pendingOperationIds = ids ++ plan.deliveries.map (·.operation.operationId)
  fresh : ∀ d ∈ plan.deliveries, Enqueued lane d
  bounded : plan.queue.pendingOperationIds.length ≤ maxPendingDeliveries

variable {lane tuple : Data} {destination : String} {nowMs : Nat} {alerts : List AlertIntent}

theorem enqueueAlerts_planned {start ids : List Data} {deliveries : List PendingDelivery}
    {plan : Plan} (h : enqueueAlerts lane destination nowMs tuple alerts ids deliveries = .ok plan)
    (so_far : Planned lane start ⟨⟨lane, ids⟩, deliveries⟩) : Planned lane start plan := by
  induction alerts generalizing ids deliveries with
  | nil =>
    cases h
    exact so_far
  | cons a alerts ih =>
    obtain ⟨operation, -, rest⟩ := bind_eq_ok.mp h
    split at rest
    · exact ih rest so_far
    obtain ⟨room, rest⟩ := guard_eq_ok.mp rest
    refine ih rest ⟨?_, ?_, ?_⟩
    · have := so_far.ids
      simp only at this
      simp [this]
    · intro d mem
      rcases List.mem_append.mp mem with old | new
      · exact so_far.fresh d old
      · rw [List.mem_singleton.mp new]
        exact ⟨rfl, rfl, rfl⟩
    · simp only [List.length_append, List.length_singleton]
      omega

theorem planEnqueue_planned {queue : Option DeliveryQueue} {plan : Plan}
    (h : planEnqueue queue lane alerts destination nowMs tuple = .ok plan) :
    Planned lane (queue.elim [] (·.pendingOperationIds)) plan := by
  simp only [planEnqueue, unless_eq_ok] at h
  obtain ⟨-, -, -, valid, h⟩ := h
  refine enqueueAlerts_planned h ⟨by simp, nofun, ?_⟩
  cases queue with
  | none => simp
  | some q =>
    simp only [Option.all_some, queueValid, Bool.and_eq_true, decide_eq_true_eq] at valid
    exact valid.1.1.2

/-! ## Transactions -/

section Transactions

variable {s : World} {writes : List (Write Key Record)} {store : Versioned Key Record}
  {drawn : List String} {lane o : Data}

theorem Sound.commit (h : Sound s) (committed : s.store.Committed writes store)
    (more : s.drawn <+: drawn)
    (deliveries : ∀ o v d, ⟨.delivery o, v, d⟩ ∈ writes → Succeeds (s.store.held (.delivery o)) d ∧
      d.operation.operationId = o ∧ ∀ c, d.claimId = some c → c ∈ drawn)
    (queues : ∀ lane v q, ⟨.queue lane, v, q⟩ ∈ writes →
      q.pendingOperationIds.length ≤ maxPendingDeliveries)
    (matched : ∀ lane o, Queued store lane o ↔ Waiting store lane o) :
    Sound { s with store, drawn } := by
  refine ⟨?_, ?_, ?_, ?_, matched, h.announced, ?_, h.names, fun entry mem =>
    (h.past entry mem).trans committed.extends_⟩
  · intro o
    rcases committed.cases_ (.delivery o) with same | ⟨v, d, mem, same⟩
    · simp only [same]
      exact h.history o
    · simp only [same]
      exact (h.history o).snoc (deliveries o v d mem).1
  · intro o d mem
    rcases committed.mem_cases mem with old | ⟨v, new⟩
    · exact h.named o d old
    · exact (deliveries o v d new).2.1
  · intro o d mem c claims
    rcases committed.mem_cases mem with old | ⟨v, new⟩
    · exact more.subset (h.drawn o d old c claims)
    · exact (deliveries o v d new).2.2 c claims
  · intro lane q mem
    rcases committed.mem_cases mem with old | ⟨v, new⟩
    · exact h.bounded lane q old
    · exact queues lane v q new
  · intro o n caller published
    obtain ⟨began, d, mem, is⟩ := h.justified o n caller published
    exact ⟨began, d, (committed.extends_ _).subset mem, is⟩

theorem Grows.commit (committed : s.store.Committed writes store) (more : s.drawn <+: drawn)
    (fresh : ∀ o v d, ⟨.delivery o, v, d⟩ ∈ writes → ∀ c, d.claimId = some c → c ∉ s.drawn) :
    Grows s { s with store, drawn } := by
  refine ⟨committed.extends_, more, List.prefix_rfl, List.prefix_rfl, fun _ mem => .inl mem, ?_⟩
  intro o d mem
  rcases committed.mem_cases mem with old | ⟨v, new⟩
  · exact .inl old
  · exact .inr (fresh o v d new)

variable {d : Stored PendingDelivery} {next : PendingDelivery}

theorem matched_update (h : Sound s)
    (committed : s.store.Committed [⟨.delivery o, some d.version, next⟩] store)
    (found : s.store.get (.delivery o) = some d) (before : d.value.status ≠ .delivered)
    (after : next.status ≠ .delivered) (same : next.sourceKey = d.value.sourceKey) (l x : Data) :
    Queued store l x ↔ Waiting store l x := by
  rw [Queued.congr (committed.get_other (by simp)), h.matched]
  by_cases here : x = o
  · subst here
    rw [waiting_of_get found, waiting_of_get (committed.get_written (List.mem_singleton_self _)),
      same]
    simp [before, after]
  · exact (Waiting.congr (committed.get_other (by simp [Ne.symm here]))).symm

theorem matched_delivered (h : Sound s) {q : Stored DeliveryQueue}
    (committed : s.store.Committed
      [⟨.delivery o, some d.version, next⟩, ⟨.queue lane, some q.version,
      ⟨lane, q.value.pendingOperationIds.filter fun id => id != o⟩⟩] store)
    (found : s.store.get (.delivery o) = some d) (queue : s.store.get (.queue lane) = some q)
    (own : d.value.sourceKey = lane) (after : next.status = .delivered) (l x : Data) :
    Queued store l x ↔ Waiting store l x := by
  have record : store.get (.delivery o) = some ⟨_, next⟩ :=
    committed.get_written (w := ⟨.delivery o, some d.version, next⟩) (by simp)
  have other (x : Data) (apart : x ≠ o) : store.get (.delivery x) = s.store.get (.delivery x) :=
    committed.get_other (by simp [Ne.symm apart])
  by_cases here : l = lane
  · subst here
    rw [queued_of_get (committed.get_written (List.mem_cons_of_mem _ (List.mem_singleton_self _)))]
    by_cases gone : x = o
    · subst gone
      rw [waiting_of_get record]
      simp [after]
    · rw [Waiting.congr (other x gone), ← h.matched, queued_of_get queue]
      simp [gone]
  · rw [Queued.congr (committed.get_other (by simp [Ne.symm here])), h.matched]
    by_cases gone : x = o
    · subst gone
      rw [waiting_of_get record, waiting_of_get found, own]
      simp [after, Ne.symm here]
    · exact (Waiting.congr (other x gone)).symm

variable {others : List (Write Key Record)} {queue : Option (Stored DeliveryQueue)}

theorem matched_plan (h : Sound s) {plan : Plan}
    (apart : ∀ w ∈ others, ∀ k, w.key ≠ .queue k ∧ w.key ≠ .delivery k)
    (committed : s.store.Committed (others ++ planWrites lane queue plan) store)
    (found : s.store.get (.queue lane) = queue)
    (planned : Planned lane ((queue.map (·.value)).elim [] (·.pendingOperationIds)) plan)
    (l x : Data) : Queued store l x ↔ Waiting store l x := by
  have queueMem : (⟨.queue lane, queue.map (·.version), plan.queue⟩ : Write Key Record) ∈
      others ++ planWrites lane queue plan := by simp [planWrites]
  have deliveryMem (d : PendingDelivery) (mem : d ∈ plan.deliveries) :
      (⟨.delivery d.operation.operationId, none, d⟩ : Write Key Record) ∈
        others ++ planWrites lane queue plan := by
    refine List.mem_append_right _ (List.mem_cons_of_mem _ ?_)
    exact List.mem_map.mpr ⟨d, mem, rfl⟩
  have queues (apart_ : l ≠ lane) : store.get (.queue l) = s.store.get (.queue l) := by
    refine committed.get_other fun w written => ?_
    rcases List.mem_append.mp written with other | plan_
    · exact (apart w other l).1
    · simp only [planWrites, List.mem_cons, List.mem_map] at plan_
      rcases plan_ with rfl | ⟨_, -, rfl⟩
      · exact fun is => apart_ (Key.queue.inj is).symm
      · exact nofun
  have before : (x ∈ (queue.map (·.value)).elim [] (·.pendingOperationIds)) ↔
      Queued s.store lane x := by
    unfold Queued
    rw [found]
    cases queue <;> simp
  by_cases new : ∃ d ∈ plan.deliveries, d.operation.operationId = x
  · -- a new delivery: there was none before
    obtain ⟨d, mem, rfl⟩ := new
    have fresh := planned.fresh d mem
    have none_before := committed.fresh (deliveryMem d mem)
    have record := committed.get_written (deliveryMem d mem)
    rw [waiting_of_get record, fresh.lane, fresh.status]
    by_cases here : l = lane
    · subst here
      rw [queued_of_get (committed.get_written queueMem), planned.ids]
      simp only [ne_eq, reduceCtorEq, not_false_eq_true, and_self, iff_true]
      exact List.mem_append_right _ (List.mem_map.mpr ⟨d, mem, rfl⟩)
    · refine ⟨fun queued => ?_, fun waits => absurd waits.1 (Ne.symm here)⟩
      obtain ⟨r, got, -⟩ := (h.matched l _).mp ((Queued.congr (queues here)).mp queued)
      rw [Versioned.get_eq_none.mpr none_before] at got
      nomatch got
  · have same : store.get (.delivery x) = s.store.get (.delivery x) := by
      refine committed.get_other fun w written => ?_
      rcases List.mem_append.mp written with other | plan_
      · exact (apart w other x).2
      · simp only [planWrites, List.mem_cons, List.mem_map] at plan_
        rcases plan_ with rfl | ⟨d, mem, rfl⟩
        · exact nofun
        · exact fun is => new ⟨d, mem, Key.delivery.inj is⟩
    rw [Waiting.congr same, ← h.matched]
    by_cases here : l = lane
    · subst here
      rw [queued_of_get (committed.get_written queueMem), planned.ids, ← before]
      simp only [List.mem_append, List.mem_map, or_iff_left_iff_imp]
      exact fun found => absurd found new
    · exact Queued.congr (queues here)

theorem mem_planWrites {plan : Plan} {v : Option Nat} {d : PendingDelivery}
    (apart : ∀ w ∈ others, ∀ k, w.key ≠ .queue k ∧ w.key ≠ .delivery k)
    (mem : ⟨.delivery o, v, d⟩ ∈ others ++ planWrites lane queue plan) :
    d ∈ plan.deliveries ∧ d.operation.operationId = o ∧ v = none := by
  rcases List.mem_append.mp mem with other | plan_
  · exact absurd rfl (apart _ other o).2
  · simp only [planWrites, List.mem_cons, List.mem_map] at plan_
    rcases plan_ with is | ⟨d', there, is⟩
    · nomatch is
    · cases is
      exact ⟨there, rfl, rfl⟩

theorem Sound.plan (h : Sound s) {plan : Plan}
    (apart : ∀ w ∈ others, ∀ k, w.key ≠ .queue k ∧ w.key ≠ .delivery k)
    (committed : s.store.Committed (others ++ planWrites lane queue plan) store)
    (found : s.store.get (.queue lane) = queue)
    (planned : Planned lane ((queue.map (·.value)).elim [] (·.pendingOperationIds)) plan) :
    Sound { s with store } := by
  refine h.commit committed List.prefix_rfl ?_ ?_ (matched_plan h apart committed found planned)
  · intro x v d mem
    obtain ⟨there, rfl, rfl⟩ := mem_planWrites apart mem
    rw [committed.fresh mem]
    have first : Succeeds [] d := ⟨List.forall_mem_nil _, fun _ => List.forall_mem_nil _,
      List.forall_mem_nil _, List.forall_mem_nil _⟩
    refine ⟨first, rfl, fun c is => ?_⟩
    rw [(planned.fresh d there).claimId] at is
    nomatch is
  · intro l v q mem
    rcases List.mem_append.mp mem with other | plan_
    · exact absurd rfl (apart _ other l).1
    · simp only [planWrites, List.mem_cons, List.mem_map] at plan_
      rcases plan_ with is | ⟨d', there, is⟩
      · cases is
        exact planned.bounded
      · nomatch is

theorem Sound.aside (h : Sound s)
    (apart : ∀ w ∈ writes, ∀ k, w.key ≠ .queue k ∧ w.key ≠ .delivery k)
    (committed : s.store.Committed writes store) : Sound { s with store } := by
  refine h.commit committed List.prefix_rfl (fun o v d mem => absurd rfl (apart _ mem o).2)
    (fun l v q mem => absurd rfl (apart _ mem l).1) fun l o => ?_
  rw [Queued.congr (committed.get_other fun w mem => (apart w mem l).1),
    Waiting.congr (committed.get_other fun w mem => (apart w mem o).2)]
  exact h.matched l o

end Transactions

/-! ## What an effect does -/

section Effects

variable {s : World}

theorem World.commit_cases (s : World) (writes : List (Write Key Record)) :
    (∃ store, s.store.Committed writes store ∧
      s.commit writes = (.ok .committed, { s with store })) ∨
      ((s.commit writes).1 ≠ .ok .committed ∧ (s.commit writes).2 = s) := by
  have whole := transact_cases s.store writes
  unfold World.commit
  split
  next store told =>
    rw [told] at whole
    rcases whole with ⟨-, committed⟩ | ⟨refused, -⟩
    · exact .inl ⟨store, committed, rfl⟩
    · exact absurd rfl refused
  · exact .inr ⟨nofun, rfl⟩
  · exact .inr ⟨nofun, rfl⟩

theorem perform_get {k : Key} (env : Outside) (s : World) : (perform (.get k) env s).2 = s ∧
    ∀ r, (perform (.get k) env s).1 = .ok r → r = s.store.get k := by
  induction env with
  | done => exact ⟨rfl, fun r told => (Except.ok.inj told).symm⟩
  | lost outside failure ih => exact ⟨ih.1, nofun⟩
  | _ => exact ⟨rfl, nofun⟩

theorem perform_now (env : Outside) (s : World) : (perform .now env s).2 = s := by
  induction env with
  | lost outside failure ih => exact ih
  | _ => rfl

theorem perform_transact (writes : List (Write Key Record)) (env : Outside) (s : World) :
    (∃ store, s.store.Committed writes store ∧
        (perform (.transact writes) env s).2 = { s with store } ∧
        ∀ outcome, (perform (.transact writes) env s).1 = .ok outcome → outcome = .committed) ∨
      ((perform (.transact writes) env s).1 ≠ .ok .committed ∧
        (perform (.transact writes) env s).2 = s) := by
  induction env with
  | done =>
    rcases s.commit_cases writes with ⟨store, committed, same⟩ | refused
    · refine .inl ⟨store, committed, congrArg Prod.snd same, fun outcome told => ?_⟩
      exact (Except.ok.inj ((congrArg Prod.fst same).symm.trans told)).symm
    · exact .inr refused
  | lost outside failure ih =>
    rcases ih with ⟨store, committed, same, -⟩ | ⟨-, same⟩
    · exact .inl ⟨store, committed, same, nofun⟩
    · exact .inr ⟨nofun, same⟩
  | _ => exact .inr ⟨nofun, rfl⟩

/-- A claim draws a new identifier, and takes place under it or not at all. -/
inductive Claimed (s : World) (o : Data) (stored : Stored PendingDelivery) (now : Nat) :
    Except Failure (Outcome × String) → World → Prop
  | nothing {told} (refused : ∀ c, told ≠ .ok (.committed, c)) : Claimed s o stored now told s
  | drawn {told} (c : String) (refused : ∀ c, told ≠ .ok (.committed, c)) :
    Claimed s o stored now told { s with drawn := s.drawn ++ [c] }
  | claims {told} (c : String) (store : Versioned Key Record) (new : c ∉ s.drawn)
    (committed : s.store.Committed
      [⟨.delivery o, some stored.version, claimed stored.value c now⟩] store)
    (under : ∀ x, told = .ok (.committed, x) → x = c) :
    Claimed s o stored now told { s with store, drawn := s.drawn ++ [c] }

theorem perform_claim (o : Data) (stored : Stored PendingDelivery) (now : Nat) (env : Outside)
    (s : World) : Claimed s o stored now (perform (.claim o stored now) env s).1
      (perform (.claim o stored now) env s).2 := by
  induction env with
  | uuid c =>
    change Claimed s o stored now (answer (.claim o stored now) (.uuid c) s).1
      (answer (.claim o stored now) (.uuid c) s).2
    simp only [answer]
    split
    · exact .nothing nofun
    next new =>
      rcases s.commit_cases [⟨.delivery o, some stored.version, claimed stored.value c now⟩] with
        ⟨store, committed, same⟩ | ⟨refused, same⟩
      · simp only [World.claim, same]
        exact .claims c store new committed fun x told =>
          (congrArg Prod.snd (Except.ok.inj told)).symm
      · simp only [World.claim, same]
        refine .drawn c fun x told => refused ?_
        revert told
        cases (s.commit [⟨.delivery o, some stored.version, claimed stored.value c now⟩]).1 with
        | error failure => exact nofun
        | ok outcome =>
          exact fun told => congrArg Except.ok (congrArg Prod.fst (Except.ok.inj told))
  | lost outside failure ih =>
    change Claimed s o stored now (.error failure) (perform (.claim o stored now) outside s).2
    generalize (perform (.claim o stored now) outside s).2 = t at ih
    cases ih with
    | nothing => exact .nothing nofun
    | drawn c => exact .drawn c nofun
    | claims c store new committed => exact .claims c store new committed nofun
  | _ => exact .nothing nofun

def Notes (s : World) (h : Happened) (t : World) : Prop :=
  t = s ∨ t = { s with trace := s.trace ++ [h] }

theorem perform_append (operationId payload : Data) (env : Outside) (s : World) :
    ∃ receipt, Notes s (.appended operationId payload receipt)
      (perform (.append operationId payload) env s).2 ∧
      ∀ x, (perform (.append operationId payload) env s).1 = .ok x → x = receipt ∧
        (perform (.append operationId payload) env s).2 =
          { s with trace := s.trace ++ [.appended operationId payload receipt] } := by
  induction env with
  | receipt value => exact ⟨value, .inr rfl, fun x told => ⟨(Except.ok.inj told).symm, rfl⟩⟩
  | lost outside failure ih =>
    obtain ⟨receipt, notes, -⟩ := ih
    exact ⟨receipt, notes, nofun⟩
  | _ => exact ⟨⟨.nil, .nil⟩, .inl rfl, nofun⟩

theorem perform_verify (receipt : AuditReceipt) (env : Outside) (s : World) :
    Notes s (.verified receipt) (perform (.verify receipt) env s).2 ∧
      ((perform (.verify receipt) env s).1 = .ok () → (perform (.verify receipt) env s).2 =
        { s with trace := s.trace ++ [.verified receipt] }) := by
  induction env with
  | done =>
    change Notes s (.verified receipt) (answer (.verify receipt) .done s).2 ∧
      ((answer (.verify receipt) .done s).1 = .ok () → (answer (.verify receipt) .done s).2 = _)
    simp only [answer]
    split
    · exact ⟨.inr rfl, fun _ => rfl⟩
    · exact ⟨.inl rfl, nofun⟩
  | lost outside failure ih => exact ⟨ih.1, nofun⟩
  | _ => exact ⟨.inl rfl, nofun⟩

theorem perform_publish (operation : DeliveryOperation) (n caller : Nat) (env : Outside)
    (s : World) : Notes s (.published operation.operationId n caller)
      (perform (.publish operation n caller) env s).2 := by
  induction env with
  | result value => exact .inr rfl
  | lost outside failure ih => exact ih
  | _ => exact .inl rfl

theorem Sound.notes {h : Happened} {t : World} (inv : Sound s) (notes : Notes s h t)
    (announced : Announced s.trace h)
    (justified : ∀ o n caller, h = .published o n caller → s.Justified o n caller) :
    Sound t ∧ Grows s t := by
  rcases notes with rfl | rfl
  · exact ⟨inv, .refl _⟩
  · refine ⟨⟨inv.history, inv.named, inv.drawn, inv.bounded, inv.matched,
      inv.announced.snoc announced, ?_, inv.names, inv.past⟩, .refl _, List.prefix_rfl,
        List.prefix_append _ _, List.prefix_rfl,
      fun _ mem => .inl mem, fun _ _ mem => .inl mem⟩
    intro o n caller mem
    rcases List.mem_append.mp mem with old | new
    · exact inv.justified o n caller old
    · exact justified o n caller (List.mem_singleton.mp new).symm

end Effects

/-! ## Rules -/

/-- What a call keeps, and what holds of its answer; its errors say nothing. -/
abbrev Keeps {A : Type} (post : A → World → Prop) (p : Method A) (s : World) : Prop :=
  Sustains perform rely (fun _ _ _ => True) (fun x t => ∀ a, x = .ok a → post a t) p.run s

abbrev Kept {A : Type} (p : Method A) (s : World) : Prop := Keeps (fun _ _ => True) p s

/-- The record of a claim: whatever is read under its identifier. -/
structure Owned (s : World) (o : Data) (c : String) (record : PendingDelivery) : Prop where
  drawn : c ∈ s.drawn
  there : record ∈ s.store.held (.delivery o)
  only : ∀ d ∈ s.store.held (.delivery o), d.claimId = some c → d = record

variable {s t : World}

theorem Owned.later {o : Data} {c : String} {record : PendingDelivery} (h : Owned s o c record)
    (grows : Grows s t) : Owned t o c record := by
  refine ⟨grows.drawn.subset h.drawn, (grows.store _).subset h.there, fun d mem is => ?_⟩
  rcases grows.fresh o d mem with old | new
  · exact h.only d old is
  · exact absurd h.drawn (new c is)

namespace Keeps

variable {A B : Type} {post : B → World → Prop} {s : World} {k : Key}
  {f : Option (Stored (Record k)) → Method B}

theorem read (next : ∀ r u t, Grows s u → Sound u → u.store.get k = r → Grows u t → Sound t →
      Keeps post (f r) t) : Keeps post (get k >>= f) s := by
  have first : Keeps (fun r t => ∃ u, Grows s u ∧ Sound u ∧ u.store.get k = r ∧ Grows u t)
      (get k) s := by
    intro t grows inv env _
    obtain ⟨same, told⟩ := perform_get (k := k) env t
    rw [same]
    refine ⟨inv, .refl t, fun u later _ r heard => ⟨t, grows, inv, (told r heard).symm, later⟩⟩
  refine .seqOk _ first fun r t _ inv read => ?_
  obtain ⟨u, grows, inv', got, later⟩ := read
  exact next r u t grows inv' got later inv

theorem seen (next : ∀ r t, Grows s t → Sound t → t.store.Seen k r → Keeps post (f r) t) :
    Keeps post (get k >>= f) s := by
  refine read fun r u t before _ got grows inv => next r t (before.trans grows) inv ?_
  rw [← got]
  exact (u.store.seen_get k).later grows.store

theorem now {f : Nat → Method B} (next : ∀ x t, Grows s t → Sound t → Keeps post (f x) t) :
    Keeps post (await .now >>= f) s := by
  refine .seqOk (fun _ _ => True) (fun t grows inv env _ => ?_) fun x t grows inv _ =>
    next x t grows inv
  rw [perform_now env t]
  exact ⟨inv, .refl t, fun _ _ _ _ _ => trivial⟩

theorem append {operationId payload : Data} {f : AuditReceipt → Method B}
    (next : ∀ receipt t, Grows s t → Sound t → .appended operationId payload receipt ∈ t.trace →
      Keeps post (f receipt) t) : Keeps post (await (.append operationId payload) >>= f) s := by
  have first : Keeps (fun receipt t => .appended operationId payload receipt ∈ t.trace)
      (await (.append operationId payload)) s := by
    intro t grows inv env _
    obtain ⟨receipt, notes, told⟩ := perform_append operationId payload env t
    obtain ⟨keeps, respects⟩ := inv.notes notes nofun nofun
    refine ⟨keeps, respects, fun u later _ x heard => ?_⟩
    obtain ⟨rfl, same⟩ := told x heard
    refine later.trace.subset ?_
    rw [same]
    simp
  exact .seqOk _ first next

theorem verify {receipt : AuditReceipt} {f : Unit → Method B}
    (next : ∀ t, Grows s t → Sound t → .verified receipt ∈ t.trace → Keeps post (f ()) t) :
    Keeps post (await (.verify receipt) >>= f) s := by
  have first : Keeps (fun _ t => .verified receipt ∈ t.trace) (await (.verify receipt)) s := by
    intro t grows inv env _
    obtain ⟨notes, told⟩ := perform_verify receipt env t
    obtain ⟨keeps, respects⟩ := inv.notes notes nofun nofun
    refine ⟨keeps, respects, fun u later _ x heard => ?_⟩
    refine later.trace.subset ?_
    rw [told heard]
    simp
  exact .seqOk _ first fun _ t grows inv there => next t grows inv there

theorem publish {operation : DeliveryOperation} {n caller : Nat} {f : DeliveryResult → Method B}
    (may : ∀ t, Grows s t → Sound t → t.Justified operation.operationId n caller ∧
      ∃ receipt, .verified receipt ∈ t.trace ∧ .appended (intentId operation.operationId n)
        (intentPayload operation n) receipt ∈ t.trace)
    (next : ∀ result t, Grows s t → Sound t → Keeps post (f result) t) :
    Keeps post (await (.publish operation n caller) >>= f) s := by
  refine .seqOk (fun _ _ => True) (fun t grows inv env _ => ?_) fun x t grows inv _ =>
    next x t grows inv
  obtain ⟨justified, receipt, verified, appended⟩ := may t grows inv
  obtain ⟨keeps, respects⟩ := inv.notes (perform_publish operation n caller env t)
    (fun _ _ _ is => by cases is; exact ⟨operation, receipt, rfl, appended, verified⟩)
    (fun _ _ _ is => by cases is; exact justified)
  exact ⟨keeps, respects, fun _ _ _ _ _ => trivial⟩

variable {writes : List (Write Key Record)}

theorem transacts (unclaimed : ∀ o v d, ⟨.delivery o, v, d⟩ ∈ writes → d.claimId = none)
    (keeps : ∀ t store, Grows s t → Sound t → t.store.Committed writes store →
      Sound { t with store }) : Kept (transact writes) s := by
  intro t grows inv env _
  rcases perform_transact writes env t with ⟨store, committed, same, -⟩ | ⟨-, same⟩
  · rw [same]
    refine ⟨keeps t store grows inv committed, ?_, fun _ _ _ _ _ => trivial⟩
    refine Grows.commit committed List.prefix_rfl fun o v d mem c is => ?_
    rw [unclaimed o v d mem] at is
    nomatch is
  · rw [same]
    exact ⟨inv, .refl t, fun _ _ _ _ _ => trivial⟩

theorem write {f : Outcome → Method B}
    (unclaimed : ∀ o v d, ⟨.delivery o, v, d⟩ ∈ writes → d.claimId = none)
    (keeps : ∀ t store, Grows s t → Sound t → t.store.Committed writes store →
      Sound { t with store }) (next : ∀ outcome t, Grows s t → Sound t → Keeps post (f outcome) t) :
    Keeps post (transact writes >>= f) s :=
  Sustains.seqOk _ (transacts unclaimed keeps) fun x t grows inv _ => next x t grows inv

theorem tries {f : Option (Option (Stored (Record k))) → Method B}
    (next : ∀ r t, Grows s t → Sound t → (∀ x, r = some x → t.store.Seen k x) →
      Keeps post (f r) t) :
    Keeps post (tryCatch (some <$> get k) (fun _ => pure none) >>= f) s := by
  have first : Keeps (fun r t => ∀ x, r = some x → t.store.Seen k x)
      (tryCatch (some <$> get k) fun _ => pure none) s := by
    refine .catches ?_
    intro t grows inv env _
    obtain ⟨same, told⟩ := perform_get (k := k) env t
    rw [same]
    refine ⟨inv, .refl t, ?_⟩
    cases heard : (perform (.get k) env t).1 with
    | error failure =>
      exact fun u _ _ =>
        ⟨nofun, fun _ _ => Sustains.returns fun _ _ _ _ same => Except.ok.inj same ▸ nofun⟩
    | ok r =>
      refine fun u later _ => ⟨fun a is b same x whose => ?_, nofun⟩
      cases is
      cases same
      cases whose
      rw [told r heard]
      exact (t.store.seen_get k).later later.store
  exact .seqOk _ first next

theorem claim {o : Data} {stored : Stored PendingDelivery} {now : Nat}
    {f : Outcome × String → Method B}
    (seen : s.store.Seen (.delivery o) (some stored)) (before : stored.value.status ≠ .delivered)
    (named : stored.value.operation.operationId = o) (next : ∀ outcome c t, Grows s t → Sound t →
      (outcome = .committed → Owned t o c (Outbox.claimed stored.value c now)) →
        Keeps post (f (outcome, c)) t) : Keeps post (await (.claim o stored now) >>= f) s := by
  have first : Keeps (fun told t => told.1 = .committed →
      Owned t o told.2 (Outbox.claimed stored.value told.2 now))
      (await (.claim o stored now)) s := by
    intro t grows inv env _
    have spec := perform_claim o stored now env t
    generalize (perform (.claim o stored now) env t).1 = told at spec
    generalize (perform (.claim o stored now) env t).2 = u at spec
    cases spec with
    | nothing refused =>
      exact ⟨inv, .refl t, fun _ _ _ a heard done => absurd (done ▸ heard) (refused a.2)⟩
    | drawn c refused =>
      refine ⟨⟨inv.history, inv.named, fun x d mem c' is => ?_, inv.bounded, inv.matched,
        inv.announced, inv.justified, inv.names, inv.past⟩,
        ⟨.refl _, List.prefix_append _ _, List.prefix_rfl, List.prefix_rfl,
        fun _ mem => .inl mem, fun _ _ mem => .inl mem⟩, fun _ _ _ a heard done => ?_⟩
      · exact List.mem_append_left _ (inv.drawn x d mem c' is)
      · exact absurd (done ▸ heard) (refused a.2)
    | claims c store new committed under =>
      have wrote := List.mem_singleton_self (⟨.delivery o, some stored.version,
        Outbox.claimed stored.value c now⟩ : Write Key Record)
      have found := committed.found (seen.later grows.store) wrote
      have only (x v d) (mem : (⟨.delivery x, v, d⟩ : Write Key Record) ∈
          [⟨.delivery o, some stored.version, Outbox.claimed stored.value c now⟩]) :
          x = o ∧ d = Outbox.claimed stored.value c now := by
        cases List.mem_singleton.mp mem
        exact ⟨rfl, rfl⟩
      refine ⟨inv.commit committed (List.prefix_append _ _) ?_ ?_ ?_,
        Grows.commit committed (List.prefix_append _ _) ?_, fun u later _ a heard done => ?_⟩
      · intro x v d mem
        obtain ⟨rfl, rfl⟩ := only x v d mem
        refine ⟨inv.succeeds found before rfl (Nat.le_succ _) fun _ => Nat.lt_succ_self _,
          named, ?_⟩
        intro c' is
        cases is
        simp
      · exact fun _ _ _ mem => nomatch List.mem_singleton.mp mem
      · exact matched_update inv committed found before nofun rfl
      · intro x v d mem c' is
        obtain ⟨-, rfl⟩ := only x v d mem
        cases is
        exact new
      · cases under a.2 (done ▸ heard)
        refine Owned.later ⟨by simp, ?_, fun d mem is => ?_⟩ later
        · rw [committed.written _ wrote]
          simp
        · rw [committed.written _ wrote] at mem
          rcases List.mem_append.mp mem with old | last
          · exact absurd (inv.drawn o d old _ is) new
          · exact List.mem_singleton.mp last
  exact .seqOk _ first fun told t grows inv owned => next told.1 told.2 t grows inv owned

theorem checked {x : Except String A} {f : A → Method B}
    (next : ∀ a, x = .ok a → Keeps post (f a) s) : Keeps post (decided x >>= f) s := by
  cases x with
  | ok a => exact next a rfl
  | error message => exact fun _ _ _ => nofun

variable {error : Failure}

theorem guard {c : Prop} [Decidable c] {p : Method B} (next : ¬c → Keeps post p s) :
    Keeps post (if c then (throw error >>= fun _ : Unit => p) else p) s :=
  Sustains.guard (fun _ _ _ _ => nofun) next

theorem throws : Keeps post (throw error) s :=
  Sustains.throws fun _ _ _ => nofun

theorem returns {b : B} (h : ∀ t, Grows s t → Sound t → post b t) : Keeps post (pure b) s :=
  Sustains.returns fun t grows inv _ same => Except.ok.inj same ▸ h t grows inv

end Keeps

/-! ## The calls -/

section Calls

variable {cfg : Config} {caller : Nat} {lane o : Data} {s t : World}

theorem Keeps.trusted {B : Type} {post : B → World → Prop} {f : Nat → Method B}
    (next : ∀ x t, Grows s t → Sound t → Keeps post (f x) t) : Keeps post (trustedNow >>= f) s := by
  have first : Keeps (fun _ _ => True) trustedNow s := by
    refine .now fun x t _ _ => ?_
    exact .guard fun _ => Keeps.returns fun _ _ _ => trivial
  exact .seqOk _ first fun x t grows inv _ => next x t grows inv

theorem finalOf_keeps (item : PendingDelivery) (result : DeliveryResult) (now : Nat) :
    (finalOf item o result now).claimId = none ∧
    (finalOf item o result now).attempt = item.attempt ∧
      (finalOf item o result now).sourceKey = item.sourceKey ∧
      (finalOf item o result now).operation = item.operation := by
  unfold finalOf
  split <;> exact ⟨rfl, rfl, rfl, rfl⟩

variable {c : String} {item : PendingDelivery}

theorem isOurs_spec (h : isOurs cfg c item = true) :
    item.claimId = some c ∧ item.status = .inflight := by
  simp only [isOurs, deliveryValid, Bool.and_eq_true, Bool.or_eq_true, beq_iff_eq,
    Option.isNone_iff_eq_none] at h
  obtain ⟨valid, ours⟩ := h
  refine ⟨ours, ?_⟩
  rcases valid.1.1.1.2 with inflight | unclaimed
  · exact inflight
  · rw [ours] at unclaimed
    nomatch unclaimed

/-- The writes that finalize a delivery, wherever they are committed. -/
def Finalizes (s : World) (writes : List (Write Key Record)) : Prop :=
  (∀ o v d, ⟨.delivery o, v, d⟩ ∈ writes → d.claimId = none) ∧
    ∀ t store, Grows s t → Sound t → t.store.Committed writes store → Sound { t with store }

variable {record : PendingDelivery} {result : DeliveryResult}

theorem finalWrites_keeps {current : Stored PendingDelivery} {now : Nat}
    (owned : Owned s o c record) (own : record.sourceKey = lane)
    (seen : s.store.Seen (.delivery o) (some current)) (ours : isOurs cfg c current.value = true) :
    Keeps (fun writes t => Finalizes t writes)
      (finalWrites lane o current (finalOf record o result now)) s := by
  obtain ⟨unclaimed, attempt, source, operation⟩ := finalOf_keeps (o := o) record result now
  obtain ⟨claim, inflight⟩ := isOurs_spec ours
  obtain rfl : current.value = record := owned.only _ (seen _ rfl).mem claim
  generalize finalOf current.value o result now = final at *
  have open_ : current.value.status ≠ .delivered := by simp [inflight]
  -- what a commit of the delivery finds and how it goes on
  have goesOn {t : World} (grows : Grows s t) (inv : Sound t) {writes store}
      (committed : t.store.Committed writes store)
      (mem : ⟨.delivery o, some current.version, final⟩ ∈ writes) :
      t.store.get (.delivery o) = some current ∧ Succeeds (t.store.held (.delivery o)) final ∧
        final.operation.operationId = o := by
    have found := committed.found (seen.later grows.store) mem
    refine ⟨found, inv.succeeds found open_ source attempt.ge (by simp [unclaimed]), ?_⟩
    rw [operation]
    exact inv.named o _ (Versioned.mem_held_of_get found)
  unfold finalWrites
  split
  next delivered =>
    refine .seen fun q t grows _ seenQueue => ?_
    cases q with
    | none => exact .throws
    | some q =>
      refine .guard fun valid => Keeps.returns fun u further _ => ⟨?_, ?_⟩
      · intro x v d mem
        simp only [List.mem_cons, List.not_mem_nil, or_false] at mem
        rcases mem with is | is <;> cases is
        exact unclaimed
      · intro w store later inv committed
        obtain ⟨found, succeeds, named⟩ := goesOn ((grows.trans further).trans later) inv committed
          (by simp)
        have queue := committed.found (seenQueue.later (further.trans later).store)
          (List.mem_cons_of_mem _ (List.mem_singleton_self _))
        refine inv.commit committed List.prefix_rfl ?_ ?_
          (matched_delivered inv committed found queue own delivered)
        · intro x v d mem
          simp only [List.mem_cons, List.not_mem_nil, or_false] at mem
          rcases mem with is | is <;> cases is
          exact ⟨succeeds, named, by simp [unclaimed]⟩
        · intro x v d mem
          simp only [List.mem_cons, List.not_mem_nil, or_false] at mem
          rcases mem with is | is <;> cases is
          exact (List.length_filter_le _ _).trans
            (inv.bounded _ _ (Versioned.mem_held_of_get queue))
  next queued =>
    refine .returns fun u further _ => ⟨?_, ?_⟩
    · intro x v d mem
      cases List.mem_singleton.mp mem
      exact unclaimed
    · intro w store later inv committed
      obtain ⟨found, succeeds, named⟩ := goesOn (further.trans later) inv committed (by simp)
      refine inv.commit committed List.prefix_rfl ?_ ?_
        (matched_update inv committed found open_ queued source)
      · intro x v d mem
        cases List.mem_singleton.mp mem
        exact ⟨succeeds, named, by simp [unclaimed]⟩
      · exact fun _ _ _ mem => nomatch List.mem_singleton.mp mem

theorem finalize_keeps {now : Nat} (owned : Owned s o c record) (own : record.sourceKey = lane)
    (n : Nat) : Kept (finalize cfg lane o c (finalOf record o result now) n) s := by
  -- each round finds the claim ours or ends; what was owned stays so
  induction n generalizing s with
  | zero => exact .returns fun _ _ _ => trivial
  | succ n ih =>
    refine .seen fun r t grows inv seen => ?_
    have still := owned.later grows
    cases r with
    | none => exact .returns fun _ _ _ => trivial
    | some current =>
      dsimp only
      split
      · exact .returns fun _ _ _ => trivial
      next ours =>
        refine .seqOk _ (finalWrites_keeps still own seen (by simpa using ours)) ?_
        rintro writes u further _ ⟨unclaimed, keeps⟩
        refine Keeps.write unclaimed keeps fun outcome w later _ => ?_
        cases outcome with
        | committed => exact .returns fun _ _ _ => trivial
        | conflict => exact ih (still.later (further.trans later))

theorem settle_keeps {n : Nat} {intent : AuditReceipt} (owned : Owned s o c record)
    (own : record.sourceKey = lane) : Kept (settle cfg lane o c n intent result) s := by
  refine .append fun receipt t1 g1 _ _ => Keeps.verify fun t2 g2 _ _ =>
    Keeps.trusted fun now t3 g3 _ => ?_
  generalize maxSafeInteger = bound
  refine .guard fun _ => Keeps.seen fun r t4 g4 _ seen => ?_
  have still := owned.later ((g1.trans g2).trans (g3.trans g4))
  cases r with
  | none => exact .returns fun _ _ _ => trivial
  | some stored =>
    dsimp only
    split
    · exact .returns fun _ _ _ => trivial
    next ours =>
      obtain ⟨claim, -⟩ := isOurs_spec (by simpa using ours)
      obtain rfl : stored.value = record := still.only _ (seen _ rfl).mem claim
      exact finalize_keeps still own 3

def Early (s : World) (caller : Nat) (o : Data) : Prop :=
  ∃ store, (caller, store) ∈ s.started ∧ ¬Delivered store o

theorem Early.later (h : Early s caller o) (grows : Grows s t) : Early t caller o := by
  obtain ⟨store, mem, open_⟩ := h
  exact ⟨store, grows.started.subset mem, open_⟩

theorem publishClaimed_keeps {now : Nat} (owned : Owned s o c (claimed item c now))
    (own : item.sourceKey = lane) (named : item.operation.operationId = o)
    (early : Early s caller o) : Kept (publishClaimed cfg caller lane o item c) s := by
  refine .append fun intent t1 g1 _ appended => Keeps.verify fun t2 g2 _ verified =>
    Keeps.seen fun r t3 g3 _ seen => Keeps.trusted fun before t4 g4 _ => ?_
  have grows := (g1.trans g2).trans (g3.trans g4)
  cases r with
  | none => exact .returns fun _ _ _ => trivial
  | some stored =>
    dsimp only
    split
    · exact .returns fun _ _ _ => trivial
    next ours =>
      refine .publish (fun t later inv => ?_) fun result t5 g5 _ =>
        settle_keeps (owned.later (grows.trans g5)) own
      subst named
      have since := ((g3.trans g4).trans later).trace
      exact ⟨⟨early.later (grows.trans later), _, (owned.later (grows.trans later)).there,
        rfl, rfl⟩, intent, since.subset verified, since.subset (g2.trace.subset appended)⟩

def Began (s : World) (caller : Nat) : Prop := ∃ store, (caller, store) ∈ s.started

theorem Began.later (h : Began s caller) (grows : Grows s t) : Began t caller := by
  obtain ⟨store, mem⟩ := h
  exact ⟨store, grows.started.subset mem⟩

theorem Began.early (h : Began s caller) (inv : Sound s) {d : Stored PendingDelivery}
    (got : s.store.get (.delivery o) = some d) (open_ : d.value.status ≠ .delivered) :
    Early s caller o := by
  obtain ⟨store, mem⟩ := h
  refine ⟨store, mem, ?_⟩
  rintro ⟨early, there, delivered⟩
  have held := (inv.past _ mem _).subset (Versioned.mem_held_of_get there)
  have same := (inv.last got).2.1 _ held delivered
  rw [same] at delivered
  exact open_ delivered

theorem attempt_keeps (began : Began s caller) : Kept (attempt cfg caller lane o) s := by
  refine .read fun r t t1 g1 inv got g2 _ => ?_
  cases r with
  | none => exact .throws
  | some stored =>
    refine .guard fun valid => Keeps.trusted fun now t2 g3 _ => ?_
    push Not at valid
    obtain ⟨-, named, own⟩ := valid
    split
    · exact .returns fun _ _ _ => trivial
    next due =>
      have open_ : stored.value.status ≠ .delivered := by
        intro delivered
        simp [notDue, delivered] at due
      have seen : t2.store.Seen (.delivery o) (some stored) :=
        (got ▸ t.store.seen_get (.delivery o)).later (g2.trans g3).store
      refine .guard fun _ => Keeps.claim seen open_ named fun outcome c u further _ owned => ?_
      cases outcome with
      | conflict => exact .returns fun _ _ _ => trivial
      | committed =>
        exact publishClaimed_keeps (owned rfl) own named
          (((began.later g1).early inv got open_).later ((g2.trans g3).trans further))

theorem drainEach_keeps (began : Began s caller) (ids : List Data) (room : Nat) (d : Drained) :
    Kept (drainEach cfg caller lane ids room d) s := by
  induction ids generalizing s room d with
  | nil => exact .returns fun _ _ _ => trivial
  | cons o rest ih =>
    cases room with
    | zero => exact .returns fun _ _ _ => trivial
    | succ room =>
      refine .seqOk _ (attempt_keeps began) fun attempted t grows _ _ => ?_
      cases attempted <;> exact ih (began.later grows) _ _

theorem drain_keeps (began : Began s caller) (n : Nat) : Kept (drain cfg caller lane n) s := by
  refine .guard fun _ => Keeps.guard fun _ => Keeps.seen fun r t grows _ _ => ?_
  cases r with
  | none => exact .returns fun _ _ _ => trivial
  | some queue =>
    refine .guard fun _ => ?_
    refine .seqOk _ (drainEach_keeps (began.later grows) _ _ _) fun counted u _ _ _ => ?_
    exact Keeps.seen fun _ _ _ _ _ => Keeps.returns fun _ _ _ => trivial

theorem enqueue_keeps (alerts : List AlertIntent) (nowMs : Nat) (others : List OtherWrite)
    (skip : Bool) : Kept (enqueue cfg lane alerts nowMs others skip) s := by
  have apart : ∀ w ∈ others.map (·.write), ∀ k, w.key ≠ .queue k ∧ w.key ≠ .delivery k := by
    intro w mem
    obtain ⟨other, -, rfl⟩ := List.mem_map.mp mem
    exact other.other
  refine .seen fun queue t _ _ seen => Keeps.checked fun plan is => ?_
  have planned := planEnqueue_planned is
  dsimp only
  split
  · rw [List.append_nil]
    exact .transacts (fun o v d mem => absurd rfl (apart _ mem o).2)
      fun u store _ inv committed => inv.aside apart committed
  · refine .transacts (fun o v d mem => ?_) fun u store grows inv committed => ?_
    · exact (planned.fresh d (mem_planWrites apart mem).1).claimId
    · exact inv.plan apart committed (committed.found (seen.later grows.store)
        (List.mem_append_right _ List.mem_cons_self)) planned

theorem assess_keeps (r : Registration) (now : Nat) (late : Bool) (n : Nat) :
    Kept (assess cfg r now late n) s := by
  induction n generalizing s with
  | zero => exact .returns fun _ _ _ => trivial
  | succ n ih =>
    refine .seen fun cursor t1 _ _ _ => ?_
    cases cursor with
    | none => exact .returns fun _ _ _ => trivial
    | some cursor =>
      dsimp only
      split
      · exact .returns fun _ _ _ => trivial
      refine .seen fun incident t2 _ _ _ => ?_
      split
      · exact .returns fun _ _ _ => trivial
      refine .checked fun decision _ => Keeps.tries fun queue t3 _ _ seen => ?_
      have apart : ∀ w ∈ checkWrites (laneKey r) cursor incident decision, ∀ k,
          w.key ≠ .queue k ∧ w.key ≠ .delivery k := by
        intro w mem k
        simp only [checkWrites, List.mem_cons, Option.mem_toList, Option.map_eq_some_iff] at mem
        rcases mem with rfl | ⟨next, -, rfl⟩ <;> exact ⟨nofun, nofun⟩
      cases queue with
      | none => exact .returns fun _ _ _ => trivial
      | some queue =>
        dsimp only
        split
        · exact .returns fun _ _ _ => trivial
        next queued is =>
          unfold planAlerts at is
          split at is
          · cases is
            refine .write (fun o v d mem => ?_) (fun u store _ inv committed => ?_)
              fun outcome u _ _ => ?_
            · exact absurd rfl (apart _ (by simpa using mem) o).2
            · exact inv.aside apart (by simpa using committed)
            · cases outcome with
              | conflict => exact ih
              | committed => exact .returns fun _ _ _ => trivial
          · obtain ⟨plan, made, rest⟩ := bind_eq_ok.mp is
            cases rest
            have planned := planEnqueue_planned made
            refine .write (fun o v d mem => ?_) (fun u store grows inv committed => ?_)
              fun outcome u _ _ => ?_
            · exact (planned.fresh d (mem_planWrites apart mem).1).claimId
            · exact inv.plan apart committed (committed.found ((seen queue rfl).later grows.store)
                (List.mem_append_right _ List.mem_cons_self)) planned
            · cases outcome with
              | conflict => exact ih
              | committed => exact .returns fun _ _ _ => trivial

theorem check_keeps (began : Began s caller) (r : Registration) (now : Nat) (late : Bool) :
    Kept (check cfg r now late caller) s := by
  refine .seqOk _ (assess_keeps r now late 8) fun checked t grows _ _ => ?_
  cases checked with
  | unbound => exact Keeps.returns fun _ _ _ => trivial
  | unknown => exact Keeps.returns fun _ _ _ => trivial
  | committed alerts =>
    refine .seqOk _ (drain_keeps (began.later grows) 10) fun _ _ _ _ _ => ?_
    exact Keeps.returns fun _ _ _ => trivial

theorem prog_keeps (request : Request)
    (began : ∀ caller, request.caller = some caller → Began s caller) :
    Kept (request.prog cfg) s := by
  cases request with
  | enqueue lane alerts nowMs others skip =>
    refine .seqOk _ (enqueue_keeps alerts nowMs others skip) fun _ _ _ _ _ => ?_
    exact Keeps.returns fun _ _ _ => trivial
  | drain caller lane n =>
    refine .seqOk _ (drain_keeps (began caller rfl) n) fun _ _ _ _ _ => ?_
    exact Keeps.returns fun _ _ _ => trivial
  | check caller r now late =>
    refine .seqOk _ (check_keeps (began caller rfl) r now late) fun _ _ _ _ _ => ?_
    exact Keeps.returns fun _ _ _ => trivial

end Calls

/-! ## Runs -/

theorem enter_keeps {request : Request} (inv : Sound s) (enters : s.enter request = some t) :
    Sound t ∧ Grows s t ∧ ∀ caller, request.caller = some caller → Began t caller := by
  unfold World.enter at enters
  split at enters
  next unnamed =>
    cases enters
    refine ⟨inv, .refl _, fun caller named => ?_⟩
    rw [unnamed] at named
    nomatch named
  next name named =>
    split at enters
    · nomatch enters
    next new =>
      cases enters
      have unused : name ∉ s.started.map Prod.fst := by
        intro mem
        obtain ⟨entry, there, rfl⟩ := List.mem_map.mp mem
        exact new (List.any_eq_true.mpr ⟨entry, there, beq_self_eq_true _⟩)
      refine ⟨⟨inv.history, inv.named, inv.drawn, inv.bounded, inv.matched, inv.announced, ?_,
        ?_, ?_⟩, ⟨.refl _, List.prefix_rfl, List.prefix_rfl, List.prefix_append _ _, ?_,
          fun _ _ mem => .inl mem⟩, ?_⟩
      · intro o n caller published
        obtain ⟨⟨store, mem, open_⟩, claim⟩ := inv.justified o n caller published
        exact ⟨⟨store, List.mem_append_left _ mem, open_⟩, claim⟩
      · rw [List.map_append, List.nodup_append]
        refine ⟨inv.names, List.nodup_singleton _, ?_⟩
        rintro a mem b last rfl
        cases List.mem_singleton.mp last
        exact unused mem
      · intro entry mem
        rcases List.mem_append.mp mem with old | last
        · exact inv.past entry old
        · rw [List.mem_singleton.mp last]
          exact .refl _
      · intro entry mem
        rcases List.mem_append.mp mem with old | last
        · exact .inl old
        · rw [List.mem_singleton.mp last]
          exact .inr (.refl _)
      · intro caller is
        rw [named] at is
        cases is
        exact ⟨s.store, by simp⟩

def anyTerms : Terms Effect (fun e => Except Failure (Ans e)) Outside Request
    (Except Failure Unit) World :=
  ⟨fun _ => True, fun _ => True, fun _ _ _ _ => True⟩

theorem rely_sound (cfg : Config) : rely.Sound (machine cfg) anyTerms (fun _ _ _ _ => True)
    (fun _ _ _ => True) where
  allowed _ := trivial
  enter inv _ enters := by
    obtain ⟨keeps, grows, began⟩ := enter_keeps inv enters
    exact ⟨keeps, grows, (prog_keeps _ began).mono fun _ _ _ _ _ => trivial⟩
  leave inv _ := ⟨inv, .refl _⟩
  remnant h := h.alone fun _ _ _ => trivial

theorem sound_empty : Sound {} where
  history _ := .nil
  named _ _ mem := nomatch mem
  drawn _ _ mem := nomatch mem
  bounded _ _ mem := nomatch mem
  matched _ _ := by constructor <;> rintro ⟨_, got, -⟩ <;> nomatch got
  announced := .nil
  justified _ _ _ mem := nomatch mem
  names := .nil
  past _ mem := nomatch mem

abbrev System : Type := Tasks Effect (fun e => Except Failure (Ans e)) Request
    (Except Failure Unit) World

theorem along_any (cfg : Config) (s : System) (events : List Event) :
    Along (Tasks.step (machine cfg)) (Tasks.Meets anyTerms) s events := by
  refine .of_forall fun s event => ?_
  cases event with
  | start i call => exact trivial
  | step i env => exact fun _ _ => trivial
  | drop i goesOn => exact fun _ _ => trivial

theorem run_sound (cfg : Config) (events more : List Event) :
    Sound (World.run cfg events) ∧ Sound (World.run cfg (events ++ more)) ∧
      Grows (World.run cfg events) (World.run cfg (events ++ more)) := by
  have now := ((Sustained.initial sound_empty).run (rely_sound cfg) (along_any cfg _ events)).1
  have later := now.run (rely_sound cfg) (along_any cfg _ more)
  unfold World.run
  rw [List.foldl_append]
  exact ⟨now.inv, later.1.inv, later.2⟩

end CorelinkRunners.Monitor.Outbox
