import CorelinkRunners.Kit.Typestate
import CorelinkRunners.Monitor.Deliveries

/-!
# What the outbox publishes

A drain holds the attempt it has claimed until it publishes it, and then it holds nothing. Two
drains never hold one attempt, for a claim counts the attempts on: so every attempt of an operation
is published at most once. With what holds of the records and the trace this is what the outbox
promises, of every run and of any number of drains.
-/

namespace CorelinkRunners.Monitor.Outbox

open Kit
open Ingest (Key Record AuditReceipt)

/-! ## The discipline -/

abbrev Pair : Type := Data × Nat

/-- Only what is held is published, and once. -/
def holding : Discipline Effect (fun e => Except Failure (Ans e)) Request (Except Failure Unit)
    (Option Pair) where
  begins _ := none
  allows _ g
    | .publish operation n _ => g = some (operation.operationId, n)
    | _ => True
  possible _ _ _ _ := True
  next _ g
    | .claim o stored _, .ok (.committed, _) => some (o, stored.value.attempt + 1)
    | .publish _ _ _, _ => none
    | _, _ => g
  ends _ _ _ := True
  left _ g _ := g

def Apart : Effect → Prop
  | .claim _ _ _ | .publish _ _ _ => False
  | _ => True

def IsOutbox (w : Write Key Record) : Prop := ∃ k, w.key = .queue k ∨ w.key = .delivery k

def Inside : Effect → Prop
  | .transact writes => ∀ w ∈ writes, IsOutbox w
  | _ => True

section Programs

variable {cfg : Config} {caller : Nat} {lane o : Data} {request : Request} {g : Option Pair}
  {e : Effect}

theorem allows_of_apart (apart : Apart e) : holding.allows request g e := by
  cases e with
  | publish operation n caller => exact absurd apart id
  | _ => trivial

theorem next_of_apart (x : Except Failure (Ans e)) (apart : Apart e) :
    holding.next request g e x = g := by
  cases e with
  | claim o stored now => exact absurd apart id
  | publish operation n caller => exact absurd apart id
  | _ => rfl

def Quiet {A : Type} (m : Method A) : Prop := Every Apart (Every.Returning fun _ => True) m.run

/-- Nor does it write anything but deliveries and queues. -/
def Modest {A : Type} (m : Method A) : Prop :=
  Every (fun e => Apart e ∧ Inside e) (Every.Returning fun _ => True) m.run

variable {A : Type} {m : Method A}

theorem Modest.quiet (h : Modest m) : Quiet m := h.weaken fun _ both => both.1

theorem trustedNow_modest : Modest trustedNow :=
  .await ⟨trivial, trivial⟩ fun _ => .guard (.returns trivial)

variable {final : PendingDelivery}

theorem finalWrites_modest {current : Stored PendingDelivery} :
    Every (fun e => Apart e ∧ Inside e) (Every.Returning fun writes => ∀ w ∈ writes, IsOutbox w)
      (finalWrites lane o current final).run := by
  unfold finalWrites
  split
  · refine .await ⟨trivial, trivial⟩ fun q => ?_
    cases q with
    | none => exact .throws
    | some q =>
      refine .guard (.returns fun w mem => ?_)
      simp only [List.mem_cons, List.not_mem_nil, or_false] at mem
      rcases mem with rfl | rfl
      · exact ⟨o, .inr rfl⟩
      · exact ⟨lane, .inl rfl⟩
  · refine .returns fun w mem => ?_
    rw [List.mem_singleton.mp mem]
    exact ⟨o, .inr rfl⟩

variable {c : String}

theorem finalize_modest (n : Nat) : Modest (finalize cfg lane o c final n) := by
  induction n with
  | zero => exact .returns trivial
  | succ n ih =>
    refine .await ⟨trivial, trivial⟩ fun r => ?_
    cases r with
    | none => exact .returns trivial
    | some current =>
      dsimp only
      split
      · exact .returns trivial
      refine .seq _ finalWrites_modest fun writes inside => .await ⟨trivial, inside⟩ fun outcome =>
        ?_
      cases outcome with
      | committed => exact .returns trivial
      | conflict => exact ih

theorem settle_modest {n : Nat} {intent : AuditReceipt} {result : DeliveryResult} :
    Modest (settle cfg lane o c n intent result) := by
  refine .await ⟨trivial, trivial⟩ fun receipt => .await ⟨trivial, trivial⟩ fun _ =>
    .seq _ trustedNow_modest fun now _ => ?_
  generalize maxSafeInteger = bound
  refine .guard (.await ⟨trivial, trivial⟩ fun r => ?_)
  cases r with
  | none => exact .returns trivial
  | some stored =>
    dsimp only
    split
    · exact .returns trivial
    · exact finalize_modest 3

theorem assess_quiet {r : Registration} {now : Nat} {late : Bool} (n : Nat) :
    Quiet (assess cfg r now late n) := by
  induction n with
  | zero => exact .returns trivial
  | succ n ih =>
    refine .await trivial fun cursor => ?_
    cases cursor with
    | none => exact .returns trivial
    | some cursor =>
      dsimp only
      split
      · exact .returns trivial
      refine .await trivial fun incident => ?_
      split
      · exact .returns trivial
      refine .checked fun decision _ => .seq (fun _ => True) ?_ fun queue _ => ?_
      · exact .catches (.map (.effect trivial)) fun _ => .returns trivial
      cases queue with
      | none => exact .returns trivial
      | some queue =>
        dsimp only
        split
        · exact .returns trivial
        refine .await trivial fun outcome => ?_
        cases outcome with
        | conflict => exact ih
        | committed => exact .returns trivial

/-- The call keeps to the discipline, whatever it answers. -/
abbrev Holds (request : Request) {A : Type} (m : Method A) (g : Option Pair) : Prop :=
  Obeys holding request (fun _ _ => True) m.run g

theorem Holds.quiet (quiet : Quiet m) : Holds request m g :=
  (Obeys.every quiet (fun _ apart => allows_of_apart apart) fun _ x apart =>
    next_of_apart x apart).mono
    fun _ _ _ => trivial

variable {B : Type} {f : A → Method B}

theorem Holds.after (quiet : Quiet m) (rest : ∀ a, Holds request (f a) g) :
    Holds request (m >>= f) g := by
  have first : Obeys holding request (fun x g' => Every.Returning (fun _ => True) x ∧ g' = g)
      m.run g :=
    .every quiet (fun _ apart => allows_of_apart apart) fun _ x apart => next_of_apart x apart
  refine Obeys.seq (fun _ g' => g' = g) (first.mono fun x g' => ?_) fun a g' => ?_
  · rintro ⟨-, rfl⟩
    exact ⟨fun _ _ => rfl, fun _ _ => trivial⟩
  · rintro rfl
    exact rest a

theorem Holds.last (first : Holds request m g) (rest : ∀ a g', Holds request (f a) g') :
    Holds request (m >>= f) g :=
  Obeys.seq (fun _ _ => True) (first.mono fun _ _ _ => ⟨fun _ _ => trivial, fun _ _ => trivial⟩)
    fun a g' _ => rest a g'

theorem Holds.guard {c : Prop} [Decidable c] {error : Failure} {p : Method A}
    (next : ¬c → Holds request p g) :
    Holds request (if c then (throw error >>= fun _ : Unit => p) else p) g := by
  split
  · exact trivial
  next not => exact next not

theorem publishClaimed_holds {item : PendingDelivery} (named : item.operation.operationId = o) :
    Holds request (publishClaimed cfg caller lane o item c) (some (o, item.attempt + 1)) := by
  refine .after (.effect trivial) fun intent => .after (.effect trivial) fun _ =>
    .after (.effect trivial) fun r => .after trustedNow_modest.quiet fun now => ?_
  cases r with
  | none => exact trivial
  | some stored =>
    dsimp only
    split
    · exact trivial
    refine ⟨congrArg (fun o => some (o, item.attempt + 1)) named.symm, fun x _ => ?_⟩
    cases x with
    | ok result => exact Holds.quiet settle_modest.quiet
    | error failure => exact trivial

theorem attempt_holds : Holds request (attempt cfg caller lane o) g := by
  refine .after (.effect trivial) fun r => ?_
  cases r with
  | none => exact trivial
  | some stored =>
    refine .guard fun valid => .after trustedNow_modest.quiet fun now => ?_
    push Not at valid
    split
    · exact trivial
    refine .guard fun _ => ⟨trivial, fun x _ => ?_⟩
    match x with
    | .error failure => exact trivial
    | .ok (.conflict, c) => exact trivial
    | .ok (.committed, c) => exact publishClaimed_holds valid.2.1

theorem drainEach_holds (ids : List Data) (room : Nat) (d : Drained) :
    Holds request (drainEach cfg caller lane ids room d) g := by
  induction ids generalizing g room d with
  | nil => exact trivial
  | cons o rest ih =>
    cases room with
    | zero => exact trivial
    | succ room =>
      refine .last attempt_holds fun attempted g' => ?_
      cases attempted <;> exact ih _ _

theorem drain_holds (n : Nat) : Holds request (drain cfg caller lane n) g := by
  refine .guard fun _ => .guard fun _ => .after (.effect trivial) fun r => ?_
  cases r with
  | none => exact trivial
  | some queue =>
    refine .guard fun _ => .last (drainEach_holds _ _ _) fun counted g' => ?_
    exact .after (.effect trivial) fun _ => trivial

theorem prog_holds (request : Request) : Holds request (request.prog cfg) g := by
  cases request with
  | enqueue lane alerts nowMs others skip =>
    exact .after (.await trivial fun _ => .checked fun _ _ => .effect trivial) fun _ => trivial
  | drain caller lane n => exact .last (drain_holds n) fun _ _ => trivial
  | check caller r now late =>
    refine .last ?_ fun _ _ => trivial
    refine .after (assess_quiet 8) fun checked => ?_
    cases checked with
    | unbound => exact trivial
    | unknown => exact trivial
    | committed alerts => exact .last (drain_holds 10) fun _ _ => trivial

end Programs

/-! ## What is published -/

def Happened.publication : Happened → Option Pair
  | .published o n _ => some (o, n)
  | _ => none

def World.publications (s : World) : List Pair := s.trace.filterMap Happened.publication

section Effects

variable {s t : World} {p : Pair}

theorem mem_publications : p ∈ s.publications ↔ ∃ caller, .published p.1 p.2 caller ∈ s.trace := by
  simp only [World.publications, List.mem_filterMap]
  constructor
  · rintro ⟨h, mem, is⟩
    cases h with
    | published o n caller =>
      cases is
      exact ⟨caller, mem⟩
    | appended operationId payload receipt => nomatch is
    | verified receipt => nomatch is
  · rintro ⟨caller, mem⟩
    exact ⟨_, mem, rfl⟩

theorem Notes.publications {h : Happened} (notes : Notes s h t) (other : h.publication = none) :
    t.publications = s.publications := by
  rcases notes with rfl | rfl
  · rfl
  · simp [World.publications, other]

theorem publications_of_apart {e : Effect} (apart : Apart e) (env : Outside) (s : World) :
    (perform e env s).2.publications = s.publications := by
  cases e with
  | get k => rw [(perform_get env s).1]
  | now => rw [perform_now env s]
  | transact writes =>
    rcases perform_transact writes env s with ⟨store, -, same, -⟩ | ⟨-, same⟩ <;> rw [same]
    rfl
  | append operationId payload =>
    obtain ⟨receipt, notes, -⟩ := perform_append operationId payload env s
    exact notes.publications rfl
  | verify receipt => exact (perform_verify receipt env s).1.publications rfl
  | claim o stored now => exact absurd apart id
  | publish operation n caller => exact absurd apart id

end Effects

/-! ## The joint invariant -/

/-- No two tasks hold one attempt, and none holds one that is published. -/
structure Exclusive (s : World) (gs : Stages Request (Option Pair)) : Prop where
  claimed : ∀ i call p, gs i = some (call, some p) →
    (∃ d ∈ s.store.held (.delivery p.1), d.attempt = p.2) ∧ p ∉ s.publications
  alone : ∀ i j call call' p, gs i = some (call, some p) → gs j = some (call', some p) → i = j
  once : s.publications.Nodup

def steady : Terms Effect (fun e => Except Failure (Ans e)) Outside Request
    (Except Failure Unit) World where
  starts _ := True
  drops _ := True
  performs t _ e env := Sound t.shared ∧ Sound (perform e env t.shared).2 ∧
    Grows t.shared (perform e env t.shared).2

section Invariant

variable {s t : World} {gs gs' : Stages Request (Option Pair)} {i : Nat} {call : Request}
  {g : Option Pair}

theorem Exclusive.mono (h : Exclusive s gs) (store : s.store.Extends t.store)
    (same : t.publications = s.publications)
    (fewer : ∀ j call p, gs' j = some (call, some p) → gs j = some (call, some p)) :
    Exclusive t gs' := by
  refine ⟨fun j call p at_j => ?_, fun j k call call' p at_j at_k => ?_, same ▸ h.once⟩
  · obtain ⟨⟨d, mem, is⟩, unpublished⟩ := h.claimed j call p (fewer j call p at_j)
    exact ⟨⟨d, (store _).subset mem, is⟩, same ▸ unpublished⟩
  · exact h.alone j k call call' p (fewer j call p at_j) (fewer k call' p at_k)

variable {stage : Option (Request × Option Pair)}

theorem held_set {j : Nat} {c : Request} {p : Pair} (at_j : gs.set i stage j = some (c, some p)) :
    (j = i ∧ stage = some (c, some p)) ∨ (j ≠ i ∧ gs j = some (c, some p)) := by
  by_cases same : j = i
  · subst same
    rw [Stages.set_self] at at_j
    exact .inl ⟨rfl, at_j⟩
  · rw [Stages.set_other gs same] at at_j
    exact .inr ⟨same, at_j⟩

theorem Exclusive.stays (h : Exclusive s gs) (at_i : gs i = some (call, g))
    (store : s.store.Extends t.store) (same : t.publications = s.publications) :
    Exclusive t (gs.set i (some (call, g))) := by
  refine h.mono store same fun j c p at_j => ?_
  rcases held_set at_j with ⟨rfl, is⟩ | ⟨-, other⟩
  · rw [at_i, is]
  · exact other

theorem Exclusive.leaves (h : Exclusive s gs) (empty : ∀ c p, stage ≠ some (c, some p)) :
    Exclusive s (gs.set i stage) := by
  refine h.mono (.refl _) rfl fun j c p at_j => ?_
  rcases held_set at_j with ⟨-, is⟩ | ⟨-, other⟩
  · exact absurd is (empty c p)
  · exact other

variable {o : Data}

theorem Exclusive.claims (h : Exclusive s gs) (before : Sound s) (after : Sound t)
    {d : PendingDelivery} (written : t.store.held (.delivery o) = s.store.held (.delivery o) ++ [d])
    (claim : d.claimId.isSome) (store : s.store.Extends t.store)
    (same : t.publications = s.publications) :
    Exclusive t (gs.set i (some (call, some (o, d.attempt)))) := by
  have above := (after.history o _ d [] written).claims claim
  have nobody (j c) (held : gs j = some (c, some (o, d.attempt))) : False := by
    obtain ⟨⟨p, mem, is⟩, -⟩ := h.claimed j c _ held
    exact absurd is (above p mem).ne
  refine ⟨fun j c p at_j => ?_, fun j k c c' p at_j at_k => ?_, same ▸ h.once⟩
  · rcases held_set at_j with ⟨-, is⟩ | ⟨-, other⟩
    · cases is
      refine ⟨⟨d, by simp [written], rfl⟩, ?_⟩
      rw [same, mem_publications]
      rintro ⟨caller, published⟩
      obtain ⟨-, p, mem, is, -⟩ := before.justified _ _ _ published
      exact absurd is (above p mem).ne
    · obtain ⟨⟨p', mem, is⟩, unpublished⟩ := h.claimed j c p other
      exact ⟨⟨p', (store _).subset mem, is⟩, same ▸ unpublished⟩
  · rcases held_set at_j with ⟨rfl, is⟩ | ⟨-, other⟩
    · rcases held_set at_k with ⟨rfl, -⟩ | ⟨-, other'⟩
      · rfl
      · cases is
        exact absurd other' fun held => nobody k c' held
    · rcases held_set at_k with ⟨-, is⟩ | ⟨-, other'⟩
      · cases is
        exact absurd other fun held => nobody j c held
      · exact h.alone j k c c' p other other'

theorem Exclusive.publishes (h : Exclusive s gs) {n caller : Nat}
    (at_i : gs i = some (call, some (o, n))) (notes : Notes s (.published o n caller) t) :
    Exclusive t (gs.set i (some (call, none))) := by
  rcases notes with rfl | rfl
  · exact h.leaves nofun
  · obtain ⟨-, unpublished⟩ := h.claimed i call _ at_i
    have more : World.publications { s with trace := s.trace ++ [.published o n caller] } =
        s.publications ++ [(o, n)] := by
      simp [World.publications, Happened.publication]
    refine ⟨fun j c p at_j => ?_, fun j k c c' p at_j at_k => ?_, ?_⟩
    · rcases held_set at_j with ⟨-, is⟩ | ⟨apart, other⟩
      · cases is
      · obtain ⟨claimed, fresh⟩ := h.claimed j c p other
        refine ⟨claimed, ?_⟩
        rw [more]
        simp only [List.mem_append, List.mem_singleton, not_or]
        refine ⟨fresh, ?_⟩
        rintro rfl
        exact apart (h.alone j i c call _ other at_i)
    · rcases held_set at_j with ⟨-, is⟩ | ⟨-, other⟩
      · cases is
      · rcases held_set at_k with ⟨-, is⟩ | ⟨-, other'⟩
        · cases is
        · exact h.alone j k c c' p other other'
    · rw [more]
      refine List.nodup_append.mpr ⟨h.once, List.nodup_singleton _, ?_⟩
      rintro a mem b last rfl
      rw [List.mem_singleton.mp last] at mem
      exact unpublished mem

theorem enter_exclusive {request : Request} (h : Exclusive s gs)
    (enters : s.enter request = some t) : Exclusive t (gs.set i (some (request, none))) := by
  have same : t.store = s.store ∧ t.trace = s.trace := by
    unfold World.enter at enters
    split at enters
    · exact Option.some.inj enters ▸ ⟨rfl, rfl⟩
    split at enters
    · nomatch enters
    · exact Option.some.inj enters ▸ ⟨rfl, rfl⟩
  have unchanged : Exclusive t gs :=
    h.mono (.of_eq same.1.symm) (by rw [World.publications, same.2, World.publications])
      fun _ _ _ is => is
  exact unchanged.leaves nofun

/-- **One effect**: what it claims nobody held, and what it publishes nobody else holds. -/
theorem perform_exclusive {e : Effect} {env : Outside} (h : Exclusive s gs)
    (at_i : gs i = some (call, g)) (allowed : holding.allows call g e) (before : Sound s)
    (after : Sound (perform e env s).2) (grows : Grows s (perform e env s).2) :
    Exclusive (perform e env s).2
      (gs.set i (some (call, holding.next call g e (perform e env s).1))) := by
  by_cases apart : Apart e
  · rw [next_of_apart _ apart]
    exact h.stays at_i grows.store (publications_of_apart apart env s)
  cases e with
  | claim o stored now =>
    have spec := perform_claim o stored now env s
    generalize (perform (.claim o stored now) env s).1 = told at spec ⊢
    generalize (perform (.claim o stored now) env s).2 = t at *
    have stays (refused : ∀ c, told ≠ .ok (.committed, c)) :
        holding.next call g (.claim o stored now) told = g := by
      match told with
      | .error failure => rfl
      | .ok (.conflict, c) => rfl
      | .ok (.committed, c) => exact absurd rfl (refused c)
    cases spec with
    | nothing refused =>
      rw [stays refused]
      exact h.stays at_i grows.store rfl
    | drawn c refused =>
      rw [stays refused]
      exact h.stays at_i grows.store rfl
    | claims c store new committed under =>
      match told with
      | .error failure => exact h.stays at_i grows.store rfl
      | .ok (.conflict, c') => exact h.stays at_i grows.store rfl
      | .ok (.committed, c') =>
        exact h.claims before after (committed.written _ (List.mem_singleton_self _))
          rfl grows.store rfl
  | publish operation n caller =>
    have notes := perform_publish operation n caller env s
    exact h.publishes (allowed ▸ at_i) notes
  | _ => exact absurd trivial apart

end Invariant

theorem holding_sound (cfg : Config) : holding.Sound (machine cfg) steady Exclusive where
  enter h _ _ enters := enter_exclusive h enters
  perform h _ at_i allowed steady := ⟨trivial,
    perform_exclusive h at_i allowed steady.1 steady.2.1 steady.2.2⟩
  finish h _ _ := h.leaves nofun
  drop h at_i _ _ _ _ := ⟨h.leaves nofun, h.stays at_i (.refl _) rfl⟩

theorem holding_covers (cfg : Config) : holding.Covers (machine cfg) steady where
  prog request _ := prog_holds request
  remnant _ _ _ _ _ allowed _ := ⟨allowed, fun _ _ => trivial⟩

theorem publications_nodup (cfg : Config) (events : List Event) :
    (World.run cfg events).publications.Nodup := by
  have along : Along (Tasks.step (machine cfg)) (Tasks.Meets steady) (Tasks.initial {}) events := by
    refine ((Sustained.initial sound_empty).along (rely_sound cfg) (along_any cfg _ events)).mono ?_
    rintro s event ⟨before, after, grows⟩
    cases event with
    | start i call => exact trivial
    | drop i goesOn => exact fun _ _ => trivial
    | step i env =>
      rintro ⟨call, e⟩ asked
      rw [Tasks.step_shared asked] at after grows
      exact ⟨before, after, grows⟩
  have empty : Exclusive {} fun _ => none := ⟨nofun, nofun, .nil⟩
  obtain ⟨gs, inv, -⟩ := Tasks.Staged.run (holding_sound cfg) (holding_covers cfg) along
    (.initial empty)
  exact inv.once

/-- **The outbox loses and repeats nothing.** Of every run of enqueues, checks and drains, cut
anywhere, and of every run that goes on with it:

* an operation is in the queue of a lane exactly when its delivery is one of the lane and waits;
* a delivered record stays as it is, and only calls that have started by then ever publish it;
* no attempt of an operation is published twice, and each was written ahead and verified;
* the attempts of a record only grow, and no queue has more than a hundred entries. -/
theorem outbox_exact (cfg : Config) (events more : List Event) :
    let s := World.run cfg events
    let t := World.run cfg (events ++ more)
    (∀ lane o, Queued s.store lane o ↔ Waiting s.store lane o) ∧
      (∀ o d, s.store.get (.delivery o) = some d → d.value.status = .delivered →
        t.store.get (.delivery o) = some d ∧
          ∀ n caller, .published o n caller ∈ t.trace → caller ∈ s.started.map Prod.fst) ∧
      s.publications.Nodup ∧ Traced Announced s.trace ∧
      (∀ o d d', s.store.get (.delivery o) = some d → t.store.get (.delivery o) = some d' →
        d.value.attempt ≤ d'.value.attempt) ∧
      ∀ lane q, s.store.get (.queue lane) = some q → q.value.pendingOperationIds.length ≤ 100 := by
  intro s t
  obtain ⟨now, later, grows⟩ := run_sound cfg events more
  refine ⟨now.matched, fun o d got delivered => ⟨?_, fun n caller published => ?_⟩,
    publications_nodup cfg events, now.announced, fun o d d' got got' => ?_, fun lane q got => ?_⟩
  · rw [← got]
    exact Versioned.get_congr (later.stays grows.store got delivered)
  · obtain ⟨⟨store, mem, undelivered⟩, -⟩ := later.justified o n caller published
    rcases grows.later _ mem with started | after
    · exact List.mem_map_of_mem started
    · -- the store it started with is between the two, and had the record
      refine absurd ⟨d, ?_, delivered⟩ undelivered
      rw [← got]
      refine Versioned.get_congr ((after _).eq_of_length_le ?_).symm
      rw [← later.stays grows.store got delivered]
      exact (later.past _ mem _).length_le
  · exact (later.last got').1 _ ((grows.store _).subset (Versioned.mem_held_of_get got))
  · exact now.bounded lane _ (Versioned.mem_held_of_get got)

end CorelinkRunners.Monitor.Outbox
