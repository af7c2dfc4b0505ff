import CorelinkRunners.Monitor.Witness

/-!
# The witness endorses one chain

However the calls of `accept` interleave, and wherever they are cut, the checkpoints the head has
moved to are one chain, and every receipt a call returned is the receipt of a checkpoint of it. A
checkpoint that is pending may be signed and journalled, but its receipt is returned only after the
head moved to it.

The heads of the witness are the values its head record has held. The head that a call moves has the
version of the head it checked the checkpoint against, so each follows the one before it.
-/

namespace CorelinkRunners.Monitor.Witness

open Kit

variable {cfg : Config} {order : LinearOrder Key} {s t : World}

/-! ## The chain -/

structure Follows (before : List Head) (h : Head) : Prop where
  sequence : h.checkpoint.sequence = before.length + 1
  counts : h.sequence = h.checkpoint.sequence
  root : h.checkpointRoot = checkpointRootFor h.checkpoint
  previousRoot : h.checkpoint.previousRoot = before.getLast?.elim zeroRoot (·.checkpointRoot)
  receiptSequence : h.receipt.sequence = h.checkpoint.sequence
  receiptRoot : h.receipt.checkpointRoot = h.checkpointRoot
  witnessRoot : h.witnessRoot = witnessRootFor h.receipt
  previousWitnessRoot : h.receipt.previousWitnessRoot = before.getLast?.elim zeroRoot
    (·.witnessRoot)

def World.heads (s : World) : List Head := s.store.held .head

def World.Endorsed (s : World) (c : SignedCheckpoint) (r : WitnessReceipt) : Prop :=
  ∃ h ∈ s.heads, h.checkpoint = c ∧ h.receipt = r

def World.Reserved (cfg : Config) (s : World) (c : SignedCheckpoint) : Prop :=
  s.store.held (pendingKey (operationIdOf cfg.logId c)) ≠ []

structure Sound (cfg : Config) (s : World) : Prop where
  chain : Traced Follows s.heads
  operations : ∀ c, ∀ operation : Operation,
    operation ∈ s.store.held (operationKey (operationIdOf cfg.logId c)) →
      operation.checkpoint = c ∧ s.Endorsed c operation.receipt
  pendings : ∀ c, ∀ pending : Pending,
    pending ∈ s.store.held (pendingKey (operationIdOf cfg.logId c)) →
      pending.checkpoint = c ∧ pending.witnessRoot = witnessRootFor pending.receipt
  reserved : ∀ h ∈ s.heads, s.Reserved cfg h.checkpoint
  answers : ∀ a ∈ s.answers, s.Endorsed a.1 a.2

variable {c : SignedCheckpoint}

theorem operationIdOf_inj {logId : String} {d : SignedCheckpoint} :
    operationIdOf logId c = operationIdOf logId d ↔ c = d := by
  constructor
  · intro h
    cases c
    cases d
    simp_all [operationIdOf, checkpointJson, signedTuple]
  · exact congrArg _

variable {r : WitnessReceipt}

theorem World.Endorsed.later (h : s.Endorsed c r) (grows : s.store.Extends t.store) :
    t.Endorsed c r := by
  obtain ⟨head, mem, same⟩ := h
  exact ⟨head, (grows .head).subset mem, same⟩

theorem World.Reserved.later (h : s.Reserved cfg c) (grows : s.store.Extends t.store) :
    t.Reserved cfg c := by
  intro empty
  have shorter := grows (pendingKey (operationIdOf cfg.logId c))
  rw [empty] at shorter
  exact h (List.prefix_nil.mp shorter)

theorem Sound.congr (h : Sound cfg s) (store : t.store = s.store)
    (answers : t.answers = s.answers) : Sound cfg t := by
  obtain ⟨chain, operations, pendings, reserved, returned⟩ := h
  have heads : t.heads = s.heads := congrArg (fun x => x.held .head) store
  have endorsed (c : SignedCheckpoint) (r : WitnessReceipt) : t.Endorsed c r ↔ s.Endorsed c r := by
    unfold World.Endorsed
    rw [heads]
  refine ⟨heads ▸ chain, ?_, ?_, ?_, ?_⟩
  · intro c operation
    rw [store, endorsed]
    exact operations c operation
  · intro c pending
    rw [store]
    exact pendings c pending
  · rw [heads]
    exact fun h mem => (reserved h mem).later (.of_eq store.symm)
  · intro a
    rw [answers, endorsed]
    exact returned a

def rely (cfg : Config) : Rely World where
  Inv := Sound cfg
  Grows s t := s.store.Extends t.store
  refl s := .refl s.store
  trans first second := first.trans second

/-! ## The steps of a call -/

section Effects

variable (order)

theorem answer_other {e : Effect} (quiet : ∀ writes, e ≠ .store (.transact writes)) (o : Outside)
    (s : World) : (answer order e o s).2.store = s.store ∧
      (answer order e o s).2.answers = s.answers := by
  cases e with
  | store request =>
    cases request with
    | transact writes => exact absurd rfl (quiet writes)
    | get k => cases o <;> exact ⟨rfl, rfl⟩
    | scan family cursor => cases o <;> exact ⟨rfl, rfl⟩
  | _ => cases o <;> exact ⟨rfl, rfl⟩

theorem perform_other {e : Effect} (quiet : ∀ writes, e ≠ .store (.transact writes)) (o : Outside)
    (s : World) : (perform order e o s).2.store = s.store ∧
      (perform order e o s).2.answers = s.answers := by
  induction o with
  | lost done message ih => exact ih
  | fails message => exact ⟨rfl, rfl⟩
  | _ => exact answer_other order quiet _ s

theorem perform_get {k : Key} {o : Outside} {r : Option (Stored (Record k))}
    (h : (perform order (.store (.get k)) o s).1 = .ok r) : r = s.store.get k := by
  cases o with
  | done size => exact (Except.ok.inj h).symm
  | _ => nomatch h

theorem perform_transact (writes : List (Write Key Record)) (o : Outside) (s : World) :
    (perform order (.store (.transact writes)) o s).2.answers = s.answers ∧
    (s.store.Committed writes (perform order (.store (.transact writes)) o s).2.store ∨
      ((perform order (.store (.transact writes)) o s).1 ≠ .ok .committed ∧
        (perform order (.store (.transact writes)) o s).2.store = s.store)) := by
  induction o with
  | lost done message ih =>
    obtain ⟨answers, committed | ⟨-, same⟩⟩ := ih
    · exact ⟨answers, .inl committed⟩
    · exact ⟨answers, .inr ⟨nofun, same⟩⟩
  | done size =>
    refine ⟨rfl, ?_⟩
    change s.store.Committed writes (Monitor.transact s.store writes).2 ∨
      (raise (Monitor.transact s.store writes).1 ≠ .ok .committed ∧
        (Monitor.transact s.store writes).2 = s.store)
    rcases transact_cases s.store writes with ⟨-, committed⟩ | ⟨refused, same⟩
    · exact .inl committed
    · refine .inr ⟨fun heard => refused ?_, same⟩
      revert heard
      cases (Monitor.transact s.store writes).1 with
      | error e => exact nofun
      | ok outcome => exact fun heard => congrArg Except.ok (Except.ok.inj heard)
  | _ => exact ⟨rfl, .inr ⟨nofun, rfl⟩⟩

end Effects

/-- What a call keeps, and what holds of its answer; its errors say nothing. -/
abbrev Keeps {A : Type} (cfg : Config) (order : LinearOrder Key) (post : A → World → Prop)
    (p : Method A) (s : World) : Prop :=
  Sustains (perform order) (rely cfg) (fun _ _ _ => True) (fun x t => ∀ a, x = .ok a → post a t)
    p.run s

namespace Keeps

variable {A B : Type} {post : B → World → Prop}

theorem ask {e : Effect} {f : Ans e → Method B} (quiet : ∀ writes, e ≠ .store (.transact writes))
    (next : ∀ x t, s.store.Extends t.store → Sound cfg t → Keeps cfg order post (f x) t) :
    Keeps cfg order post (await e >>= f) s := by
  refine .seqOk (fun _ _ => True) (.await fun t grows inv o _ => ?_)
    fun x t grows inv _ => next x t grows inv
  obtain ⟨store, answers⟩ := perform_other order quiet o t
  exact ⟨Sound.congr inv store answers, .of_eq store.symm, fun _ _ _ _ _ => trivial⟩

theorem read {k : Key} {f : Option (Stored (Record k)) → Method B}
    (next : ∀ r t, s.store.Extends t.store → Sound cfg t → t.store.Seen k r →
      Keeps cfg order post (f r) t) : Keeps cfg order post (get k >>= f) s := by
  have first : Keeps cfg order (fun r t => t.store.Seen k r) (get k) s := by
    refine fun t grows inv o _ => ?_
    obtain ⟨store, answers⟩ := perform_other order (fun _ => nofun : ∀ writes,
      Effect.store (.get k) ≠ .store (.transact writes)) o t
    refine ⟨Sound.congr inv store answers, .of_eq store.symm, fun u later _ r heard => ?_⟩
    rw [perform_get order heard]
    exact (t.store.seen_get k).later ((Versioned.Extends.of_eq store.symm).trans later)
  exact .seqOk _ first next

theorem write {writes : List (Write Key Record)} {f : Outcome → Method B}
    (keeps : ∀ t t' : World, s.store.Extends t.store → Sound cfg t →
      t.store.Committed writes t'.store → t'.answers = t.answers → Sound cfg t')
    (next : ∀ outcome t, s.store.Extends t.store → Sound cfg t →
      (outcome = .committed → ∀ w ∈ writes, w.value ∈ t.store.held w.key) →
      Keeps cfg order post (f outcome) t) : Keeps cfg order post (transact writes >>= f) s := by
  have first : Keeps cfg order (fun outcome t => outcome = .committed →
      ∀ w ∈ writes, w.value ∈ t.store.held w.key) (transact writes) s := by
    refine fun t grows inv o _ => ?_
    obtain ⟨answers, committed | ⟨refused, same⟩⟩ := perform_transact order writes o t
    · refine ⟨keeps t _ grows inv committed answers, committed.extends_,
        fun u later _ _ _ _ w mem => ?_⟩
      refine (later w.key).subset ?_
      rw [committed.written w mem]
      exact List.mem_append_right _ (List.mem_singleton_self _)
    · refine ⟨Sound.congr inv same answers, .of_eq same.symm, fun _ _ _ outcome heard done => ?_⟩
      subst done
      exact absurd heard refused
  exact .seqOk _ first next

theorem check {x : Except Failure A} {f : A → Method B}
    (next : ∀ a, x = .ok a → Keeps cfg order post (f a) s) :
    Keeps cfg order post (Witness.check x >>= f) s :=
  Sustains.checked (fun _ _ _ _ _ => nofun) next

theorem guard {c : Prop} [Decidable c] {error : Failure} {p : Method B}
    (next : ¬c → Keeps cfg order post p s) :
    Keeps cfg order post (if c then (throw error >>= fun _ : Unit => p) else p) s :=
  Sustains.guard (fun _ _ _ _ => nofun) next

theorem throws {error : Failure} : Keeps cfg order post (throw error) s :=
  Sustains.throws fun _ _ _ => nofun

theorem returns {b : B} (h : ∀ t, s.store.Extends t.store → Sound cfg t → post b t) :
    Keeps cfg order post (pure b) s :=
  Sustains.returns fun t grows inv _ same => Except.ok.inj same ▸ h t grows inv

end Keeps

/-! ## What the checks say -/

theorem receipt_of_relation {root : Data} {previous : Option Data}
    (h : validateReceiptRelation cfg c r root previous = .ok ()) :
    r.sequence = c.sequence ∧ r.checkpointRoot = root ∧
      ∀ p, previous = some p → r.previousWitnessRoot = p := by
  unfold validateReceiptRelation at h
  split at h
  · nomatch h
  next fine =>
    simp only [Bool.or_eq_true, not_or, bne_iff_ne, ne_eq, not_not] at fine
    refine ⟨fine.1.1.1.1.1.1.2, fine.1.1.1.1.1.2, ?_⟩
    rintro p rfl
    have same : p = r.previousWitnessRoot := by simpa using fine.2
    exact same.symm

/-- A pending record with which the head can move to the checkpoint. -/
structure Prepared (c : SignedCheckpoint) (previousWitnessRoot : Data) (pending : Pending) :
    Prop where
  checkpoint : pending.checkpoint = c
  witnessRoot : pending.witnessRoot = witnessRootFor pending.receipt
  sequence : pending.receipt.sequence = c.sequence
  root : pending.receipt.checkpointRoot = checkpointRootFor c
  previous : pending.receipt.previousWitnessRoot = previousWitnessRoot

theorem prepared_of_check {previous : Data} {pending : Pending}
    (h : checkPending cfg c pending previous = .ok ()) : Prepared c previous pending := by
  simp only [checkPending, refuse, guard_eq_ok, bind_eq_ok, not_or, not_not] at h
  obtain ⟨same, -, _, -, root, _, relation, -⟩ := h
  obtain ⟨sequence, receiptRoot, previous⟩ := receipt_of_relation relation
  exact ⟨same, root, same ▸ sequence, receiptRoot, previous _ rfl⟩

/-! ## The methods -/

section Methods

variable {c : SignedCheckpoint}

theorem validateJournal_keeps (receipt : JournalReceipt) (c : SignedCheckpoint)
    (response : WitnessReceipt) (operationId root : Data) :
    Keeps cfg order (fun _ _ => True) (validateJournal receipt c response operationId root) s := by
  refine .guard fun _ => Keeps.ask nofun fun record t _ _ => ?_
  split
  · exact .throws
  · exact .returns fun _ _ _ => trivial

theorem recheck_keeps (operation : Operation) (operationId root : Data) :
    Keeps cfg order (fun r _ => r = operation.receipt)
    (recheck cfg operation operationId root) s := by
  refine .check fun _ _ => Keeps.check fun _ _ => ?_
  refine .seqOk _ (validateJournal_keeps _ _ _ _ _) fun _ t _ _ _ => ?_
  exact Keeps.returns fun _ _ _ => rfl

theorem validateStoredHead_keeps (stored : Option (Stored Head)) :
    Keeps cfg order (fun r _ => r = stored) (validateStoredHead cfg stored) s := by
  cases stored with
  | none => exact .returns fun _ _ _ => rfl
  | some head =>
    refine .check fun _ _ => ?_
    refine .seqOk _ (validateJournal_keeps _ _ _ _ _) fun _ t _ _ _ => ?_
    exact Keeps.returns fun _ _ _ => rfl

theorem signReceipt_keeps (c : SignedCheckpoint) (previous : Data) (trustedAtMs : Nat) :
    Keeps cfg order (fun r _ => r.sequence = c.sequence ∧ r.checkpointRoot = checkpointRootFor c ∧
      r.previousWitnessRoot = previous) (signReceipt cfg c previous trustedAtMs) s := by
  refine .check fun bytes _ => Keeps.ask nofun fun signature t _ _ => ?_
  refine .guard fun _ => Keeps.check fun _ _ => Keeps.guard fun _ => ?_
  exact .returns fun _ _ _ => ⟨rfl, rfl, rfl⟩

variable {operation : Operation}

theorem found_keeps (inv : Sound cfg s)
    (found : operation ∈ s.store.held (operationKey (operationIdOf cfg.logId c))) (root : Data) :
    Keeps cfg order (fun r t => t.Endorsed c r)
      (recheck cfg operation (operationIdOf cfg.logId c) root) s := by
  refine (recheck_keeps operation _ root).mono fun x t grows _ same r heard => ?_
  rw [same r heard]
  exact (inv.operations c operation found).2.later grows

theorem reserved_keeps (previous : Data) :
    Keeps cfg order (fun x t => match x with
      | .inl pending => Prepared c previous pending ∧ t.Reserved cfg c
      | .inr receipt => t.Endorsed c receipt)
      (reserved cfg c (operationIdOf cfg.logId c) previous) s := by
  refine .read fun existing t _ inv seen => ?_
  cases existing with
  | some existing =>
    obtain ⟨-, root⟩ := inv.pendings c existing.value (seen existing rfl).mem
    refine .guard fun same => Keeps.check fun _ relation => Keeps.check fun _ _ => ?_
    obtain ⟨sequence, receiptRoot, follows⟩ := receipt_of_relation relation
    rw [not_not.mp same] at sequence
    have reserved : t.Reserved cfg c := List.ne_nil_of_mem (seen existing rfl).mem
    exact .returns fun _ later _ =>
      ⟨⟨not_not.mp same, root, sequence, receiptRoot, follows _ rfl⟩, reserved.later later⟩
  | none =>
    refine .read fun completed t _ inv seen => ?_
    cases completed with
    | some completed =>
      refine .seqOk _ (found_keeps inv (seen completed rfl).mem _) fun r t _ _ endorsed => ?_
      exact Keeps.returns fun u grows _ => endorsed.later grows
    | none =>
      refine .read fun head t _ inv seen => ?_
      refine .seqOk _ (validateStoredHead_keeps head) fun advanced u grows inv' same => ?_
      subst same
      cases advanced with
      | none => exact Keeps.throws
      | some advanced =>
        have mem : advanced.value ∈ u.heads := (grows .head).subset (seen advanced rfl).mem
        dsimp only
        split
        next same =>
          refine Keeps.returns fun v further _ => World.Endorsed.later ⟨_, mem, ?_, rfl⟩ further
          obtain ⟨before, after, split⟩ := List.append_of_mem mem
          have follows := inv'.chain before _ after split
          exact checkpointRootFor_inj.mp (follows.root.symm.trans same)
        · exact Keeps.throws

variable {s' : World} {pending : Pending}

theorem Sound.writePending {s : World} (h : Sound cfg s) {version : Option Nat}
    (committed : s.store.Committed
      [⟨pendingKey (operationIdOf cfg.logId c), version, pending⟩] s'.store)
    (answers : s'.answers = s.answers) (same : pending.checkpoint = c)
    (root : pending.witnessRoot = witnessRootFor pending.receipt) : Sound cfg s' := by
  have grows := committed.extends_
  have other (k : Key) (apart : pendingKey (operationIdOf cfg.logId c) ≠ k) :
      s'.store.held k = s.store.held k :=
    committed.others k fun w mem => by simpa [List.mem_singleton.mp mem] using apart
  have heads : s'.heads = s.heads := other .head nofun
  refine ⟨heads ▸ h.chain, fun d operation mem => ?_, fun d other_ mem => ?_,
    fun head mem => (h.reserved head (heads ▸ mem)).later grows, fun a mem => ?_⟩
  · rw [other (operationKey (operationIdOf cfg.logId d)) nofun] at mem
    obtain ⟨about, endorsed⟩ := h.operations d operation mem
    exact ⟨about, endorsed.later grows⟩
  · by_cases here : c = d
    · subst here
      rw [committed.written _ (List.mem_singleton_self _)] at mem
      rcases List.mem_append.mp mem with old | new
      · exact h.pendings c other_ old
      · rw [List.mem_singleton.mp new]
        exact ⟨same, root⟩
    · have apart : pendingKey (operationIdOf cfg.logId c) ≠ pendingKey
          (operationIdOf cfg.logId d) :=
        fun same => here (operationIdOf_inj.mp (Data.hash.inj (Key.pending.inj same)))
      rw [other _ apart] at mem
      exact h.pendings d other_ mem
  · rw [answers] at mem
    exact (h.answers a mem).later grows

theorem reserve_keeps (previous : Data) (timeProof : TrustedTimeProof) :
    Keeps cfg order (fun x t => match x with
      | .inl pending => Prepared c previous pending ∧ t.Reserved cfg c
      | .inr receipt => t.Endorsed c receipt)
      (reserve cfg c (operationIdOf cfg.logId c) previous timeProof) s := by
  refine .read fun found t _ inv seen => ?_
  cases found with
  | some pending =>
    have reserved : t.Reserved cfg c := List.ne_nil_of_mem (seen pending rfl).mem
    exact .check fun _ fine => Keeps.returns fun _ later _ =>
      ⟨prepared_of_check fine, reserved.later later⟩
  | none =>
    refine .seqOk _ (signReceipt_keeps c previous _) fun receipt t _ _ about => ?_
    obtain ⟨sequence, root, follows⟩ := about
    refine Keeps.write
      (fun u u' _ inv committed answers => inv.writePending committed answers rfl rfl)
      fun outcome u _ _ wrote => ?_
    cases outcome with
    | committed =>
      have reserved : u.Reserved cfg c :=
        List.ne_nil_of_mem (wrote rfl _ (List.mem_singleton_self _))
      exact .returns fun _ later _ =>
        ⟨⟨rfl, rfl, sequence, root, follows⟩, reserved.later later⟩
    | conflict => exact reserved_keeps previous

theorem journalize_keeps {previous : Data} (prepared : Prepared c previous pending) :
    Keeps cfg order (fun _ _ => True) (journalize c (operationIdOf cfg.logId c) pending) s := by
  unfold journalize
  cases pending.journal with
  | some journal => exact .returns fun _ _ _ => trivial
  | none =>
    refine .check fun _ _ => Keeps.ask nofun fun journal t _ _ => ?_
    refine .seqOk _ (validateJournal_keeps _ _ _ _ _) fun _ t _ _ _ => ?_
    refine Keeps.read fun current t _ _ _ => ?_
    cases current with
    | none => exact .returns fun _ _ _ => trivial
    | some current =>
      refine .write (fun u u' _ inv committed answers => ?_) fun _ u _ _ _ => ?_
      · exact inv.writePending committed answers prepared.checkpoint prepared.witnessRoot
      · exact .returns fun _ _ _ => trivial

variable {head : Option (Stored Head)}

theorem Sound.advance {s : World} (h : Sound cfg s) {new : Head}
    (committed : s.store.Committed [⟨.head, head.map (·.version), new⟩,
      ⟨operationKey (operationIdOf cfg.logId c), none, operation⟩] s'.store)
    (answers : s'.answers = s.answers) (follows : Follows s.heads new) (same : new.checkpoint = c)
    (about : operation.checkpoint = c) (receipt : operation.receipt = new.receipt)
    (reserved : s.Reserved cfg c) : Sound cfg s' := by
  have grows := committed.extends_
  have other (k : Key) (moved : Key.head ≠ k)
      (apart : operationKey (operationIdOf cfg.logId c) ≠ k) :
      s'.store.held k = s.store.held k := by
    refine committed.others k fun w mem => ?_
    rcases List.mem_cons.mp mem with rfl | mem
    · exact moved
    · rw [List.mem_singleton.mp mem]
      exact apart
  have heads : s'.heads = s.heads ++ [new] := committed.written _ List.mem_cons_self
  have endorsed : s'.Endorsed c operation.receipt :=
    ⟨new, heads ▸ List.mem_append_right _ (List.mem_singleton_self _), same, receipt.symm⟩
  refine ⟨heads ▸ h.chain.snoc follows, fun d found mem => ?_, fun d pending mem => ?_,
    fun head mem => ?_, fun a mem => ?_⟩
  · by_cases here : c = d
    · subst here
      rw [committed.written _ (List.mem_cons_of_mem _ (List.mem_singleton_self _))] at mem
      rcases List.mem_append.mp mem with old | now
      · obtain ⟨is, was⟩ := h.operations c found old
        exact ⟨is, was.later grows⟩
      · rw [List.mem_singleton.mp now]
        exact ⟨about, endorsed⟩
    · have apart :
          operationKey (operationIdOf cfg.logId c) ≠ operationKey (operationIdOf cfg.logId d) :=
        fun same => here (operationIdOf_inj.mp (Data.hash.inj (Key.operation.inj same)))
      rw [other (operationKey (operationIdOf cfg.logId d)) nofun apart] at mem
      obtain ⟨is, was⟩ := h.operations d found mem
      exact ⟨is, was.later grows⟩
  · rw [other (pendingKey (operationIdOf cfg.logId d)) nofun nofun] at mem
    exact h.pendings d pending mem
  · rw [heads] at mem
    rcases List.mem_append.mp mem with old | now
    · exact (h.reserved head old).later grows
    · rw [List.mem_singleton.mp now, same]
      exact reserved.later grows
  · rw [answers] at mem
    exact (h.answers a mem).later grows

theorem Sound.last (h : Sound cfg s) : (s.store.get .head).elim 0 (·.value.sequence) =
    s.heads.length ∧ (s.store.get .head).map (·.value) = s.heads.getLast? := by
  cases found : s.store.get .head with
  | none =>
    have empty : s.heads = [] := Versioned.get_eq_none.mp found
    exact ⟨by simp [empty], by simp [empty]⟩
  | some head =>
    obtain ⟨before, split, -⟩ := Versioned.held_of_get found
    have heads : s.heads = before ++ [head.value] := split
    have follows := h.chain before head.value [] heads
    refine ⟨?_, by simp [heads]⟩
    change head.value.sequence = s.heads.length
    rw [follows.counts, follows.sequence, heads]
    simp

theorem advance_keeps (journal : JournalReceipt) (seen : s.store.Seen .head head)
    (sequence : c.sequence = head.elim 0 (·.value.sequence) + 1)
    (previous : c.previousRoot = head.elim zeroRoot (·.value.checkpointRoot))
    (prepared : Prepared c (head.elim zeroRoot (·.value.witnessRoot)) pending)
    (reserved : s.Reserved cfg c) : Keeps cfg order (fun r t => t.Endorsed c r)
      (advance cfg c (operationIdOf cfg.logId c) head pending journal) s := by
  refine .write (fun t t' grows inv committed answers => ?_) fun outcome t _ inv wrote => ?_
  · have found : t.store.get .head = head := committed.found (seen.later grows) List.mem_cons_self
    obtain ⟨count, last⟩ := inv.last
    rw [found] at count last
    refine inv.advance committed answers ?_ prepared.checkpoint prepared.checkpoint rfl
      (reserved.later grows)
    have elim_last {A : Type} (z : A) (f : Head → A) :
        head.elim z (fun x => f x.value) = t.heads.getLast?.elim z f := by
      rw [← last]
      cases head <;> rfl
    exact
      { sequence := by rw [prepared.checkpoint, sequence, count]
        counts := by rw [prepared.checkpoint]
        root := by rw [prepared.checkpoint]
        previousRoot := by rw [prepared.checkpoint, previous, elim_last]
        receiptSequence := by rw [prepared.sequence, prepared.checkpoint]
        receiptRoot := prepared.root
        witnessRoot := prepared.witnessRoot
        previousWitnessRoot := by rw [prepared.previous, elim_last] }
  · cases outcome with
    | conflict =>
      refine .read fun existing t _ inv seen => ?_
      cases existing with
      | none => exact .throws
      | some existing => exact found_keeps inv (seen existing rfl).mem _
    | committed =>
      have endorsed : t.Endorsed c pending.receipt :=
        ⟨_, wrote rfl _ List.mem_cons_self, prepared.checkpoint, rfl⟩
      refine .read fun final u grows inv seen => ?_
      have still := endorsed.later grows
      cases final with
      | none => exact .returns fun _ later _ => still.later later
      | some final =>
        obtain ⟨same, root⟩ := inv.pendings c final.value (seen final rfl).mem
        refine .write (fun v v' _ inv committed answers => ?_) fun _ v further _ _ => ?_
        · exact inv.writePending committed answers same root
        · exact .returns fun _ later _ => (still.later further).later later

theorem acceptNew_keeps :
    Keeps cfg order (fun r t => t.Endorsed c r)
    (acceptNew cfg c (operationIdOf cfg.logId c)) s := by
  refine .read fun stored t _ inv seen => ?_
  refine .seqOk _ (validateStoredHead_keeps stored) fun head u grows _ same => ?_
  subst same
  refine Keeps.guard fun contiguous => ?_
  simp only [not_or, not_not] at contiguous
  refine .ask nofun fun timeProof v further _ => Keeps.check fun _ _ => ?_
  refine .seqOk _ (reserve_keeps _ timeProof) fun x w later _ ready => ?_
  cases x with
  | inr receipt => exact Keeps.returns fun _ later _ => ready.later later
  | inl pending =>
    refine .seqOk _ (journalize_keeps ready.1) fun journal w' last _ _ => ?_
    have still := (((seen.later grows).later further).later later).later last
    exact advance_keeps journal still contiguous.1 contiguous.2 ready.1 (ready.2.later last)

/-- **A call returns only the receipt of a head.** -/
theorem accept_keeps (c : SignedCheckpoint) :
    Keeps cfg order (fun r t => t.Endorsed c r) (accept cfg c) s := by
  refine .check fun _ _ => Keeps.read fun operation t _ inv seen => ?_
  cases operation with
  | none => exact acceptNew_keeps
  | some operation =>
    refine .guard fun _ => Keeps.check fun _ _ => Keeps.guard fun _ => ?_
    exact found_keeps inv (seen operation rfl).mem _

end Methods

/-! ## Every run -/

/-- A checkpoint and its receipt follow the ones before them. -/
structure Links (before : List (SignedCheckpoint × WitnessReceipt))
    (entry : SignedCheckpoint × WitnessReceipt) : Prop where
  sequence : entry.1.sequence = before.length + 1
  previousRoot : entry.1.previousRoot = before.getLast?.elim zeroRoot (checkpointRootFor ·.1)
  about : entry.2.sequence = entry.1.sequence ∧ entry.2.checkpointRoot = checkpointRootFor entry.1
  previousWitnessRoot :
    entry.2.previousWitnessRoot = before.getLast?.elim zeroRoot (witnessRootFor ·.2)

/-- The checkpoints the head has moved to, with their receipts. -/
def World.chain (s : World) : List (SignedCheckpoint × WitnessReceipt) :=
  s.heads.map fun h => (h.checkpoint, h.receipt)

theorem Sound.links (h : Sound cfg s) : Traced Links s.chain := by
  intro before entry after split
  obtain ⟨heads, rest, whole, rfl, tail⟩ := List.map_eq_append_iff.mp split
  obtain ⟨head, heads', rfl, rfl, -⟩ := List.map_eq_cons_iff.mp tail
  have follows := h.chain heads head heads' whole
  have roots (last : Head) (found : heads.getLast? = some last) :
      last.checkpointRoot = checkpointRootFor last.checkpoint ∧
        last.witnessRoot = witnessRootFor last.receipt := by
    obtain ⟨before, rfl⟩ := List.getLast?_eq_some_iff.mp found
    have prior := h.chain before last (head :: heads') (by simpa using whole)
    exact ⟨prior.root, prior.witnessRoot⟩
  refine ⟨by simpa using follows.sequence, ?_,
    ⟨follows.receiptSequence, follows.receiptRoot.trans follows.root⟩, ?_⟩
  · rw [List.getLast?_map]
    cases last : heads.getLast? with
    | none => simpa [last] using follows.previousRoot
    | some h' => simpa [last, (roots h' last).1] using follows.previousRoot
  · rw [List.getLast?_map]
    cases last : heads.getLast? with
    | none => simpa [last] using follows.previousWitnessRoot
    | some h' => simpa [last, (roots h' last).2] using follows.previousWitnessRoot

def anyTerms : Terms Effect (fun e => Except Failure (Ans e)) Outside SignedCheckpoint Reply
    World :=
  ⟨fun _ => True, fun _ => True, fun _ _ _ _ => True⟩

theorem sound_machine (cfg : Config) (order : LinearOrder Key) :
    (rely cfg).Sound (machine cfg order) anyTerms (fun _ _ _ _ => True)
      fun c reply s => ∀ r, reply = some (.ok r) → s.Endorsed c r where
  allowed _ := trivial
  enter {s s' c} inv _ entered := by
    cases entered
    refine ⟨inv, .refl _, .map ?_⟩
    exact (accept_keeps c).mono fun x t _ _ h r same => h r (Option.some.inj same)
  leave {s c reply} inv h := by
    match reply with
    | none => exact ⟨inv, .refl _⟩
    | some (.error e) => exact ⟨inv, .refl _⟩
    | some (.ok r) =>
      refine ⟨⟨inv.chain, inv.operations, inv.pendings, inv.reserved, fun a mem => ?_⟩, .refl _⟩
      rcases List.mem_append.mp mem with old | new
      · exact inv.answers a old
      · rw [List.mem_singleton.mp new]
        exact h r rfl
  remnant h := h.alone fun _ _ _ => nofun

theorem run_sound (cfg : Config) (order : LinearOrder Key) (events : List Event) :
    Sound cfg (World.run cfg order events) := by
  have along : Along (Tasks.step (machine cfg order)) (Tasks.Meets anyTerms)
      (Tasks.initial {}) events := by
    refine .of_forall fun s event => ?_
    cases event with
    | start i call => exact trivial
    | step i env => exact fun _ _ => trivial
    | drop i goesOn => exact fun _ _ => trivial
  have empty : Sound cfg {} :=
    ⟨.nil, fun _ _ => nofun, fun _ _ => nofun, fun _ => nofun, fun _ => nofun⟩
  exact ((Sustained.initial empty).run (sound_machine cfg order) along).1.inv

theorem World.Endorsed.mem_chain (h : s.Endorsed c r) : (c, r) ∈ s.chain := by
  obtain ⟨head, mem, rfl, rfl⟩ := h
  exact List.mem_map_of_mem mem

theorem chain_unique {chain : List (SignedCheckpoint × WitnessReceipt)} (links : Traced Links chain)
    {a b : SignedCheckpoint × WitnessReceipt} (here : a ∈ chain) (there : b ∈ chain)
    (same : a.1.sequence = b.1.sequence) : a = b := by
  obtain ⟨beforeA, afterA, splitA⟩ := List.append_of_mem here
  obtain ⟨beforeB, afterB, splitB⟩ := List.append_of_mem there
  have lengths : beforeA.length = beforeB.length := by
    have first := (links beforeA a afterA splitA).sequence
    have second := (links beforeB b afterB splitB).sequence
    omega
  obtain ⟨-, rest⟩ := List.append_inj (splitA.symm.trans splitB) lengths
  exact (List.cons.inj rest).1

/-- **No fork is endorsed.** In every run the checkpoints the head has moved to are numbered from
one on, each with the root of the one before it, and so are their receipts; and every receipt a call
returned is the receipt of its checkpoint in that chain. -/
theorem witness_endorses_one_chain (cfg : Config) (order : LinearOrder Key) (events : List Event) :
    Traced Links (World.run cfg order events).chain ∧
    (∀ answer ∈ (World.run cfg order events).answers, answer ∈ (World.run cfg order events).chain) ∧
    ∀ a ∈ (World.run cfg order events).answers, ∀ b ∈ (World.run cfg order events).answers,
      a.1.sequence = b.1.sequence ∨ a.1 = b.1 → a = b := by
  have sound := run_sound cfg order events
  have returned (a : SignedCheckpoint × WitnessReceipt)
      (mem : a ∈ (World.run cfg order events).answers) : a ∈ (World.run cfg order events).chain :=
    (sound.answers a mem).mem_chain
  refine ⟨sound.links, returned, fun a memA b memB same => ?_⟩
  refine chain_unique sound.links (returned a memA) (returned b memB) ?_
  rcases same with same | same
  · exact same
  · rw [same]

/-! A call that is cut after the head moved returns nothing, and the next checkpoint is accepted all
the same. -/

def exampleConfig : Config where
  logId := "log"
  signer := ⟨"w", "1", "pem", .witness⟩
  journalIdentity := ⟨"j", "1", "pem", .journal⟩
  verify _ _ _ := true
  named := by decide
  signs := by decide
  journals := by decide

def exampleCheckpoint (sequence : Nat) (previousRoot : Data) : SignedCheckpoint :=
  ⟨"log", sequence, previousRoot, zeroRoot, "operation", 1, "j", "1", "signature"⟩

def firstCheckpoint : SignedCheckpoint := exampleCheckpoint 1 zeroRoot

def secondCheckpoint : SignedCheckpoint := exampleCheckpoint 2 (checkpointRootFor firstCheckpoint)

/-- The receipt that the witness signs for a checkpoint after the given witness root. -/
def exampleReceipt (c : SignedCheckpoint) (previousWitnessRoot : Data) : WitnessReceipt :=
  { unsignedReceipt exampleConfig c previousWitnessRoot 1 with signature := "signature" }

def exampleRecord (c : SignedCheckpoint) (r : WitnessReceipt) : JournalRecord :=
  ⟨operationIdOf "log" c, c.sequence, checkpointRootFor c, journalPayload c r, 1⟩

def exampleJournal (c : SignedCheckpoint) (r : WitnessReceipt) : JournalReceipt :=
  ⟨operationIdOf "log" c, c.sequence, .hash (journalBytes (exampleRecord c r)), checkpointRootFor c,
    "bucket", "key", "version", 1⟩

/-- The effects of an `accept` up to the move of the head, without the reads of an older head. -/
def exampleSteps (i : Nat) (c : SignedCheckpoint) (r : WitnessReceipt) : List Event :=
  [.step i (.time ⟨1, zeroRoot, zeroRoot, "authority"⟩), .step i (.done 1),
    .step i (.signature "signature"), .step i (.done 1), .step i (.receipt (exampleJournal c r)),
    .step i (.record (exampleRecord c r)), .step i (.done 1), .step i (.done 1), .step i (.done 1)]

def firstReceipt : WitnessReceipt := exampleReceipt firstCheckpoint zeroRoot

def secondReceipt : WitnessReceipt := exampleReceipt secondCheckpoint (witnessRootFor firstReceipt)

def cutAfterCommit : List Event :=
  [.start 0 firstCheckpoint, .step 0 (.done 1), .step 0 (.done 1)] ++
    exampleSteps 0 firstCheckpoint firstReceipt ++ [.drop 0 false] ++
  [.start 1 secondCheckpoint, .step 1 (.done 1), .step 1 (.done 1),
    .step 1 (.record (exampleRecord firstCheckpoint firstReceipt))] ++
    exampleSteps 1 secondCheckpoint secondReceipt ++
  [.step 1 (.done 1), .step 1 (.done 1), .step 1 (.done 1)]

theorem receipt_without_predecessor :
    (World.run exampleConfig (someOrder Key) cutAfterCommit).answers.map (·.1.sequence) = [2] := by
  decide +kernel

end CorelinkRunners.Monitor.Witness
