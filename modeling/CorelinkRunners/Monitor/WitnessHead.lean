import CorelinkRunners.Kit.Exec
import CorelinkRunners.Monitor.Endorsement

/-!
# Reading the head of the witness

`accept` leaves a pending record for every checkpoint, and nothing ever removes one, while
`readHead` refuses to answer where it finds more than one. After any run in which the head has moved
twice the head can therefore not be read any more; before that, an honest store, journal, clock and
signer let `readHead` answer with the head.

The calls here run one after the other, and what the outside says to them is `Honest`.
-/

namespace CorelinkRunners.Monitor.Witness

open Kit

variable {cfg : Config} {order : LinearOrder Key} {s t : World}

/-! ## The honest outside -/

structure HonestReceipt (record : JournalRecord) (r : JournalReceipt) : Prop where
  operationId : r.operationId = record.operationId
  sequence : r.sequence = record.sequence
  recordDigest : r.recordDigest = .hash (journalBytes record)
  previousDigest : r.previousDigest = record.previousDigest
  bucket : r.bucket ≠ ""
  key : r.key ≠ ""
  versionId : r.versionId ≠ ""
  retained : record.trustedAtMs ≤ r.retainedUntilMs
  safe : r.retainedUntilMs ≤ maxSafeInteger

/-- The store is a `MemoryStateStore`; the clock proves its time; the signatures are valid; and the
journal returns under a receipt the record it was given. -/
inductive Honest (cfg : Config) (s : World) : Effect → Outside → Prop
  | store {request : StoreRequest Key Record} : Honest cfg s (.store request) (.done 100)
  | now {proof : TrustedTimeProof} (valid : validateTimeProof proof none = .ok ()) :
      Honest cfg s .now (.time proof)
  | sign {bytes : Data} {value : String} (valid : cfg.verify bytes value cfg.signer = true) :
      Honest cfg s (.sign bytes) (.signature value)
  | append {record : JournalRecord} {r : JournalReceipt} (valid : HonestReceipt record r)
      (fresh : ∀ other, (r, other) ∈ s.journal → other = record) :
      Honest cfg s (.append record) (.receipt r)
  | refuse {record : JournalRecord} {message : String}
      (late : maxSafeInteger < record.trustedAtMs) : Honest cfg s (.append record) (.fails message)
  | read {r : JournalReceipt} {record : JournalRecord} (mem : (r, record) ∈ s.journal) :
      Honest cfg s (.read r) (.record record)
  | unknown {r : JournalReceipt} {message : String} (absent : ∀ record, (r, record) ∉ s.journal) :
      Honest cfg s (.read r) (.fails message)
  | isEmpty {size : Nat} : Honest cfg s .isEmpty (.done size)

abbrev Runs {A : Type} (cfg : Config) (order : LinearOrder Key) (p : Method A) (s : World)
    (x : Except Failure A) (t : World) : Prop :=
  Exec (perform order) (Honest cfg) p.run s x t

/-- The checkpoints that were accepted one after the other, with their receipts. -/
inductive Accepted (cfg : Config) (order : LinearOrder Key) :
    List (SignedCheckpoint × WitnessReceipt) → World → Prop
  | nil : Accepted cfg order [] {}
  | snoc {entries : List (SignedCheckpoint × WitnessReceipt)} {s t : World} {c : SignedCheckpoint}
      {r : WitnessReceipt} (before : Accepted cfg order entries s)
      (sequence : c.sequence = entries.length + 1)
      (previous : c.previousRoot = entries.getLast?.elim zeroRoot (checkpointRootFor ·.1))
      (run : Runs cfg order (accept cfg c) s (.ok r) t) : Accepted cfg order (entries ++ [(c, r)]) t

/-! ## Two heads -/

variable {entries : List (SignedCheckpoint × WitnessReceipt)}

theorem accepted_sound (accepted : Accepted cfg order entries s) :
    Sound cfg s ∧ ∀ entry ∈ entries, s.Endorsed entry.1 entry.2 := by
  induction accepted with
  | nil =>
    refine ⟨?_, fun _ => nofun⟩
    exact ⟨.nil, fun _ _ => nofun, fun _ _ => nofun, fun _ => nofun, fun _ => nofun⟩
  | @snoc entries s t c r _ _ _ run ih =>
    obtain ⟨sound, endorsed⟩ := ih
    obtain ⟨sound', grows, ended⟩ := (accept_keeps c).exec sound (fun _ _ _ _ => trivial) run
    refine ⟨sound', fun entry mem => ?_⟩
    rcases List.mem_append.mp mem with old | new
    · exact (endorsed entry old).later grows
    · rw [List.mem_singleton.mp new]
      exact ended r rfl

/-! ## Too many pending records -/

abbrev Gives {A : Type} (cfg : Config) (order : LinearOrder Key) (post : A → World → Prop)
    (p : Method A) (s : World) : Prop :=
  Ensures (perform order) (Honest cfg) (fun x t => ∀ a, x = .ok a → post a t) p.run s

theorem validateJournal_gives (receipt : JournalReceipt) (c : SignedCheckpoint)
    (response : WitnessReceipt) (operationId root : Data) :
    Gives cfg order (fun _ t => t = s) (validateJournal receipt c response operationId root) s := by
  refine .guard (fun _ _ => nofun) fun _ => Ensures.await (fun o honest record _ => ?_)
    fun _ _ _ _ _ => nofun
  rw [show (perform order (.read receipt) o s).2 = s by cases honest <;> rfl]
  split
  · exact fun _ => nofun
  · exact fun _ _ => rfl

theorem visit_gives (rows : List (Row Key Record)) (scanned : Scanned) :
    Gives cfg order (fun found t => t = s ∧ (∀ p ∈ scanned.pending, p ∈ found.pending) ∧
      ∀ d p, ⟨.pending d, p⟩ ∈ rows → p ∈ found.pending) (visit cfg rows scanned) s := by
  induction rows generalizing scanned with
  | nil =>
    rintro _ ⟨⟩
    exact ⟨rfl, fun _ mem => mem, fun _ _ => nofun⟩
  | cons row rows ih =>
    obtain ⟨key, stored⟩ := row
    cases key with
    | head =>
      refine (ih _).mono fun x t h found same => ?_
      obtain ⟨still, kept, all⟩ := h found same
      exact ⟨still, kept, fun d p mem => all d p (by simpa using mem)⟩
    | operation digest =>
      have checks : Gives cfg order (fun _ t => t = s) (validateOperation cfg stored.value
          (operationIdOf cfg.logId stored.value.checkpoint)) s :=
        Ensures.checked (fun _ _ _ => nofun) fun _ _ => validateJournal_gives _ _ _ _ _
      refine .seqOk checks ?_
      rintro _ t rfl
      refine (ih _).mono fun x t h found same => ?_
      obtain ⟨still, kept, all⟩ := h found same
      exact ⟨still, kept, fun d p mem => all d p (by simpa using mem)⟩
    | pending digest =>
      refine (ih _).mono fun x t h found same => ?_
      obtain ⟨still, kept, all⟩ := h found same
      refine ⟨still, fun p mem => kept p (List.mem_append_left _ mem), fun d p mem => ?_⟩
      rcases List.mem_cons.mp mem with here | later
      · cases here
        exact kept stored (List.mem_append_right _ (List.mem_singleton_self _))
      · exact all d p later

/-- **A scan that ends has come across every pending record.** Up to the cursor it has done so
already. -/
theorem scanAll_gives (pages : Nat) (cursor : Option Key) (scanned : Scanned)
    (covered : ∀ d p, s.store.get (.pending d) = some p →
      (∃ start, cursor = some start ∧ order.le (.pending d) start) → p ∈ scanned.pending) :
    Gives cfg order (fun found t => t = s ∧
      ∀ d p, s.store.get (.pending d) = some p → p ∈ found.pending)
      (scanAll cfg pages cursor scanned) s := by
  induction pages generalizing cursor scanned with
  | zero => exact fun _ => nofun
  | succ pages ih =>
    refine .await (fun o honest page told => ?_) fun _ _ _ _ _ => nofun
    cases honest
    cases told
    change Gives cfg order _ _ s
    refine .seqOk (visit_gives _ scanned) fun found t ended => ?_
    obtain ⟨same, kept, all⟩ := ended
    rw [same]
    have now (d : Data) (p : Stored Pending) (there : s.store.get (.pending d) = some p)
        (upTo : ∀ next, (scanPage order 100 s.store (fun _ => true) cursor).2 = some next →
          order.le (.pending d) next) : p ∈ found.pending := by
      by_cases before : ∃ start, cursor = some start ∧ order.le (.pending d) start
      · exact kept p (covered d p there before)
      · have mem : .pending d ∈ sortedKeys order s.store (fun _ => true) :=
          mem_sortedKeys.mpr ⟨List.ne_nil_of_mem (Versioned.mem_held_of_get there), rfl⟩
        obtain ⟨r, same, row⟩ := scanPage_covers (by decide) mem
          (fun start is le => before ⟨start, is, le⟩) upTo
        cases there.symm.trans same
        exact all d p row
    cases next : (scanPage order 100 s.store (fun _ => true) cursor).2 with
    | none =>
      rintro _ ⟨⟩
      exact ⟨rfl, fun d p there => now d p there fun k is => nomatch next.symm.trans is⟩
    | some key =>
      refine ih (some key) found fun d p there upTo => now d p there fun k is => ?_
      obtain ⟨start, is', le⟩ := upTo
      cases is'
      cases next.symm.trans is
      exact le

/-- Where the head has moved twice, the head cannot be read. -/
theorem readHead_refuses (sound : Sound cfg s) {h h' : Head} (first : h ∈ s.heads)
    (second : h' ∈ s.heads) (apart : h.checkpoint ≠ h'.checkpoint) (pages : Nat) (nonce : String) :
    Gives cfg order (fun _ _ => False) (readHead cfg pages nonce) s := by
  have reserved (h : Head) (mem : h ∈ s.heads) : ∃ d p, s.store.get (.pending d) = some p ∧
      p.value.checkpoint = h.checkpoint := by
    cases found : s.store.get (pendingKey (operationIdOf cfg.logId h.checkpoint)) with
    | none => exact absurd (Versioned.get_eq_none.mp found) (sound.reserved h mem)
    | some p =>
      exact ⟨_, p, found, (sound.pendings h.checkpoint p.value (Versioned.mem_held_of_get found)).1⟩
  obtain ⟨d, p, there, about⟩ := reserved h first
  obtain ⟨d', p', there', about'⟩ := reserved h' second
  refine .guard (fun _ _ => nofun) fun _ => ?_
  refine .seqOk (scanAll_gives pages none {} (fun _ _ _ ⟨_, is, _⟩ => nomatch is))
    fun found t ended => ?_
  have mem := ended.2 d p there
  have mem' := ended.2 d' p' there'
  refine .seqOk (?_ : Gives cfg order (fun _ _ => False) (checkScanned cfg found) t)
    fun _ _ impossible => impossible.elim
  unfold checkScanned
  match pending : found.pending with
  | [] =>
    rw [pending] at mem
    nomatch mem
  | [only] =>
    rw [pending] at mem mem'
    rw [← about, ← about', List.mem_singleton.mp mem, List.mem_singleton.mp mem'] at apart
    exact absurd rfl apart
  | _ :: _ :: _ => exact fun _ => nofun

/-! ## One accepted checkpoint -/

namespace Gives

variable {A B : Type} {post : B → World → Prop}

theorem get {k : Key} {f : Option (Stored (Record k)) → Method B}
    (next : Gives cfg order post (f (s.store.get k)) s) :
    Gives cfg order post (Witness.get k >>= f) s := by
  refine .await (fun o honest x told => ?_) fun _ _ _ _ _ => nofun
  cases honest
  cases told
  exact next

theorem write {writes : List (Write Key Record)} {f : Outcome → Method B}
    (some_ : 1 ≤ writes.length ∧ writes.length ≤ 100) (distinct : (writes.map (·.key)).Nodup)
    (fits : ∀ w ∈ writes, s.store.version w.key = w.expectedVersion)
    (next : ∀ t, s.store.Committed writes t.store → t.journal = s.journal →
      Gives cfg order post (f .committed) t) : Gives cfg order post (transact writes >>= f) s := by
  have fits' : s.store.fits writes = true := by simpa [Versioned.fits] using fits
  have commits : s.store.commit writes = some (writes.foldl Versioned.put s.store) := by
    rw [Versioned.commit, if_pos fits']
  have done : Monitor.transact s.store writes =
      (.ok .committed, writes.foldl Versioned.put s.store) := by
    simp [Monitor.transact, distinct, commits, Nat.not_lt.mpr some_.1, Nat.not_lt.mpr some_.2]
  refine .await (fun o honest x told => ?_) fun _ _ _ _ _ => nofun
  cases honest
  change raise (Monitor.transact s.store writes).1 = .ok x at told
  change Gives cfg order post (f x) { s with store := (Monitor.transact s.store writes).2 }
  rw [done] at told ⊢
  cases told
  exact next _ (Versioned.committed_of_commit distinct commits) rfl

theorem now {f : TrustedTimeProof → Method B}
    (next : ∀ proof, validateTimeProof proof none = .ok () → Gives cfg order post (f proof) s) :
    Gives cfg order post (await .now >>= f) s := by
  refine .await (fun o honest x told => ?_) fun _ _ _ _ _ => nofun
  cases honest with
  | now valid =>
    cases told
    exact next _ valid

theorem sign {bytes : Data} {f : String → Method B}
    (next : ∀ value, cfg.verify bytes value cfg.signer = true → Gives cfg order post (f value) s) :
    Gives cfg order post (await (.sign bytes) >>= f) s := by
  refine .await (fun o honest x told => ?_) fun _ _ _ _ _ => nofun
  cases honest with
  | sign valid =>
    cases told
    exact next _ valid

theorem append {record : JournalRecord} {f : JournalReceipt → Method B}
    (next : ∀ r, HonestReceipt record r → (∀ other, (r, other) ∈ s.journal → other = record) →
      Gives cfg order post (f r) { s with journal := s.journal ++ [(r, record)] }) :
    Gives cfg order post (await (.append record) >>= f) s := by
  refine .await (fun o honest x told => ?_) fun _ _ _ _ _ => nofun
  cases honest with
  | append valid fresh =>
    cases told
    exact next _ valid fresh
  | refuse late => nomatch told

theorem check {x : Except Failure A} {f : A → Method B}
    (next : ∀ a, x = .ok a → Gives cfg order post (f a) s) :
    Gives cfg order post (Witness.check x >>= f) s :=
  Ensures.checked (fun _ _ _ => nofun) next

theorem guard {c : Prop} [Decidable c] {error : Failure} {p : Method B}
    (next : ¬c → Gives cfg order post p s) :
    Gives cfg order post (if c then (throw error >>= fun _ : Unit => p) else p) s :=
  Ensures.guard (fun _ _ => nofun) next

theorem returns {b : B} (h : post b s) : Gives cfg order post (pure b) s := by
  rintro _ ⟨⟩
  exact h

end Gives

def recordOf (cfg : Config) (c : SignedCheckpoint) (r : WitnessReceipt) : JournalRecord :=
  ⟨operationIdOf cfg.logId c, c.sequence, checkpointRootFor c, journalPayload c r, r.trustedAtMs⟩

/-- A checkpoint and a receipt of it that pass the checks. -/
structure Attested (cfg : Config) (c : SignedCheckpoint) (r : WitnessReceipt)
    (timeProof : TrustedTimeProof) : Prop where
  argument : checkArgument cfg c = .ok ()
  valid : validReceipt r = true
  relation : validateReceiptRelation cfg c r (checkpointRootFor c) none = .ok ()
  time : validateTimeProof timeProof (some r.trustedAtMs) = .ok ()

abbrev ownPending (cfg : Config) (c : SignedCheckpoint) : Key :=
    pendingKey (operationIdOf cfg.logId c)

abbrev ownOperation (cfg : Config) (c : SignedCheckpoint) : Key :=
  operationKey (operationIdOf cfg.logId c)

section Records

variable (c : SignedCheckpoint) (r : WitnessReceipt) (timeProof : TrustedTimeProof)

abbrev headFor (journal : JournalReceipt) : Head :=
  ⟨c.sequence, c, checkpointRootFor c, witnessRootFor r, r, timeProof, journal⟩

abbrev operationFor (journal : JournalReceipt) : Operation :=
  ⟨c, checkpointRootFor c, r, witnessRootFor r, timeProof, journal⟩

abbrev pendingFor (journal : Option JournalReceipt) : Pending :=
  ⟨c, checkpointRootFor c, r, witnessRootFor r, timeProof, journal⟩

end Records

structure Single (cfg : Config) (c : SignedCheckpoint) (r : WitnessReceipt)
    (timeProof : TrustedTimeProof) (journal : JournalReceipt) (s : World) : Prop where
  head : ∃ version, s.store.get .head = some ⟨version, headFor c r timeProof journal⟩
  operation : ∃ version, s.store.get (ownOperation cfg c) =
    some ⟨version, operationFor c r timeProof journal⟩
  pending : ∃ version, s.store.get (ownPending cfg c) =
    some ⟨version, pendingFor c r timeProof (some journal)⟩
  others : ∀ k, k ≠ .head → k ≠ ownOperation cfg c → k ≠ ownPending cfg c → s.store.held k = []
  journalled : s.journal = [(journal, recordOf cfg c r)]
  receipt : HonestReceipt (recordOf cfg c r) journal
  attested : Attested cfg c r timeProof

variable {c : SignedCheckpoint}

theorem logId_of_checkArgument (h : checkArgument cfg c = .ok ()) : c.logId = cfg.logId := by
  simp only [checkArgument, refuse, guard_eq_ok, not_or, not_not] at h
  exact h.1.2.1

theorem signReceipt_gives (log : c.logId = cfg.logId) (previous : Data) (trustedAtMs : Nat) :
    Gives cfg order (fun r t => t = s ∧ r.trustedAtMs = trustedAtMs ∧ validReceipt r = true ∧
      validateReceiptRelation cfg c r (checkpointRootFor c) none = .ok ())
      (signReceipt cfg c previous trustedAtMs) s := by
  refine .check fun bytes canonical => Gives.sign fun signature _ => Gives.guard fun valid => ?_
  refine .check fun bytes' canonical' => Gives.guard fun verified => Gives.returns ?_
  have fine : validReceipt { unsignedReceipt cfg c previous trustedAtMs with
      signature } = true := by
    simpa using valid
  refine ⟨rfl, rfl, fine, ?_⟩
  have signed : cfg.verify bytes' signature cfg.signer = true := by simpa using verified
  simp only [validateReceiptRelation, fine, canonical']
  simp [unsignedReceipt, log, signed]

variable {timeProof : TrustedTimeProof}

theorem reserve_gives (argument : checkArgument cfg c = .ok ())
    (time : validateTimeProof timeProof none = .ok ()) (previous : Data)
    (absent : s.store.get (ownPending cfg c) = none) :
    Gives cfg order (fun x t => ∃ r, Attested cfg c r timeProof ∧ t.journal = s.journal ∧
      x = .inl (pendingFor c r timeProof none) ∧
      s.store.Committed [⟨ownPending cfg c, none, pendingFor c r timeProof none⟩] t.store)
      (reserve cfg c (operationIdOf cfg.logId c) previous timeProof) s := by
  refine .get ?_
  rw [absent]
  refine .seqOk (signReceipt_gives (logId_of_checkArgument argument) previous _)
    fun r t signed => ?_
  obtain ⟨same, at_, valid, relation⟩ := signed
  rw [same]
  refine Gives.write ⟨le_rfl, by simp⟩ (List.nodup_singleton _) ?_ fun t committed journal => ?_
  · intro w mem
    rw [List.mem_singleton.mp mem]
    exact congrArg _ absent
  · refine .returns ⟨r, ⟨argument, valid, relation, ?_⟩, journal, rfl, committed⟩
    simp only [validateTimeProof, at_] at time ⊢
    simpa using time

variable {r : WitnessReceipt}

theorem journalize_gives (empty : s.journal = []) {current : Stored Pending}
    (found : s.store.get (ownPending cfg c) = some current) :
    Gives cfg order (fun journal t => HonestReceipt (recordOf cfg c r) journal ∧
      t.journal = [(journal, recordOf cfg c r)] ∧
      s.store.Committed [⟨ownPending cfg c, some current.version,
        pendingFor c r timeProof (some journal)⟩] t.store)
      (journalize c (operationIdOf cfg.logId c) (pendingFor c r timeProof none)) s := by
  refine .check fun _ _ => Gives.append fun journal honest _ => ?_
  refine .seqOk (validateJournal_gives _ _ _ _ _) fun _ t same => ?_
  rw [same]
  refine Gives.get ?_
  rw [found]
  refine .write ⟨le_rfl, by simp⟩ (List.nodup_singleton _) ?_ fun t committed same => ?_
  · intro w mem
    rw [List.mem_singleton.mp mem]
    exact congrArg _ found
  · refine .returns ⟨honest, ?_, committed⟩
    rw [same, empty]
    rfl

theorem advance_gives {pending : Pending} (journal : JournalReceipt)
    (noHead : s.store.get .head = none) (absent : s.store.get (ownOperation cfg c) = none)
    {final : Stored Pending} (found : s.store.get (ownPending cfg c) = some final) :
    Gives cfg order (fun r t => r = pending.receipt ∧ t.journal = s.journal ∧ ∃ u,
      s.store.Committed [⟨.head, none, ⟨c.sequence, pending.checkpoint, checkpointRootFor c,
          pending.witnessRoot, pending.receipt, pending.timeProof, journal⟩⟩,
        ⟨ownOperation cfg c, none, ⟨pending.checkpoint, checkpointRootFor c,
          pending.receipt, pending.witnessRoot, pending.timeProof, journal⟩⟩] u ∧
      u.Committed [⟨ownPending cfg c, some final.version,
        { final.value with journal := some journal }⟩] t.store)
      (advance cfg c (operationIdOf cfg.logId c) none pending journal) s := by
  refine .write ⟨by simp, by simp⟩ (by simp [operationKey]) ?_ fun u committed journal' => ?_
  · intro w mem
    rcases List.mem_cons.mp mem with rfl | mem
    · exact congrArg _ noHead
    · rw [List.mem_singleton.mp mem]
      exact congrArg _ absent
  · have still : u.store.get (ownPending cfg c) = some final := by
      rw [committed.get_other, found]
      intro w mem
      rcases List.mem_cons.mp mem with rfl | mem
      · exact nofun
      · rw [List.mem_singleton.mp mem]
        exact nofun
    refine .get ?_
    rw [still]
    refine .write ⟨le_rfl, by simp⟩ (List.nodup_singleton _) ?_ fun t committed' journal'' => ?_
    · intro w mem
      rw [List.mem_singleton.mp mem]
      exact congrArg _ still
    · exact .returns ⟨rfl, journal''.trans journal', u.store, committed, committed'⟩

theorem accept_single (c : SignedCheckpoint) :
    Gives cfg order (fun r t => ∃ timeProof journal, Single cfg c r timeProof journal t)
      (accept cfg c) {} := by
  refine .check fun _ argument => Gives.get ?_
  refine .get ?_
  refine .guard fun _ => Gives.now fun timeProof time => Gives.check fun _ _ => ?_
  refine .seqOk (reserve_gives argument time _ rfl) ?_
  rintro x t ⟨r, attested, journal, rfl, reserved⟩
  have pending := reserved.get_written (List.mem_singleton_self _)
  refine .seqOk (journalize_gives journal pending) ?_
  rintro journal t' ⟨honest, journalled, updated⟩
  have apart (k : Key) (other : ownPending cfg c ≠ k) : t'.store.held k = [] := by
    rw [updated.others, reserved.others]
    · rfl
    all_goals
      intro w mem
      rw [List.mem_singleton.mp mem]
      exact other
  have pending' := updated.get_written (List.mem_singleton_self _)
  refine .mono (advance_gives journal (Versioned.get_eq_none.mpr (apart .head nofun))
    (Versioned.get_eq_none.mpr (apart (ownOperation cfg c) nofun)) pending') ?_
  rintro x u ended r' same
  obtain ⟨rfl, journal', v, moved, final⟩ := ended r' same
  have finally_ (k : Key) (other : ownPending cfg c ≠ k) : u.store.held k = v.held k := by
    refine final.others k fun w mem => ?_
    rw [List.mem_singleton.mp mem]
    exact other
  refine ⟨timeProof, journal,
    { head := ⟨_, (Versioned.get_congr (finally_ .head nofun)).trans
        (moved.get_written List.mem_cons_self)⟩
      operation := ⟨_, (Versioned.get_congr (finally_ (ownOperation cfg c) nofun)).trans
        (moved.get_written (List.mem_cons_of_mem _ (List.mem_singleton_self _)))⟩
      pending := ⟨_, final.get_written (List.mem_singleton_self _)⟩
      others := fun k notHead notOperation notPending => ?_
      journalled := journal'.trans journalled
      receipt := honest
      attested := attested }⟩
  rw [finally_ k notPending.symm, moved.others, apart k notPending.symm]
  intro w mem
  rcases List.mem_cons.mp mem with rfl | mem
  · exact notHead.symm
  · rw [List.mem_singleton.mp mem]
    exact notOperation.symm

/-! ## Reading it -/

/-- Every honest run returns, and what holds of its answer. -/
abbrev Returns {A : Type} (cfg : Config) (order : LinearOrder Key) (post : A → World → Prop)
    (p : Method A) (s : World) : Prop :=
  Ensures (perform order) (Honest cfg) (fun x t => ∃ a, x = .ok a ∧ post a t) p.run s

variable {journal : JournalReceipt}

theorem validateJournal_returns (journalled : s.journal = [(journal, recordOf cfg c r)])
    (honest : HonestReceipt (recordOf cfg c r) journal) :
    Returns cfg order (fun _ t => t = s) (validateJournal journal c r (operationIdOf cfg.logId c)
      (checkpointRootFor c)) s := by
  have receipt : ¬(journal.operationId ≠ operationIdOf cfg.logId c ∨ journal.sequence ≠ c.sequence ∨
      journal.previousDigest ≠ checkpointRootFor c ∨ journal.bucket = "" ∨ journal.key = "" ∨
      journal.versionId = "" ∨ maxSafeInteger < journal.retainedUntilMs ∨
      journal.retainedUntilMs < r.trustedAtMs) := by
    simp only [not_or, not_not, Nat.not_lt]
    exact ⟨honest.operationId, honest.sequence, honest.previousDigest, honest.bucket, honest.key,
      honest.versionId, honest.safe, honest.retained⟩
  refine .guard (fun refused => absurd refused receipt) fun _ =>
    Ensures.await (fun o given record told => ?_) fun o given error told => ?_
  · cases given with
    | read mem =>
      cases told
      rw [journalled] at mem
      obtain ⟨-, rfl⟩ := Prod.mk.inj (List.mem_singleton.mp mem)
      rw [if_neg]
      · exact ⟨(), rfl, rfl⟩
      · simp [recordOf, honest.recordDigest]
    | unknown absent => nomatch told
  · cases given with
    | read mem => nomatch told
    | unknown absent =>
      rw [journalled] at absent
      exact absurd (List.mem_singleton_self _) (absent _)

def pendingOf : Row Key Record → Option (Stored Pending)
  | ⟨.pending _, pending⟩ => some pending
  | _ => none

def headOf : Row Key Record → Option (Stored Head)
  | ⟨.head, head⟩ => some head
  | _ => none

theorem visit_returns {rows : List (Row Key Record)} (scanned : Scanned)
    (valid : ∀ d operation, ⟨.operation d, operation⟩ ∈ rows → Returns cfg order (fun _ t => t = s)
      (validateOperation cfg operation.value (operationIdOf cfg.logId operation.value.checkpoint))
        s) :
    Returns cfg order (fun found t => t = s ∧
      found.pending = scanned.pending ++ rows.filterMap pendingOf ∧
      found.head = (rows.filterMap headOf).getLast?.or scanned.head)
        (visit cfg rows scanned) s := by
  induction rows generalizing scanned with
  | nil => exact ⟨scanned, rfl, rfl, by simp, by simp⟩
  | cons row rows ih =>
    have later (d : Data) (operation : Stored Operation) (mem : ⟨.operation d, operation⟩ ∈ rows) :=
      valid d operation (List.mem_cons_of_mem _ mem)
    obtain ⟨key, stored⟩ := row
    cases key with
    | head =>
      refine (ih _ later).mono ?_
      rintro x t ⟨found, rfl, still, pending, head⟩
      rw [List.filterMap_cons_none (rfl : pendingOf ⟨.head, stored⟩ = none),
        List.filterMap_cons_some (rfl : headOf ⟨.head, stored⟩ = some stored), List.getLast?_cons]
      refine ⟨found, rfl, still, pending, head.trans ?_⟩
      cases (rows.filterMap headOf).getLast? <;> rfl
    | operation digest =>
      refine .seqReturns (valid digest stored List.mem_cons_self) fun _ t same => ?_
      rw [same]
      refine (ih _ later).mono ?_
      rintro x t ⟨found, rfl, still, pending, head⟩
      rw [List.filterMap_cons_none (rfl : pendingOf ⟨.operation digest, stored⟩ = none),
        List.filterMap_cons_none (rfl : headOf ⟨.operation digest, stored⟩ = none)]
      exact ⟨found, rfl, still, pending, head⟩
    | pending digest =>
      refine (ih _ later).mono ?_
      rintro x t ⟨found, rfl, still, pending, head⟩
      rw [List.filterMap_cons_some (rfl : pendingOf ⟨.pending digest, stored⟩ = some stored),
        List.filterMap_cons_none (rfl : headOf ⟨.pending digest, stored⟩ = none)]
      exact ⟨found, rfl, still, pending.trans (List.append_assoc _ _ _), head⟩

section Read

variable {c : SignedCheckpoint} {r : WitnessReceipt} {timeProof : TrustedTimeProof}
  {journal : JournalReceipt}

theorem checkSignature_ok {message message' : String} (h : checkSignature cfg c message = .ok ()) :
    checkSignature cfg c message' = .ok () := by
  unfold checkSignature at h ⊢
  split at h
  · nomatch h
  next bytes canonical =>
    split at h
    next valid => rw [if_pos valid]
    · nomatch h

theorem Attested.checkHead (h : Attested cfg c r timeProof) :
    checkHead cfg (headFor c r timeProof journal) = .ok () := by
  have argument := h.argument
  simp only [checkArgument, refuse, guard_eq_ok, not_or, not_not] at argument
  obtain ⟨⟨valid, log, -⟩, signed⟩ := argument
  have numbered : 1 ≤ c.sequence := by
    simp only [Bool.not_eq_true', Bool.not_eq_false, validCheckpoint, isPositive, Bool.and_eq_true,
      decide_eq_true_eq] at valid
    omega
  simp only [Witness.checkHead, refuse, guard_eq_ok, bind_eq_ok, not_or, not_not]
  refine ⟨⟨Nat.not_lt.mpr numbered, valid, by simp [h.valid], by simp [checkpointRootFor, isDigest],
    by simp [witnessRootFor, isDigest], log, trivial⟩, (), checkSignature_ok signed,
    ⟨trivial, trivial⟩, (), h.relation, h.time⟩

theorem Attested.checkOperation (h : Attested cfg c r timeProof) :
    checkOperation cfg (operationFor c r timeProof journal) = .ok () := by
  have argument := h.argument
  simp only [checkArgument, refuse, guard_eq_ok, not_or, not_not] at argument
  obtain ⟨⟨valid, log, -⟩, signed⟩ := argument
  simp only [Witness.checkOperation, refuse, guard_eq_ok, bind_eq_ok, not_or, not_not]
  exact ⟨⟨valid, log, trivial⟩, (), checkSignature_ok signed, ⟨by simp [h.valid], trivial⟩, (),
    h.relation, h.time⟩

theorem Single.keys (h : Single cfg c r timeProof journal s) :
    (sortedKeys order s.store fun _ => true).Perm
      [.head, ownOperation cfg c, ownPending cfg c] := by
  have nodup : (sortedKeys order s.store fun _ => true).Nodup :=
    (List.mergeSort_perm _ _).nodup_iff.mpr (s.store.nodup.filter _)
  refine (List.perm_ext_iff_of_nodup nodup (by simp [operationKey, pendingKey])).mpr fun k => ?_
  rw [mem_sortedKeys]
  obtain ⟨_, head⟩ := h.head
  obtain ⟨_, operation⟩ := h.operation
  obtain ⟨_, pending⟩ := h.pending
  constructor
  · rintro ⟨held, -⟩
    by_contra other
    simp only [List.mem_cons, List.not_mem_nil, or_false, not_or] at other
    exact held (h.others k other.1 other.2.1 other.2.2)
  · intro mem
    simp only [List.mem_cons, List.not_mem_nil, or_false] at mem
    refine ⟨?_, rfl⟩
    rcases mem with rfl | rfl | rfl
    · exact List.ne_nil_of_mem (Versioned.mem_held_of_get head)
    · exact List.ne_nil_of_mem (Versioned.mem_held_of_get operation)
    · exact List.ne_nil_of_mem (Versioned.mem_held_of_get pending)

theorem Single.page (order : LinearOrder Key) (h : Single cfg c r timeProof journal s) :
    (scanPage order 100 s.store (fun _ => true) none).2 = none ∧
    (scanPage order 100 s.store (fun _ => true) none).1.Perm
      ([.head, ownOperation cfg c, ownPending cfg c].filterMap
        fun k => (s.store.get k).map fun stored => ⟨k, stored⟩) := by
  have keys : (sortedKeys order s.store fun _ => true).Perm _ := h.keys
  have short : (sortedKeys order s.store fun _ => true).length = 3 := keys.length_eq
  have whole : (remainingKeys order s.store (fun _ => true) none).take 100 =
      sortedKeys order s.store fun _ => true :=
    List.take_of_length_le (by rw [remainingKeys, short]; decide)
  simp only [scanPage, whole, short]
  exact ⟨rfl, keys.filterMap _⟩

theorem Single.scan (h : Single cfg c r timeProof journal s) (pages : Nat) :
    Returns cfg order (fun found t => t = s ∧ ∃ pending head, found.pending = [pending] ∧
      found.head = some head ∧ pending.value = pendingFor c r timeProof (some journal) ∧
      head.value = headFor c r timeProof journal) (scanAll cfg (pages + 1) none {}) s := by
  refine .await (fun o honest page told => ?_) fun o honest error told => ?_
  · cases honest
    cases told
    obtain ⟨last, rows⟩ := h.page order
    obtain ⟨version, head⟩ := h.head
    obtain ⟨version', operation⟩ := h.operation
    obtain ⟨version'', pending⟩ := h.pending
    simp only [List.filterMap_cons, List.filterMap_nil, head, operation, pending,
      Option.map_some] at rows
    have pendings := List.perm_singleton.mp (rows.filterMap pendingOf)
    have heads := List.perm_singleton.mp (rows.filterMap headOf)
    refine .seqReturns (visit_returns {} fun d found mem => ?_) ?_
    · have there := rows.mem_iff.mp mem
      simp only [List.mem_cons, List.not_mem_nil, or_false] at there
      rcases there with other | here | other
      · nomatch other
      · cases here
        refine .checked (fun error refused => ?_) fun _ _ => ?_
        · nomatch h.attested.checkOperation.symm.trans refused
        · exact validateJournal_returns h.journalled h.receipt
      · nomatch other
    · rintro found t ⟨same, foundPending, foundHead⟩
      rw [last]
      refine ⟨found, rfl, same, _, ⟨version, headFor c r timeProof journal⟩,
        foundPending.trans pendings, ?_, rfl, rfl⟩
      rw [foundHead, heads]
      rfl
  · cases honest
    nomatch told

theorem validateStoredHead_returns (h : Attested cfg c r timeProof)
    (journalled : s.journal = [(journal, recordOf cfg c r)])
    (honest : HonestReceipt (recordOf cfg c r) journal) {head : Stored Head}
    (value : head.value = headFor c r timeProof journal) :
    Returns cfg order (fun found t => t = s ∧ found = some head)
      (validateStoredHead cfg (some head)) s := by
  obtain ⟨version, head⟩ := head
  obtain rfl : head = _ := value
  refine .checked (fun error refused => ?_) fun _ _ => ?_
  · nomatch h.checkHead.symm.trans refused
  · refine .seqReturns (validateJournal_returns journalled honest) fun _ t same => ?_
    exact ⟨_, rfl, same, rfl⟩

theorem Single.check (h : Single cfg c r timeProof journal s) {found : Scanned}
    {pending : Stored Pending} {head : Stored Head} (pendings : found.pending = [pending])
    (heads : found.head = some head)
    (pendingValue : pending.value = pendingFor c r timeProof (some journal))
    (headValue : head.value = headFor c r timeProof journal) :
    Returns cfg order (fun checked t => t = s ∧ checked = some head)
      (checkScanned cfg found) s := by
  unfold checkScanned
  simp only [pendings, heads, pendingValue]
  refine .guard (fun missing => absurd missing (Option.some_ne_none _)) fun _ => ?_
  refine .seqReturns (validateStoredHead_returns h.attested h.journalled h.receipt headValue) ?_
  rintro checked t ⟨same, rfl⟩
  rw [same]
  have argument := h.attested.argument
  simp only [checkArgument, refuse, guard_eq_ok, not_or, not_not] at argument
  have matches_ : Returns cfg order (fun _ t => t = s) (matchPending cfg
      (pendingFor c r timeProof (some journal)) (some head)) s := by
    refine .guard (fun mismatch => ?_) fun _ => ?_
    · simp [headValue, h.attested.valid, argument.1.1] at mismatch
    · refine .checked (fun error refused => ?_) fun _ _ =>
        Ensures.checked (fun error refused => ?_) fun _ _ => ?_
      · cases h.attested.relation.symm.trans refused
      · cases h.attested.time.symm.trans refused
      · exact validateJournal_returns h.journalled h.receipt
  refine .seqReturns matches_ fun _ t same => ?_
  exact ⟨_, rfl, same, rfl⟩

end Read

/-- A signed head with the nonce, the sequence number and the roots. -/
structure Tells (cfg : Config) (nonce : String) (sequence : Nat) (checkpointRoot witnessRoot : Data)
    (head : SignedWitnessHead) : Prop where
  log : head.logId = cfg.logId
  asked : head.nonce = nonce
  sequence : head.sequence = sequence
  checkpointRoot : head.checkpointRoot = checkpointRoot
  witnessRoot : head.witnessRoot = witnessRoot
  verified : cfg.verify (headTuple head) head.signature cfg.signer = true

theorem signHead_returns (nonce : String) (head : Option (Stored Head)) :
    Returns cfg order (fun signed _ => Tells cfg nonce (head.elim 0 (·.value.sequence))
      (head.elim zeroRoot (·.value.checkpointRoot))
      (head.elim zeroRoot (·.value.witnessRoot)) signed)
      (signHead cfg nonce head) s := by
  refine .await (fun o honest proof told => ?_) fun o honest error told => ?_
  · cases honest with
    | now valid =>
      cases told
      refine .checked (fun error refused => nomatch valid.symm.trans refused) fun _ _ => ?_
      refine .await (fun o honest value told => ?_) fun o honest error told => ?_
      · cases honest with
        | sign verified =>
          cases told
          refine .guard (fun refused => ?_) fun _ => ?_
          · exact absurd (verified : cfg.verify (headTuple _) value cfg.signer = true)
              (by simpa [headTuple] using refused)
          · exact ⟨_, rfl, rfl, rfl, rfl, rfl, rfl, verified⟩
      · cases honest
        nomatch told
  · cases honest
    nomatch told

/-! ## The head can be read after at most one checkpoint -/

theorem accepted_refuses (accepted : Accepted cfg order entries s) (many : 2 ≤ entries.length)
    (pages : Nat) (nonce : String) :
    Gives cfg order (fun _ _ => False) (readHead cfg pages nonce) s := by
  obtain ⟨sound, endorsed⟩ := accepted_sound accepted
  cases accepted with
  | nil => exact absurd many (by decide)
  | @snoc before s' t c r accepted sequence =>
    cases accepted with
    | nil => exact absurd many (by simp)
    | @snoc before' _ _ c' r' _ sequence' =>
      obtain ⟨h, mem, rfl, -⟩ := endorsed (c, r) (by simp)
      obtain ⟨h', mem', rfl, -⟩ := endorsed (c', r') (by simp)
      refine readHead_refuses sound mem mem' (fun same => ?_) pages nonce
      rw [same, sequence'] at sequence
      simp at sequence

theorem Accepted.eq_empty (accepted : Accepted cfg order [] s) : s = {} := by
  generalize none_ : ([] : List (SignedCheckpoint × WitnessReceipt)) = entries at accepted
  cases accepted with
  | nil => rfl
  | snoc => simp at none_

theorem honest_answers (signs : ∀ bytes, ∃ value, cfg.verify bytes value cfg.signer = true)
    (s : World) (e : Effect) : ∃ o, Honest cfg s e o := by
  cases e with
  | store request => exact ⟨_, .store⟩
  | now => exact ⟨.time ⟨1, zeroRoot, zeroRoot, "authority"⟩, .now rfl⟩
  | sign bytes =>
    obtain ⟨value, valid⟩ := signs bytes
    exact ⟨_, .sign valid⟩
  | append record =>
    by_cases safe : record.trustedAtMs ≤ maxSafeInteger
    · obtain ⟨versionId, fresh⟩ :=
        Infinite.exists_notMem_finset (insert "" (s.journal.map (·.1.versionId)).toFinset)
      simp only [Finset.mem_insert, List.mem_toFinset, List.mem_map, not_or, not_exists,
        not_and] at fresh
      refine ⟨_, .append (r := ⟨record.operationId, record.sequence, .hash (journalBytes record),
        record.previousDigest, "bucket", "key", versionId, maxSafeInteger⟩) ?_ fun other mem => ?_⟩
      · exact ⟨rfl, rfl, rfl, rfl, by simp, by simp, fresh.1, safe, le_rfl⟩
      · exact absurd rfl (fresh.2 _ mem)
    · exact ⟨.fails "", .refuse (Nat.not_le.mp safe)⟩
  | read r =>
    by_cases there : ∃ record, (r, record) ∈ s.journal
    · obtain ⟨record, mem⟩ := there
      exact ⟨_, .read mem⟩
    · exact ⟨.fails "", .unknown (not_exists.mp there)⟩
  | isEmpty => exact ⟨.done 0, .isEmpty⟩

/-- `readHead`, given enough pages to scan, ends, and returns a signed head with the nonce, the
sequence number and the roots. -/
def ReturnsHead (cfg : Config) (order : LinearOrder Key) (s : World) (nonce : String)
    (sequence : Nat) (checkpointRoot witnessRoot : Data) : Prop :=
  ∃ pages, (∃ x t, Runs cfg order (readHead cfg pages nonce) s x t) ∧
    ∀ x t, Runs cfg order (readHead cfg pages nonce) s x t →
      ∃ head, x = .ok head ∧ Tells cfg nonce sequence checkpointRoot witnessRoot head

variable {nonce : String} {sequence : Nat} {root witnessRoot : Data}

theorem returnsHead_of_checked (signs : ∀ bytes, ∃ value, cfg.verify bytes value cfg.signer = true)
    (valid : isNonce nonce = true) (scanned : Scanned → Prop)
    (scans : Returns cfg order (fun found t => t = s ∧ scanned found) (scanAll cfg 1 none {}) s)
    (checks : ∀ found, scanned found → Returns cfg order (fun checked _ =>
      checked.elim 0 (·.value.sequence) = sequence ∧
      checked.elim zeroRoot (·.value.checkpointRoot) = root ∧
      checked.elim zeroRoot (·.value.witnessRoot) = witnessRoot) (checkScanned cfg found) s) :
    ReturnsHead cfg order s nonce sequence root witnessRoot := by
  have reads : Returns cfg order (fun head _ => Tells cfg nonce sequence root witnessRoot head)
      (readHead cfg 1 nonce) s := by
    refine .guard (fun refused => absurd valid (by simpa using refused)) fun _ => ?_
    refine .seqReturns scans fun found t ended => ?_
    obtain ⟨same, found'⟩ := ended
    rw [same]
    refine .seqReturns (checks found found') ?_
    rintro checked t ⟨rfl, rfl, rfl⟩
    exact signHead_returns nonce checked
  exact ⟨1, exists_exec (honest_answers signs) _ s, fun x t run => reads.exec run⟩

theorem not_returnsHead (accepted : Accepted cfg order entries s) (many : 2 ≤ entries.length) :
    ¬ReturnsHead cfg order s nonce sequence root witnessRoot := by
  rintro ⟨pages, ⟨x, t, run⟩, returns⟩
  obtain ⟨head, rfl, -⟩ := returns x t run
  exact (accepted_refuses accepted many pages nonce).exec run head rfl

theorem returnsHead_empty (signs : ∀ bytes, ∃ value, cfg.verify bytes value cfg.signer = true)
    (valid : isNonce nonce = true) : ReturnsHead cfg order {} nonce 0 zeroRoot zeroRoot := by
  refine returnsHead_of_checked signs valid (fun found => found = {}) ?_ ?_
  · have empty : scanPage order 100 ({} : World).store (fun _ => true) none = ([], none) := by
      simp [scanPage, remainingKeys, sortedKeys]
    refine .await (fun o honest page told => ?_) fun o honest error told => ?_
    · cases honest
      cases told
      rw [empty]
      exact ⟨_, rfl, rfl, rfl⟩
    · cases honest
      cases told
  · rintro found rfl o honest
    cases honest
    exact ⟨_, rfl, rfl, rfl, rfl⟩

theorem Single.returnsHead (order : LinearOrder Key)
    (signs : ∀ bytes, ∃ value, cfg.verify bytes value cfg.signer = true)
    (valid : isNonce nonce = true) (h : Single cfg c r timeProof journal s) :
    ReturnsHead cfg order s nonce c.sequence (checkpointRootFor c) (witnessRootFor r) := by
  refine returnsHead_of_checked signs valid _ (h.scan 0) ?_
  rintro found ⟨pending, head, pendings, heads, pendingValue, headValue⟩
  refine (h.check pendings heads pendingValue headValue).mono ?_
  rintro x t ⟨checked, rfl, -, rfl⟩
  exact ⟨_, rfl, by simp [headValue]⟩

/-- **The head can be read after at most one checkpoint**, and never again after that: the second
checkpoint leaves a second pending record. -/
theorem head_readable_iff (signs : ∀ bytes, ∃ value, cfg.verify bytes value cfg.signer = true)
    {entries : List (SignedCheckpoint × WitnessReceipt)} (accepted : Accepted cfg order entries s)
    {nonce : String} (valid : isNonce nonce = true) : ReturnsHead cfg order s nonce entries.length
      (entries.getLast?.elim zeroRoot (checkpointRootFor ·.1))
      (entries.getLast?.elim zeroRoot (witnessRootFor ·.2)) ↔ entries.length ≤ 1 := by
  constructor
  · intro returns
    by_contra many
    exact not_returnsHead accepted (by omega) returns
  · intro few
    cases accepted with
    | nil => exact returnsHead_empty signs valid
    | @snoc entries s' t c r before sequence previous run =>
      have none_ : entries = [] := by simpa using few
      subst none_
      rw [before.eq_empty] at run
      obtain ⟨timeProof, journal, single⟩ := (accept_single c).exec run r rfl
      have returns := single.returnsHead order signs valid
      rwa [sequence] at returns

/-! ### Two checkpoints -/

/-- The answers of `exampleConfig`'s outside that are checked to be honest. -/
def exampleHonest (s : World) : Effect → Outside → Bool
  | .store _, .done size => size == 100
  | .now, .time proof => decide (proof = ⟨1, zeroRoot, zeroRoot, "authority"⟩)
  | .sign _, .signature _ => true
  | .append record, .receipt r =>
    decide (r = ⟨record.operationId, record.sequence, .hash (journalBytes record),
      record.previousDigest, "bucket", "key", "version", 1⟩) &&
    decide (record.trustedAtMs ≤ 1) && s.journal.all fun entry => entry.1 ≠ r
  | .read r, .record record => s.journal.contains (r, record)
  | _, _ => false

theorem exampleHonest_sound (s : World) (e : Effect) (o : Outside)
    (h : exampleHonest s e o = true) : Honest exampleConfig s e o := by
  unfold exampleHonest at h
  split at h
  next size =>
    obtain rfl := eq_of_beq h
    exact .store
  next proof =>
    obtain rfl := of_decide_eq_true h
    exact .now rfl
  · exact .sign rfl
  next record r =>
    simp only [Bool.and_eq_true, decide_eq_true_eq, List.all_eq_true] at h
    obtain ⟨⟨rfl, early⟩, fresh⟩ := h
    refine .append ⟨rfl, rfl, rfl, rfl, by simp, by simp, by simp, early,
      (by decide : 1 ≤ maxSafeInteger)⟩ fun other mem => ?_
    exact absurd rfl (fresh _ mem)
  next r record => exact .read (by simpa using h)
  · nomatch h

/-- What the outside says to an `accept`, after the reads of an older head. -/
def exampleAnswers (c : SignedCheckpoint) (r : WitnessReceipt) : List Outside :=
  [.time ⟨1, zeroRoot, zeroRoot, "authority"⟩, .done 100, .signature "signature", .done 100,
    .receipt (exampleJournal c r), .record (exampleRecord c r), .done 100, .done 100, .done 100,
    .done 100, .done 100]

noncomputable def acceptedFirst : Option (Except Failure WitnessReceipt × World) :=
  replay (perform (someOrder Key)) exampleHonest (accept exampleConfig firstCheckpoint).run
    ([.done 100, .done 100] ++ exampleAnswers firstCheckpoint firstReceipt) {}

noncomputable def acceptedSecond : Option (Except Failure WitnessReceipt × World) := do
  replay (perform (someOrder Key)) exampleHonest (accept exampleConfig secondCheckpoint).run
    ([.done 100, .done 100, .record (exampleRecord firstCheckpoint firstReceipt)] ++
      exampleAnswers secondCheckpoint secondReceipt) (← acceptedFirst).2

theorem acceptedFirst_ok : acceptedFirst.map (·.1.toOption) = some (some firstReceipt) := by
  decide +kernel

theorem acceptedSecond_ok : acceptedSecond.map (·.1.toOption) = some (some secondReceipt) := by
  decide +kernel

theorem runs_of_replay {A : Type} {p : Method A} {answers : List Outside} {a : A}
    {ran : Except Failure A × World}
    (run : replay (perform (someOrder Key)) exampleHonest p.run answers s = some ran)
    (returned : ran.1.toOption = some a) : Runs exampleConfig (someOrder Key) p s
    (.ok a) ran.2 := by
  obtain ⟨x, t⟩ := ran
  cases x with
  | error e => nomatch returned
  | ok b =>
    cases returned
    exact exec_of_replay exampleHonest_sound run

theorem example_accepted : ∃ s t,
    Accepted exampleConfig (someOrder Key) [(firstCheckpoint, firstReceipt)] s ∧
    Accepted exampleConfig (someOrder Key)
      [(firstCheckpoint, firstReceipt), (secondCheckpoint, secondReceipt)] t := by
  obtain ⟨first, ran, returned⟩ := Option.map_eq_some_iff.mp acceptedFirst_ok
  obtain ⟨second, ran', returned'⟩ := Option.map_eq_some_iff.mp acceptedSecond_ok
  have accepted : Accepted exampleConfig (someOrder Key) [(firstCheckpoint, firstReceipt)]
      first.2 :=
    .snoc .nil rfl rfl (runs_of_replay ran returned)
  simp only [acceptedSecond, ran, Option.bind_eq_bind, Option.bind_some] at ran'
  exact ⟨first.2, second.2, accepted, .snoc accepted rfl rfl (runs_of_replay ran' returned')⟩

def exampleNonce : String := String.ofList (List.replicate 64 'a')

theorem head_read_after_one : ∃ s,
    Accepted exampleConfig (someOrder Key) [(firstCheckpoint, firstReceipt)] s ∧
    ReturnsHead exampleConfig (someOrder Key) s exampleNonce 1 (checkpointRootFor firstCheckpoint)
      (witnessRootFor firstReceipt) := by
  obtain ⟨s, t, accepted, -⟩ := example_accepted
  exact ⟨s, accepted,
    (head_readable_iff (fun _ => ⟨"", rfl⟩) accepted (by decide +kernel)).mpr le_rfl⟩

/-- After two checkpoints no call of `readHead` returns. -/
theorem head_lost_after_two : ∃ t, Accepted exampleConfig (someOrder Key)
      [(firstCheckpoint, firstReceipt), (secondCheckpoint, secondReceipt)] t ∧
    ¬ReturnsHead exampleConfig (someOrder Key) t exampleNonce 2 (checkpointRootFor secondCheckpoint)
      (witnessRootFor secondReceipt) := by
  obtain ⟨s, t, -, accepted⟩ := example_accepted
  exact ⟨t, accepted, not_returnsHead accepted le_rfl⟩

end CorelinkRunners.Monitor.Witness
