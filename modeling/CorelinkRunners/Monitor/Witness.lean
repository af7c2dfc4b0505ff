import CorelinkRunners.Kit.Rely
import CorelinkRunners.Monitor.Audit
import CorelinkRunners.Monitor.Store

/-!
# The durable checkpoint witness

The witness countersigns the checkpoints of the audit log, one after the other. It keeps a head, one
record per accepted checkpoint, and one pending record per checkpoint it has signed; every receipt
is journalled before the head moves. `accept` may run in any number of instances at once on one
store: what it awaits (the store, the clock, the signer, the journal) is an effect here, so that
other calls can come between any two of them and a call can be cut at any of them.

`readHead` scans every record of the witness, checks all of them against each other, and signs the
head for a nonce.
-/

namespace CorelinkRunners.Monitor.Witness

open Kit

/-! ## Records -/

structure Pending where
  checkpoint : SignedCheckpoint
  checkpointRoot : Data
  receipt : WitnessReceipt
  witnessRoot : Data
  timeProof : TrustedTimeProof
  journal : Option JournalReceipt := none

structure Operation where
  checkpoint : SignedCheckpoint
  checkpointRoot : Data
  receipt : WitnessReceipt
  witnessRoot : Data
  timeProof : TrustedTimeProof
  journal : JournalReceipt

structure Head where
  sequence : Nat
  checkpoint : SignedCheckpoint
  checkpointRoot : Data
  witnessRoot : Data
  receipt : WitnessReceipt
  timeProof : TrustedTimeProof
  journal : JournalReceipt

structure SignedWitnessHead where
  logId : String
  nonce : String
  sequence : Nat
  checkpointRoot : Data
  witnessRoot : Data
  trustedAtMs : Nat
  signerKeyId : String
  signerEpoch : String
  signature : String

/-- The keys of the witness: `head`, `operation:<digest>` and `pending:<digest>`. -/
inductive Key
  | head
  | operation (digest : Data)
  | pending (digest : Data)
  deriving DecidableEq

abbrev Record : Key → Type
  | .head => Head
  | .operation _ => Operation
  | .pending _ => Pending

def operationKey (operationId : Data) : Key := .operation (.hash operationId)

def pendingKey (operationId : Data) : Key := .pending (.hash operationId)

def checkpointJson (c : SignedCheckpoint) : Data :=
  .cons (.text "checkpoint") (.list (signedTuple c ++ [.text c.signature]))

/-- `logId/sequence/digest`. -/
def operationIdOf (logId : String) (c : SignedCheckpoint) : Data :=
  .list [.text logId, .number c.sequence, .hash (checkpointJson c)]

def journalPayload (c : SignedCheckpoint) (response : WitnessReceipt) : Data :=
  .list [checkpointJson c, .list (witnessTuple response ++ [.text response.signature])]

/-! ## Checks -/

def isIdentity (identity : PublicSigningIdentity) (role : Role) : Bool :=
  identity.role == role && identity.keyId != "" && identity.epoch != "" &&
    identity.publicKeySpkiPem != ""

/-- What the constructor of the witness takes and checks. -/
structure Config where
  logId : String
  signer : PublicSigningIdentity
  journalIdentity : PublicSigningIdentity
  verify : Verifier
  named : logId ≠ ""
  signs : isIdentity signer .witness = true
  journals : isIdentity journalIdentity .journal = true

def validCheckpoint (c : SignedCheckpoint) : Bool :=
  c.logId != "" && isPositive c.sequence && isDigest c.previousRoot && isDigest c.recordDigest &&
    c.operationId != "" && isPositive c.trustedAtMs && c.signerKeyId != "" && c.signerEpoch != "" &&
    c.signature != ""

def validReceipt (r : WitnessReceipt) : Bool :=
  isPositive r.sequence && isDigest r.checkpointRoot && isDigest r.previousWitnessRoot &&
    isPositive r.trustedAtMs && r.signature != ""

def refuse {A : Type} (message : String) : Except Failure A := .error (.witnessInput message)

section Checks

variable (cfg : Config)

def checkSignature (c : SignedCheckpoint) (message : String) : Except Failure Unit :=
  match canonicalCheckpointBytes c with
  | .error e => .error e
  | .ok bytes => if cfg.verify bytes c.signature cfg.journalIdentity then .ok () else refuse message

def validateTimeProof (proof : TrustedTimeProof) (trustedAtMs : Option Nat) : Except Failure Unit :=
  if !isPositive proof.timeMs || !isDigest proof.proofDigest || !isDigest proof.requestDigest ||
      proof.authority == "" || trustedAtMs.any (· != proof.timeMs) then
    refuse "invalid trusted time proof"
  else .ok ()

def validateReceiptRelation (c : SignedCheckpoint) (r : WitnessReceipt) (checkpointRoot : Data)
    (previousWitnessRoot : Option Data) : Except Failure Unit :=
  if !validReceipt r || r.logId != c.logId || r.sequence != c.sequence ||
      r.checkpointRoot != checkpointRoot || r.checkpointSignerKeyId != c.signerKeyId ||
      r.checkpointSignerEpoch != c.signerEpoch || r.witnessKeyId != cfg.signer.keyId ||
      r.witnessEpoch != cfg.signer.epoch || previousWitnessRoot.any
        (· != r.previousWitnessRoot) then
    refuse "invalid persisted witness receipt"
  else match canonicalWitnessBytes r with
    | .error e => .error e
    | .ok bytes =>
      if cfg.verify bytes r.signature cfg.signer then .ok ()
      else refuse "invalid persisted witness receipt"

end Checks

/-! ## Effects -/

inductive Effect
  | store (request : StoreRequest Key Record)
  | now
  | sign (bytes : Data)
  | append (record : JournalRecord)
  | read (receipt : JournalReceipt)
  | isEmpty

abbrev Ans : Effect → Type
  | .store request => request.Reply
  | .now => TrustedTimeProof
  | .sign _ => String
  | .append _ => JournalReceipt
  | .read _ => JournalRecord
  | .isEmpty => Bool

abbrev Method (A : Type) : Type := Kit.Call Effect Ans Failure A

def await (e : Effect) : Method (Ans e) := Call.await e

def get (k : Key) : Method (Option (Stored (Record k))) := await (.store (.get k))

def transact (writes : List (Write Key Record)) : Method Outcome :=
    await (.store (.transact writes))

def check {A : Type} (x : Except Failure A) : Method A := Call.ofExcept x

/-! ## Methods -/

section Methods

variable (cfg : Config)

def validateJournal (receipt : JournalReceipt) (c : SignedCheckpoint) (response : WitnessReceipt)
    (operationId checkpointRoot : Data) : Method Unit := do
  if receipt.operationId ≠ operationId ∨ receipt.sequence ≠ c.sequence ∨
      receipt.previousDigest ≠ checkpointRoot ∨ receipt.bucket = "" ∨ receipt.key = "" ∨
      receipt.versionId = "" ∨ maxSafeInteger < receipt.retainedUntilMs ∨
      receipt.retainedUntilMs < response.trustedAtMs then
    throw (.witnessInput "invalid durable journal receipt")
  let record ← await (.read receipt)
  if record.operationId ≠ operationId ∨ record.sequence ≠ c.sequence ∨
      record.previousDigest ≠ checkpointRoot ∨ record.trustedAtMs ≠ response.trustedAtMs ∨
      .hash (journalBytes record) ≠ receipt.recordDigest ∨
      record.payload ≠ journalPayload c response then
    throw (.witnessInput "durable journal record mismatch")

def checkHead (head : Head) : Except Failure Unit := do
  if head.sequence < 1 ∨ !validCheckpoint head.checkpoint ∨ !validReceipt head.receipt ∨
      !isDigest head.checkpointRoot ∨ !isDigest head.witnessRoot ∨
      head.checkpoint.logId ≠ cfg.logId ∨ head.sequence ≠ head.checkpoint.sequence then
    refuse "invalid persisted witness head"
  checkSignature cfg head.checkpoint "invalid persisted witness head"
  if checkpointRootFor head.checkpoint ≠ head.checkpointRoot ∨
      witnessRootFor head.receipt ≠ head.witnessRoot then
    refuse "persisted witness root mismatch"
  validateReceiptRelation cfg head.checkpoint head.receipt head.checkpointRoot none
  validateTimeProof head.timeProof (some head.receipt.trustedAtMs)

def validateStoredHead (stored : Option (Stored Head)) : Method (Option (Stored Head)) :=
  match stored with
  | none => return none
  | some head => do
    check (checkHead cfg head.value)
    validateJournal head.value.journal head.value.checkpoint head.value.receipt
      (operationIdOf cfg.logId head.value.checkpoint) head.value.checkpointRoot
    return some head

/-- A receipt that is already there, after the checks of its relation to the checkpoint. -/
def recheck (operation : Operation) (operationId checkpointRoot : Data) :
    Method WitnessReceipt := do
  check (validateReceiptRelation cfg operation.checkpoint operation.receipt checkpointRoot none)
  check (validateTimeProof operation.timeProof (some operation.receipt.trustedAtMs))
  validateJournal operation.journal operation.checkpoint operation.receipt operationId
    checkpointRoot
  return operation.receipt

def accepted (c : SignedCheckpoint) (operationId : Data) (operation : Operation) :
    Method WitnessReceipt := do
  if operation.checkpoint ≠ c ∨ operation.checkpointRoot ≠ checkpointRootFor c then
    throw (.witnessInput "invalid persisted witness operation")
  check (checkSignature cfg operation.checkpoint "invalid persisted witness operation")
  if witnessRootFor operation.receipt ≠ operation.witnessRoot then
    throw (.witnessInput "invalid persisted witness operation")
  recheck cfg operation operationId (checkpointRootFor c)

def checkPending (c : SignedCheckpoint) (pending : Pending) (previousWitnessRoot : Data) :
    Except Failure Unit := do
  if pending.checkpoint ≠ c then .error (.witnessFork "pending checkpoint fork")
  if !validCheckpoint pending.checkpoint ∨ pending.checkpointRoot ≠ checkpointRootFor c ∨
      checkpointRootFor pending.checkpoint ≠ pending.checkpointRoot then
    refuse "invalid persisted pending witness"
  checkSignature cfg pending.checkpoint "invalid persisted pending witness"
  if pending.witnessRoot ≠ witnessRootFor pending.receipt then
    refuse "invalid persisted pending witness"
  validateReceiptRelation cfg pending.checkpoint pending.receipt (checkpointRootFor c)
    (some previousWitnessRoot)
  validateTimeProof pending.timeProof (some pending.receipt.trustedAtMs)

def unsignedReceipt (c : SignedCheckpoint) (previousWitnessRoot : Data) (trustedAtMs : Nat) :
    WitnessReceipt :=
  { logId := cfg.logId, sequence := c.sequence, checkpointRoot := checkpointRootFor c,
    previousWitnessRoot, checkpointSignerKeyId := c.signerKeyId,
    checkpointSignerEpoch := c.signerEpoch, witnessKeyId := cfg.signer.keyId,
    witnessEpoch := cfg.signer.epoch, trustedAtMs, signature := "pending" }

def signReceipt (c : SignedCheckpoint) (previousWitnessRoot : Data) (trustedAtMs : Nat) :
    Method WitnessReceipt := do
  let unsigned := unsignedReceipt cfg c previousWitnessRoot trustedAtMs
  let bytes ← check (canonicalWitnessBytes unsigned)
  let signature ← await (.sign bytes)
  let receipt := { unsigned with signature }
  if !validReceipt receipt then throw (.witnessInput "witness signature failed verification")
  let bytes ← check (canonicalWitnessBytes receipt)
  if !cfg.verify bytes receipt.signature cfg.signer then
    throw (.witnessInput "witness signature failed verification")
  return receipt

/-- What a call goes on with when another one has reserved the pending record. -/
def reserved (c : SignedCheckpoint) (operationId previousWitnessRoot : Data) :
    Method (Pending ⊕ WitnessReceipt) := do
  match ← get (pendingKey operationId) with
  | some (existing : Stored Pending) =>
    if existing.value.checkpoint ≠ c then throw (.witnessBusy "conflicting pending witness")
    check (validateReceiptRelation cfg existing.value.checkpoint existing.value.receipt
      (checkpointRootFor c) (some previousWitnessRoot))
    check (validateTimeProof existing.value.timeProof (some existing.value.receipt.trustedAtMs))
    return .inl existing.value
  | none =>
    match ← get (operationKey operationId) with
    | some (completed : Stored Operation) =>
      return .inr (← recheck cfg completed.value operationId (checkpointRootFor c))
    | none =>
      match ← validateStoredHead cfg (← get .head) with
      | some advanced =>
        if advanced.value.checkpointRoot = checkpointRootFor c then
          return .inr advanced.value.receipt
        throw (.witnessBusy "conflicting pending witness")
      | none => throw (.witnessBusy "conflicting pending witness")

/-- The pending record of a checkpoint: the one that is there, or a new one. -/
def reserve (c : SignedCheckpoint) (operationId previousWitnessRoot : Data)
    (timeProof : TrustedTimeProof) : Method (Pending ⊕ WitnessReceipt) := do
  match ← get (pendingKey operationId) with
  | some (pending : Stored Pending) =>
    check (checkPending cfg c pending.value previousWitnessRoot)
    return .inl pending.value
  | none =>
    let receipt ← signReceipt cfg c previousWitnessRoot timeProof.timeMs
    let pending : Pending :=
      { checkpoint := c, checkpointRoot := checkpointRootFor c, receipt,
        witnessRoot := witnessRootFor receipt, timeProof }
    match ← transact [⟨pendingKey operationId, none, pending⟩] with
    | .committed => return .inl pending
    | .conflict => reserved cfg c operationId previousWitnessRoot

/-- The journal receipt of a pending record, from the record or from the journal. -/
def journalize (c : SignedCheckpoint) (operationId : Data) (pending : Pending) :
    Method JournalReceipt := do
  match pending.journal with
  | some journal => return journal
  | none =>
    check (validateTimeProof pending.timeProof (some pending.receipt.trustedAtMs))
    let journal ← await (.append
      { operationId, sequence := c.sequence, previousDigest := checkpointRootFor c,
        payload := journalPayload pending.checkpoint pending.receipt,
        trustedAtMs := pending.receipt.trustedAtMs })
    validateJournal journal pending.checkpoint pending.receipt operationId (checkpointRootFor c)
    match ← get (pendingKey operationId) with
    | some (current : Stored Pending) =>
      let _ ← transact [⟨pendingKey operationId, some current.version,
        ({ pending with journal := some journal } : Pending)⟩]
      return journal
    | none => return journal

def advance (c : SignedCheckpoint) (operationId : Data) (head : Option (Stored Head))
    (pending : Pending) (journal : JournalReceipt) : Method WitnessReceipt := do
  let outcome ← transact
    [⟨.head, head.map (·.version),
        ({ sequence := c.sequence, checkpoint := pending.checkpoint,
           checkpointRoot := checkpointRootFor c, witnessRoot := pending.witnessRoot,
           receipt := pending.receipt, timeProof := pending.timeProof, journal } : Head)⟩,
      ⟨operationKey operationId, none,
        ({ checkpoint := pending.checkpoint, checkpointRoot := checkpointRootFor c,
           receipt := pending.receipt, witnessRoot := pending.witnessRoot,
           timeProof := pending.timeProof, journal } : Operation)⟩]
  match outcome with
  | .conflict =>
    match ← get (operationKey operationId) with
    | some (existing : Stored Operation) =>
      recheck cfg existing.value operationId (checkpointRootFor c)
    | none => throw (.witnessBusy "witness head changed")
  | .committed =>
    match ← get (pendingKey operationId) with
    | some (final : Stored Pending) =>
      let _ ← transact [⟨pendingKey operationId, some final.version,
        ({ final.value with journal := some journal } : Pending)⟩]
      return pending.receipt
    | none => return pending.receipt

def acceptNew (c : SignedCheckpoint) (operationId : Data) : Method WitnessReceipt := do
  let head ← validateStoredHead cfg (← get .head)
  if c.sequence ≠ head.elim 0 (·.value.sequence) + 1 ∨
      c.previousRoot ≠ head.elim zeroRoot (·.value.checkpointRoot) then
    throw (.witnessFork "checkpoint chain is not contiguous")
  let timeProof ← await .now
  check (validateTimeProof timeProof none)
  let previousWitnessRoot := head.elim zeroRoot (·.value.witnessRoot)
  match ← reserve cfg c operationId previousWitnessRoot timeProof with
  | .inr receipt => return receipt
  | .inl pending =>
    let journal ← journalize c operationId pending
    advance cfg c operationId head pending journal

def checkArgument (c : SignedCheckpoint) : Except Failure Unit := do
  if !validCheckpoint c ∨ c.logId ≠ cfg.logId ∨ !isIdentity cfg.journalIdentity .journal ∨
      c.signerKeyId ≠ cfg.journalIdentity.keyId ∨ c.signerEpoch ≠ cfg.journalIdentity.epoch then
    refuse "invalid journal checkpoint"
  checkSignature cfg c "invalid journal checkpoint"

def accept (c : SignedCheckpoint) : Method WitnessReceipt := do
  check (checkArgument cfg c)
  let operationId := operationIdOf cfg.logId c
  match ← get (operationKey operationId) with
  | some (operation : Stored Operation) => accepted cfg c operationId operation.value
  | none => acceptNew cfg c operationId

/-! ## Reading the head -/

structure Scanned where
  head : Option (Stored Head) := none
  pending : List (Stored Pending) := []
  operations : Nat := 0

def checkOperation (operation : Operation) : Except Failure Unit := do
  if !validCheckpoint operation.checkpoint ∨ operation.checkpoint.logId ≠ cfg.logId ∨
      operation.checkpointRoot ≠ checkpointRootFor operation.checkpoint then
    refuse "invalid persisted witness operation"
  checkSignature cfg operation.checkpoint "invalid persisted witness operation"
  if !validReceipt operation.receipt ∨ operation.witnessRoot ≠ witnessRootFor operation.receipt then
    refuse "invalid persisted witness operation"
  validateReceiptRelation cfg operation.checkpoint operation.receipt operation.checkpointRoot none
  validateTimeProof operation.timeProof (some operation.receipt.trustedAtMs)

def validateOperation (operation : Operation) (operationId : Data) : Method Unit := do
  check (checkOperation cfg operation)
  validateJournal operation.journal operation.checkpoint operation.receipt operationId
    operation.checkpointRoot

def visit : List (Row Key Record) → Scanned → Method Scanned
  | [], scanned => return scanned
  | ⟨.head, head⟩ :: rows, scanned => visit rows { scanned with head := some head }
  | ⟨.pending _, pending⟩ :: rows, scanned =>
    visit rows { scanned with pending := scanned.pending ++ [pending] }
  | ⟨.operation _, operation⟩ :: rows, scanned => do
    validateOperation cfg operation.value (operationIdOf cfg.logId operation.value.checkpoint)
    visit rows { scanned with operations := scanned.operations + 1 }

def scanAll : (pages : Nat) → Option Key → Scanned → Method Scanned
  | 0, _, _ => throw .scanning
  | pages + 1, cursor, scanned => do
    let page ← await (.store (.scan (fun _ => true) cursor))
    let scanned ← visit cfg page.1 scanned
    match page.2 with
    | none => return scanned
    | some next => scanAll pages (some next) scanned

def matchPending (pending : Pending) (head : Option (Stored Head)) : Method Unit := do
  match head with
  | none => throw (.witnessBusy "witness pending state has no committed head")
  | some checked =>
    if !validCheckpoint pending.checkpoint ∨ !validReceipt pending.receipt ∨
        pending.checkpointRoot ≠ checked.value.checkpointRoot ∨
        pending.witnessRoot ≠ checked.value.witnessRoot ∨
          pending.receipt ≠ checked.value.receipt then
      throw (.witnessInput "pending witness does not match head")
    check (validateReceiptRelation cfg pending.checkpoint pending.receipt
      pending.checkpointRoot none)
    check (validateTimeProof pending.timeProof (some pending.receipt.trustedAtMs))
    match pending.journal with
    | none => throw (.witnessBusy "witness pending journal is missing")
    | some journal =>
      validateJournal journal pending.checkpoint pending.receipt
        (operationIdOf cfg.logId pending.checkpoint) pending.checkpointRoot

def headTuple (head : SignedWitnessHead) : Data :=
  .list [.text "1", .text head.logId, .text head.nonce, .number head.sequence, head.checkpointRoot,
    head.witnessRoot, .number head.trustedAtMs, .text head.signerKeyId, .text head.signerEpoch]

def signHead (nonce : String) (head : Option (Stored Head)) : Method SignedWitnessHead := do
  let timeProof ← await .now
  check (validateTimeProof timeProof none)
  let unsigned : SignedWitnessHead :=
    { logId := cfg.logId, nonce, sequence := head.elim 0 (·.value.sequence),
      checkpointRoot := head.elim zeroRoot (·.value.checkpointRoot),
      witnessRoot := head.elim zeroRoot (·.value.witnessRoot), trustedAtMs := timeProof.timeMs,
      signerKeyId := cfg.signer.keyId, signerEpoch := cfg.signer.epoch, signature := "" }
  let signature ← await (.sign (headTuple unsigned))
  let result := { unsigned with signature }
  if !cfg.verify (headTuple result) signature cfg.signer then
    throw (.witnessInput "witness head signature failed verification")
  return result

def isNonce (nonce : String) : Bool := nonce.length == 64 && isHex nonce

def checkScanned (scanned : Scanned) : Method (Option (Stored Head)) := do
  match scanned.pending with
  | [] =>
    let checked ← validateStoredHead cfg scanned.head
    match checked with
    | some head => return some head
    | none =>
      if 0 < scanned.operations then
        throw (.witnessInput "committed witness operation has no head")
      -- an emptiness that cannot be told is an error of the witness too
      let empty ← tryCatch (await .isEmpty)
        fun _ => throw (.witnessInput "journal emptiness is unavailable")
      if !empty then throw (.witnessInput "genesis requires an empty durable journal")
      return none
  | [pending] =>
    if pending.value.journal = none then
      throw (.witnessBusy "witness head has unresolved pending state")
    let checked ← validateStoredHead cfg scanned.head
    matchPending cfg pending.value checked
    return checked
  | _ => throw (.witnessBusy "multiple witness pending states")

def readHead (pages : Nat) (nonce : String) : Method SignedWitnessHead := do
  if !isNonce nonce then throw (.witnessInput "invalid witness head nonce")
  let scanned ← scanAll cfg pages none {}
  let checked ← checkScanned cfg scanned
  signHead cfg nonce checked

end Methods

/-! ## The world -/

structure World where
  store : Versioned Key Record := ∅
  journal : List (JournalReceipt × JournalRecord) := []
  /-- The checkpoints for which a call returned a receipt, with it. -/
  answers : List (SignedCheckpoint × WitnessReceipt) := []

inductive Outside
  /-- The store and the journal do as asked; a page holds at most `size` records. -/
  | done (size : Nat)
  | time (proof : TrustedTimeProof)
  | signature (value : String)
  | receipt (value : JournalReceipt)
  | record (value : JournalRecord)
  | fails (message : String)
  /-- The effect takes place and its answer is lost. -/
  | lost (done : Outside) (message : String)

def raise {A : Type} : Except String A → Except Failure A
  | .ok a => .ok a
  | .error message => .error (.other message)

def answer (order : LinearOrder Key) :
    (e : Effect) → Outside → World → Except Failure (Ans e) × World
  | .store request, .done size, s =>
    (raise (serve order size s.store request).1,
      { s with store := (serve order size s.store request).2 })
  | .now, .time proof, s => (.ok proof, s)
  | .sign _, .signature value, s => (.ok value, s)
  | .append record, .receipt value, s =>
    (.ok value, { s with journal := s.journal ++ [(value, record)] })
  | .read _, .record value, s => (.ok value, s)
  | .isEmpty, .done _, s => (.ok s.journal.isEmpty, s)
  | _, _, s => (.error (.other "no answer"), s)

def perform (order : LinearOrder Key) (e : Effect) :
    Outside → World → Except Failure (Ans e) × World
  | .fails message, s => (.error (.other message), s)
  | .lost done message, s => (.error (.other message), (perform order e done s).2)
  | outside, s => answer order e outside s

/-- A call of `accept` and what it answers; nobody hears the rest of a call that was cut. -/
abbrev Reply : Type := Option (Except Failure WitnessReceipt)

/-- Any number of instances, whose calls interleave at every effect and can be cut at any. -/
def machine (cfg : Config) (order : LinearOrder Key) :
    Machine Effect (fun e => Except Failure (Ans e)) Outside SignedCheckpoint Reply World where
  perform := perform order
  prog c := (accept cfg c).run.map some
  enter _ s := some s
  leave c reply s :=
    match reply with
    | some (.ok receipt) => { s with answers := s.answers ++ [(c, receipt)] }
    | _ => s
  awaits _ := true
  droppable _ := true
  remnant e := .vis e fun _ => .pure none
  cancels _ := true

abbrev Event : Type := TaskEvent SignedCheckpoint Outside

def World.run (cfg : Config) (order : LinearOrder Key) (events : List Event) : World :=
  (events.foldl (Tasks.step (machine cfg order)) (Tasks.initial {})).shared

end CorelinkRunners.Monitor.Witness
