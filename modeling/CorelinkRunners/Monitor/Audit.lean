import CorelinkRunners.Kit.Digest
import CorelinkRunners.Kit.Text

/-!
# Checkpoints, receipts and their checks

The records that the audit log of the monitor and its witness exchange: signed checkpoints, the
receipts of the witness, the records and receipts of the journal, and proofs of trusted time; with
the serializations they are signed and hashed in and the checks of the audit log.

A digest stands for what was hashed (`Kit.Data`). Whether a signature is valid for some bytes under
an identity is left open: signatures may be randomized, and nothing here depends on how they are
made. -/

namespace CorelinkRunners.Monitor

open Kit

/-- The errors of the audit log, of the witness, and of what they stand on. -/
inductive Failure
  | auditIntegrity (message : String)
  | auditBusy (message : String)
  | witnessInput (message : String)
  | witnessFork (message : String)
  | witnessBusy (message : String)
  /-- An error of the store, the journal, the clock or the signer. -/
  | other (message : String)
  /-- A scan has not come to its end. -/
  | scanning
  deriving DecidableEq

/-! ## Records -/

inductive Role
  | ingestAck
  | recovery
  | manifest
  | pageAck
  | journal
  | witness
  deriving DecidableEq

structure PublicSigningIdentity where
  keyId : String
  epoch : String
  publicKeySpkiPem : String
  role : Role

structure SignedCheckpoint where
  logId : String
  sequence : Nat
  previousRoot : Data
  recordDigest : Data
  operationId : String
  trustedAtMs : Nat
  signerKeyId : String
  signerEpoch : String
  signature : String
  deriving DecidableEq

structure WitnessReceipt where
  logId : String
  sequence : Nat
  checkpointRoot : Data
  previousWitnessRoot : Data
  checkpointSignerKeyId : String
  checkpointSignerEpoch : String
  witnessKeyId : String
  witnessEpoch : String
  trustedAtMs : Nat
  signature : String
  deriving DecidableEq

structure JournalRecord where
  operationId : Data
  sequence : Nat
  previousDigest : Data
  payload : Data
  trustedAtMs : Nat
  deriving DecidableEq

structure JournalReceipt where
  operationId : Data
  sequence : Nat
  recordDigest : Data
  previousDigest : Data
  bucket : String
  key : String
  versionId : String
  retainedUntilMs : Nat
  deriving DecidableEq

structure TrustedTimeProof where
  timeMs : Nat
  proofDigest : Data
  requestDigest : Data
  authority : String
  deriving DecidableEq

/-! ## Serializations -/

def zeroRoot : Data := .text "0000000000000000000000000000000000000000000000000000000000000000"

def signedTuple (c : SignedCheckpoint) : List Data :=
  [.text "1", .text c.logId, .number c.sequence, c.previousRoot, c.recordDigest,
    .text c.operationId, .number c.trustedAtMs, .text c.signerKeyId, .text c.signerEpoch]

def checkpointRootFor (c : SignedCheckpoint) : Data :=
  .hash (.list (signedTuple c ++ [.text c.signature]))

def witnessTuple (r : WitnessReceipt) : List Data :=
  [.text "1", .text r.logId, .number r.sequence, r.checkpointRoot, r.previousWitnessRoot,
    .text r.checkpointSignerKeyId, .text r.checkpointSignerEpoch, .text r.witnessKeyId,
    .text r.witnessEpoch, .number r.trustedAtMs]

def witnessRootFor (r : WitnessReceipt) : Data :=
    .hash (.list (witnessTuple r ++ [.text r.signature]))

def journalBytes (record : JournalRecord) : Data :=
  .list [record.operationId, .number record.sequence, record.previousDigest, record.payload,
    .number record.trustedAtMs]

theorem checkpointRootFor_inj {c d : SignedCheckpoint} :
    checkpointRootFor c = checkpointRootFor d ↔ c = d := by
  constructor
  · intro h
    cases c
    cases d
    simp_all [checkpointRootFor, signedTuple]
  · exact congrArg _

/-! ## Checks -/

def maxSafeInteger : Nat := 2 ^ 53 - 1

def isPositive (n : Nat) : Bool := decide (0 < n ∧ n ≤ maxSafeInteger)

def isText (max : Nat) (s : String) : Bool :=
  s != "" && decide (Text.utf16Len s.toList ≤ max) && !s.toList.any Text.isControl

def isHex (s : String) : Bool :=
  s.toList.all fun c => ('0' ≤ c && c ≤ '9') || ('a' ≤ c && c ≤ 'f')

def isDigest : Data → Bool
  | .hash _ => true
  | .text s => s.length == 64 && isHex s
  | _ => false

def require (holds : Bool) (message : String) : Except Failure Unit :=
  if holds then .ok () else .error (.auditIntegrity message)

def positive (value : Nat) (name : String) : Except Failure Unit :=
  require (isPositive value) ("invalid " ++ name)

def text (value name : String) (max : Nat := 256) : Except Failure Unit :=
  require (isText max value) ("invalid " ++ name)

def digest (value : Data) (name : String) : Except Failure Unit :=
  require (isDigest value) ("invalid " ++ name)

def validateCheckpoint (c : SignedCheckpoint) : Except Failure Unit := do
  text c.logId "logId"
  positive c.sequence "checkpoint sequence"
  digest c.previousRoot "previousRoot"
  digest c.recordDigest "recordDigest"
  text c.operationId "operationId"
  positive c.trustedAtMs "trustedAtMs"
  text c.signerKeyId "signerKeyId"
  text c.signerEpoch "signerEpoch"
  text c.signature "signature" 8192

def validateWitness (r : WitnessReceipt) : Except Failure Unit := do
  text r.logId "logId"
  positive r.sequence "witness sequence"
  digest r.checkpointRoot "checkpointRoot"
  digest r.previousWitnessRoot "previousWitnessRoot"
  text r.checkpointSignerKeyId "checkpointSignerKeyId"
  text r.checkpointSignerEpoch "checkpointSignerEpoch"
  text r.witnessKeyId "witnessKeyId"
  text r.witnessEpoch "witnessEpoch"
  positive r.trustedAtMs "witness trustedAtMs"
  text r.signature "witness signature" 8192

def canonicalCheckpointBytes (c : SignedCheckpoint) : Except Failure Data := do
  validateCheckpoint c
  return .list (signedTuple c)

def canonicalWitnessBytes (r : WitnessReceipt) : Except Failure Data := do
  validateWitness r
  return .list (witnessTuple r)

/-- `verifyOrderedFields`: the bytes, the signature and the identity. -/
abbrev Verifier : Type := Data → String → PublicSigningIdentity → Bool

end CorelinkRunners.Monitor
