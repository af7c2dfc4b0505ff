import CorelinkRunners.Kit.Decimal

/-!
# Compute grants and terminal receipts

The grant of a compute reservation is a signed token; the obligation that is built on it is bound to
the fields of the token's payload. A reservation ends with a receipt of the provider, in one of two
forms.

Base64, JSON and the Ed25519 check are outside of the code: `Runtime` has what they answer.
-/

namespace CorelinkRunners.Compute

open Kit

/-! ## Patterns -/

def isSafeInteger (n : Int) : Bool := decide (-9007199254740991 ≤ n ∧ n ≤ 9007199254740991)

def isHex (c : Char) : Bool :=
  c.isDigit || (decide ('a' ≤ c) && decide (c ≤ 'f')) || (decide ('A' ≤ c) && decide (c ≤ 'F'))

def isOneOf (more : List Char) (c : Char) : Bool := c.isAlphanum || more.contains c

def isRun (is : Char → Bool) (least most : Nat) (text : String) : Bool :=
  decide (least ≤ text.length) && decide (text.length ≤ most) && text.toList.all is

def isUuid (text : String) : Bool :=
  match text.toList.splitOn '-' with
  | [a, b, c, d, e] =>
    [a, b, c, d, e].all (fun part => part.all isHex) && a.length == 8 && b.length == 4 &&
      c.length == 4 && d.length == 4 && e.length == 12 &&
      c.head?.any (fun v => decide ('1' ≤ v) && decide (v ≤ '5')) &&
      d.head?.any (fun v => ['8', '9', 'a', 'b', 'A', 'B'].contains v)
  | _ => false

def isGrantUuid (text : String) : Bool :=
  isUuid text && text != "00000000-0000-0000-0000-000000000000"

def isWorkloadId (text : String) : Bool := isRun (isOneOf [':', '_', '.', '/', '-']) 1 256 text
def isKeyId (text : String) : Bool := isRun (isOneOf ['_', '-']) 1 64 text
def isDigest (text : String) : Bool := isRun isHex 64 64 text
def isSignature (text : String) : Bool :=
  decide (43 ≤ text.length) && text.toList.all (isOneOf ['_', '-'])
def isAuthority (text : String) : Bool := isRun (isOneOf ['.', '_', ':', '-']) 1 128 text

def isGeneration (text : String) : Bool :=
  match text.toList with
  | 'g' :: '-' :: rest => isRun (isOneOf ['_', '-']) 1 64 (.ofList rest)
  | _ => false

/-! ## Records -/

inductive WorkloadKind
  | spawnWorkerRunner
  | devenv
  deriving DecidableEq

def WorkloadKind.text : WorkloadKind → String
  | .spawnWorkerRunner => "spawn_worker_runner"
  | .devenv => "devenv"

structure ComputeBinding where
  token : String
  reservationId : String
  tenantId : String
  workloadKind : WorkloadKind
  workloadId : String
  vcpuCount : Int
  maximumWallMs : Int
  deriving DecidableEq

inductive Field
  | text (value : String)
  | number (value : Int)
  | other
  deriving DecidableEq

inductive TerminalState
  | cancelled
  | settled
  deriving DecidableEq

/-- How a receipt is authenticated: in the earlier form, or in an envelope. -/
inductive Seal
  | legacy (terminalAuthority authoritySignature : String)
  | envelope (receiptVersion tenantId grantDigest generation authority keyId : String)
      (signedAtMs expiresAtMs : Int) (signature : String)
  deriving DecidableEq

structure TerminalReceipt where
  reservationId : String
  state : TerminalState
  materialized : Bool
  actualVcpuMs : String
  evidenceDigest : String
  futureMaterializationFence : String
  authenticated : Seal
  deriving DecidableEq

/-- What a provider answers: a value in the form of a receipt, or one that is refused for its
form. -/
inductive Received
  | receipt (receipt : TerminalReceipt)
  | malformed (error : String)

inductive ReceiptState
  | prepared
  | active
  | cancelled
  | settled
  deriving DecidableEq

structure ComputeReceipt where
  reservationId : String
  state : ReceiptState

structure TerminalConfig where
  terminalAuthority : String
  receiptVersion : String
  terminalKeyId : String

structure Runtime where
  /-- The object that the first part of a token encodes. -/
  decodeGrant : String → Option (List (String × Field))
  terminalConfig : Option TerminalConfig
  /-- The check of a receipt's signature; `none` where the key or the signature cannot be used. -/
  verifySignature : TerminalReceipt → Option Bool

/-! ## Grants -/

structure Grant where
  issuedAtMs : Int
  expiresAtMs : Int

def grantFields : List String :=
  ["v", "key_id", "tenant_id", "workload_kind", "workload_id", "reservation_id", "period_key",
    "ceiling_vcpu_ms", "vcpu_count", "maximum_wall_ms", "issued_at_ms", "expires_at_ms"]

def validPeriod (period : Int) : Bool :=
  decide (197001 ≤ period ∧ period ≤ 999912 ∧ 1 ≤ period % 100 ∧ period % 100 ≤ 12)

def payloadMatches (payload : List (String × Field)) (binding : ComputeBinding) : Bool :=
  payload.lookup "v" == some (.number 1) &&
    payload.lookup "tenant_id" == some (.text binding.tenantId) &&
    payload.lookup "workload_kind" == some (.text binding.workloadKind.text) &&
    payload.lookup "workload_id" == some (.text binding.workloadId) &&
    payload.lookup "reservation_id" == some (.text binding.reservationId) &&
    payload.lookup "vcpu_count" == some (.number binding.vcpuCount) &&
    payload.lookup "maximum_wall_ms" == some (.number binding.maximumWallMs)

def validBinding (binding : ComputeBinding) : Bool :=
  isGrantUuid binding.reservationId && isGrantUuid binding.tenantId &&
    isWorkloadId binding.workloadId && decide (1 ≤ binding.vcpuCount ∧ binding.vcpuCount ≤ 16) &&
    decide (1 ≤ binding.maximumWallMs ∧ binding.maximumWallMs ≤ 28800000)

def validCeiling (text : String) : Bool := isI64 text && text != "0"

def validTerms (payload : List (String × Field)) : Bool :=
  match payload.lookup "key_id", payload.lookup "period_key", payload.lookup "ceiling_vcpu_ms" with
  | some (.text keyId), some (.number period), some (.text ceiling) =>
    isKeyId keyId && isSafeInteger period && validPeriod period && validCeiling ceiling
  | _, _, _ => false

def grantTimes (payload : List (String × Field)) : Option Grant :=
  match payload.lookup "issued_at_ms", payload.lookup "expires_at_ms" with
  | some (.number issued), some (.number expires) =>
    if isSafeInteger issued && isSafeInteger expires &&
        decide (0 ≤ issued ∧ issued < expires ∧ expires - issued ≤ 90000) then some
        ⟨issued, expires⟩
    else none
  | _, _ => none

def parseToken (rt : Runtime) (binding : ComputeBinding) : Except String Grant :=
  if 8192 < binding.token.utf8ByteSize then .error "invalid compute grant"
  else match binding.token.toList.splitOn '.' with
    | [encoded, signature] =>
      if encoded.isEmpty || signature.isEmpty || !encoded.all (isOneOf ['_', '-']) ||
          !signature.all (isOneOf ['_', '-']) then .error "invalid compute grant"
      else match rt.decodeGrant (.ofList encoded) with
        | none => .error "invalid compute grant"
        | some payload =>
          if payload.length ≠ grantFields.length ∨
              ¬∀ field ∈ grantFields, (payload.lookup field).isSome = true then
            .error "invalid compute grant"
          else if !payloadMatches payload binding then .error "compute binding mismatch"
          else if !validBinding binding then .error "invalid compute binding"
          else if !validTerms payload then .error "invalid compute grant"
          else match grantTimes payload with
            | none => .error "invalid compute grant"
            | some grant => .ok grant
    | _ => .error "invalid compute grant"

/-! ## Receipts -/

def Seal.wellFormed : Seal → Bool
  | .legacy authority signature => isAuthority authority && isSignature signature
  | .envelope receiptVersion tenantId grantDigest generation authority keyId signedAtMs expiresAtMs
      signature =>
    isAuthority receiptVersion && isUuid tenantId && isDigest grantDigest &&
      isGeneration generation &&
      isAuthority authority && isAuthority keyId && isSignature signature &&
      isSafeInteger signedAtMs && isSafeInteger expiresAtMs &&
      decide (0 ≤ signedAtMs ∧ signedAtMs < expiresAtMs)

def validateDecimal (text field : String) : Except String Unit :=
  if isI64 text then .ok ()
  else .error ("invalid " ++ field)

def validateAuthenticatedTerminalReceipt (value : Received) (reservationId : String)
    (expected : Option TerminalState) : Except String TerminalReceipt :=
  match value with
  | .malformed error => .error error
  | .receipt receipt =>
    if receipt.reservationId ≠ reservationId ∨ expected.getD receipt.state ≠ receipt.state then
      .error "provider terminal receipt identity mismatch"
    else if !(isDigest receipt.evidenceDigest && isDigest receipt.futureMaterializationFence &&
        receipt.authenticated.wellFormed) then
      .error "provider terminal receipt is unauthenticated"
    else match validateDecimal receipt.actualVcpuMs "actual_vcpu_ms" with
      | .error e => .error e
      | .ok () =>
        match receipt.state with
        | .cancelled =>
          if receipt.materialized ∨ receipt.actualVcpuMs ≠ "0" then
            .error "cancel receipt permits materialization"
          else .ok receipt
        | .settled =>
          if !receipt.materialized then .error "settlement receipt is not materialized"
          else .ok receipt

/-- A receipt in an envelope, by the authority of the configuration and with its signature. -/
def verifyAuthenticatedTerminalReceipt (rt : Runtime) (config : TerminalConfig) (value : Received)
    (reservationId : String) (expected : Option TerminalState) : Except String TerminalReceipt :=
  match validateAuthenticatedTerminalReceipt value reservationId expected with
  | .error e => .error e
  | .ok receipt =>
    match receipt.authenticated with
    | .legacy .. => .error "provider terminal envelope is incomplete"
    | .envelope receiptVersion _ _ _ authority keyId _ _ _ =>
      if !isAuthority config.terminalKeyId || authority != config.terminalAuthority ||
          receiptVersion != config.receiptVersion || keyId != config.terminalKeyId then
        .error "provider terminal authority mismatch"
      else match rt.verifySignature receipt with
        | none => .error "provider terminal authority unavailable"
        | some false => .error "provider terminal receipt signature invalid"
        | some true => .ok receipt

def checkReceipt (rt : Runtime) (value : Received) (reservationId : String)
    (expected : Option TerminalState) : Except String TerminalReceipt :=
  match rt.terminalConfig with
  | some config => verifyAuthenticatedTerminalReceipt rt config value reservationId expected
  | none => validateAuthenticatedTerminalReceipt value reservationId expected

namespace Seal

def authority : Seal → String
  | .legacy authority _ | .envelope _ _ _ _ authority _ _ _ _ => authority

def signature : Seal → String
  | .legacy _ signature | .envelope _ _ _ _ _ _ _ _ signature => signature

/-- The texts that only an envelope has: version, tenant, digest of the grant, generation and
key. -/
def texts : Seal → List String
  | .legacy .. => []
  | .envelope receiptVersion tenantId grantDigest generation _ keyId _ _ _ =>
    [receiptVersion, tenantId, grantDigest, generation, keyId]

def times : Seal → List Int
  | .legacy .. => []
  | .envelope _ _ _ _ _ _ signedAtMs expiresAtMs _ => [signedAtMs, expiresAtMs]

end Seal

/-- Two receipts say the same; what only one of them has is not compared. -/
def sameReceipt (a b : TerminalReceipt) : Bool :=
  a.reservationId == b.reservationId && decide (a.state = b.state) &&
    a.materialized == b.materialized && a.actualVcpuMs == b.actualVcpuMs &&
    a.evidenceDigest == b.evidenceDigest &&
    a.futureMaterializationFence == b.futureMaterializationFence &&
    a.authenticated.authority == b.authenticated.authority &&
    a.authenticated.signature == b.authenticated.signature &&
    (a.authenticated.texts.zip b.authenticated.texts).all
      (fun p => p.1 == "" || p.2 == "" || p.1 == p.2) &&
    (a.authenticated.times.zip b.authenticated.times).all (fun p => p.1 == p.2)

end CorelinkRunners.Compute
