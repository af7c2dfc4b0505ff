import CorelinkRunners.Kit.Decimal
import CorelinkRunners.Kit.Listing
import CorelinkRunners.Kit.Table
import CorelinkRunners.Kit.Uri

/-!
# The credential obligation authority

Every credential that was issued for a job is an obligation to revoke it. A job that is closed has a
fence, and a tenant that is suspended has a floor: the generation up to which its credentials are to
be revoked. Whether an obligation is covered by one of them is decided where it is registered, where
its revocation is requested, and where pending obligations are listed.

Every operation is one transaction. One that throws inside of it leaves the storage as it was,
except that `registerCredential` throws after its transaction when the obligation is covered.
-/

namespace CorelinkRunners.Credentials

open Kit

/-! ## Records -/

structure CredentialIdentity where
  jobId : String
  tenant : String
  patId : String
  lifecycleGeneration : Option String
  deriving DecidableEq

inductive Status
  | registered
  | revokeRequested
  | revoked
  deriving DecidableEq

structure Obligation where
  identity : CredentialIdentity
  status : Status
  confirmedAtMs : Option Int := none
  deriving DecidableEq

structure Fence where
  jobId : String
  closedAtMs : Int

structure Floor where
  tenant : String
  revokedThrough : String

structure Store where
  obligations : OrdMap String Obligation := ∅
  fences : Table String Fence := ∅
  floors : Table String Floor := ∅

/-! ## Keys -/

def obligationPrefix : String := "credential-obligation:"

def jobPrefix (jobId : String) : String := obligationPrefix ++ Uri.encodeComponent jobId ++ ":"

def credentialKey (identity : CredentialIdentity) : String :=
  jobPrefix identity.jobId ++ Uri.encodeComponent identity.tenant ++ ":" ++
    Uri.encodeComponent identity.patId

def fenceKey (jobId : String) : String := "credential-job-fence:" ++ Uri.encodeComponent jobId

def floorKey (tenant : String) : String := "credential-tenant-floor:" ++ Uri.encodeComponent tenant

/-! ## Checks -/

/-- A generation as it is compared; none is the generation zero. -/
def generation (value : Option String) : Except String String :=
  match value with
  | none => .ok "0"
  | some text => if isI64 text then .ok text else .error "invalid lifecycle generation"

def CredentialIdentity.generation (identity : CredentialIdentity) : String :=
  identity.lifecycleGeneration.getD "0"

def CredentialIdentity.number (identity : CredentialIdentity) : Nat := bigInt identity.generation

def validIdentity (identity : CredentialIdentity) : Except String Bool :=
  if identity.jobId = "" ∨ identity.tenant = "" ∨ identity.patId = "" then .ok false
  else match Credentials.generation identity.lifecycleGeneration with
    | .error e => .error e
    | .ok _ => .ok true

def identityMatches (a b : CredentialIdentity) : Bool :=
  a.jobId == b.jobId && a.tenant == b.tenant && a.patId == b.patId && a.generation == b.generation

def validateCredential (key : String) (value : Obligation) : Except String Unit :=
  match validIdentity value.identity with
  | .error e => .error e
  | .ok valid =>
    if valid && key == credentialKey value.identity then .ok ()
    else .error "malformed credential obligation"

def covers (floor : Option Floor) (identity : CredentialIdentity) : Bool :=
  floor.any fun f => decide (identity.number ≤ bigInt f.revokedThrough)

def requireIdentity (identity : CredentialIdentity) : Except String Unit :=
  match validIdentity identity with
  | .error e => .error e
  | .ok false => .error "invalid credential identity"
  | .ok true => .ok ()

namespace Store

variable (s : Store)

def fenceOf (jobId : String) : Except String (Option Fence) :=
  match s.fences.get (fenceKey jobId) with
  | none => .ok none
  | some fence =>
    if fence.jobId = jobId then .ok (some fence) else .error "malformed credential job fence"

def floorOf (tenant : String) : Except String (Option Floor) :=
  match s.floors.get (floorKey tenant) with
  | none => .ok none
  | some floor =>
    if floor.tenant ≠ tenant then .error "malformed credential tenant floor"
    else match Credentials.generation (some floor.revokedThrough) with
      | .error e => .error e
      | .ok _ => .ok (some floor)

def putObligation (value : Obligation) : Store :=
  { s with obligations := s.obligations.insert (credentialKey value.identity) value }

/-! ## Operations -/

def register (identity : CredentialIdentity) (fence : Option Fence) (floor : Option Floor) :
    Except String Unit × Store :=
  let closed := fence.isSome || covers floor identity
  match s.obligations[credentialKey identity]? with
  | some existing =>
    match validateCredential (credentialKey identity) existing with
    | .error e => (.error e, s)
    | .ok () =>
      if !identityMatches existing.identity identity then
        (.error "credential identity generation conflict", s)
      else match existing.status with
        | .registered =>
          if closed then (.error "credential job is closed",
            s.putObligation ⟨identity, .revokeRequested, none⟩)
          else (.ok (), s)
        | _ => (.error "credential obligation already terminal or requested", s)
  | none =>
    if closed then (.error "credential job is closed",
      s.putObligation ⟨identity, .revokeRequested, none⟩)
    else (.ok (), s.putObligation ⟨identity, .registered, none⟩)

def registerCredential (identity : CredentialIdentity) : Except String Unit × Store :=
  match requireIdentity identity with
  | .error e => (.error e, s)
  | .ok () =>
    match s.fenceOf identity.jobId with
    | .error e => (.error e, s)
    | .ok fence =>
      match s.floorOf identity.tenant with
      | .error e => (.error e, s)
      | .ok floor => s.register identity fence floor

def listedError (jobId : String) (entry : String × Obligation) : Option String :=
  match validateCredential entry.1 entry.2 with
  | .error e => some e
  | .ok () =>
    if entry.2.identity.jobId ≠ jobId then some "credential obligation job key divergent" else none

def jobPage (jobId : String) : List (String × Obligation) :=
  (s.obligations.toList.filter fun entry =>
    (jobPrefix jobId).toList.isPrefixOf entry.1.toList).take 101

def closeJobCredentials (jobId : String) (now : Int) : Except String Bool × Store :=
  if jobId = "" then (.error "invalid job identity", s)
  else match s.fenceOf jobId with
    | .error e => (.error e, s)
    | .ok fence =>
      match (s.jobPage jobId).findSome? (listedError jobId) with
      | some e => (.error e, s)
      | none =>
        let known := !(s.jobPage jobId).isEmpty
        match fence with
        | some _ => (.ok known, s)
        | none => (.ok known, { s with fences := s.fences.put (fenceKey jobId) ⟨jobId, now⟩ })

def closeTenantCredentials (tenant through : String) : Except String Unit × Store :=
  if tenant = "" then (.error "invalid tenant identity", s)
  else match Credentials.generation (some through) with
    | .error e => (.error e, s)
    | .ok _ =>
      match s.floorOf tenant with
      | .error e => (.error e, s)
      | .ok current =>
        if current.all fun f => decide (bigInt f.revokedThrough < bigInt through) then
          (.ok (), { s with floors := s.floors.put (floorKey tenant) ⟨tenant, through⟩ })
        else (.ok (), s)

def lookup (identity : CredentialIdentity) : Except String Obligation :=
  match s.obligations[credentialKey identity]? with
  | none => .error "credential obligation missing or divergent"
  | some record =>
    match validateCredential (credentialKey identity) record with
    | .error e => .error e
    | .ok () =>
      if identityMatches record.identity identity then .ok record
      else .error "credential obligation missing or divergent"

def requestCredentialRevocation (identity : CredentialIdentity) : Except String Unit × Store :=
  match requireIdentity identity with
  | .error e => (.error e, s)
  | .ok () =>
    match s.lookup identity with
    | .error e => (.error e, s)
    | .ok record =>
      match record.status with
      | .registered => (.ok (), s.putObligation { record with status := .revokeRequested })
      | .revokeRequested | .revoked => (.ok (), s)

def confirmCredentialRevoked (identity : CredentialIdentity) (now : Int) :
    Except String Unit × Store :=
  match requireIdentity identity with
  | .error e => (.error e, s)
  | .ok () =>
    match s.lookup identity with
    | .error e => (.error e, s)
    | .ok record =>
      match record.status with
      | .registered => (.error "credential obligation status invalid", s)
      | .revokeRequested =>
        (.ok (), s.putObligation { record with status := .revoked, confirmedAtMs := some now })
      | .revoked => (.ok (), s)

end Store

/-! ## Listing -/

inductive Selection
  | all
  | job (jobId : String)
  | tenant (tenant : String) (throughGeneration : Option String)

def Selection.through? : Selection → Option String
  | tenant _ through => through
  | _ => none

def Selection.matches_ (selection : Selection) (identity : CredentialIdentity) : Bool :=
  match selection with
  | all => true
  | job jobId => identity.jobId == jobId
  | tenant t through =>
    identity.tenant == t && through.all fun g => decide (identity.number ≤ bigInt g)

structure CredentialPage where
  records : List CredentialIdentity
  cursor : Option String
  complete : Bool

def listLimit : Nat := 101

namespace Store

variable (s : Store)

def selected (selection : Selection) (requested : Option Status) (entry : String × Obligation) :
    Except String (Option CredentialIdentity) :=
  let value := entry.2
  match validateCredential entry.1 value with
  | .error e => .error e
  | .ok () =>
    match s.fenceOf value.identity.jobId with
    | .error e => .error e
    | .ok fence =>
      match s.floorOf value.identity.tenant with
      | .error e => .error e
      | .ok floor =>
        let through := selection.through? <|> floor.map Floor.revokedThrough
        let covered := through.any fun g => decide (value.identity.number ≤ bigInt g)
        let fencedRegistered := decide (requested = some .revokeRequested) &&
          decide (value.status = .registered) && (fence.isSome || covered)
        if selection.matches_ value.identity && decide (value.status ≠ .revoked) &&
            (requested.all (fun status => decide (value.status = status)) || fencedRegistered) then
          .ok (some value.identity)
        else .ok none

def collect (selection : Selection) (requested : Option Status) :
    List (String × Obligation) → Except String (List CredentialIdentity)
  | [] => .ok []
  | entry :: rest =>
    match s.selected selection requested entry with
    | .error e => .error e
    | .ok found =>
      match collect selection requested rest with
      | .error e => .error e
      | .ok more => .ok (found.toList ++ more)

def checkSelection (selection : Selection) : Except String Unit :=
  match selection with
  | .tenant t through =>
    match Credentials.generation through with
    | .error e => .error e
    | .ok _ =>
      match s.floorOf t with
      | .error e => .error e
      | .ok _ => .ok ()
  | _ => .ok ()

def entries (cursor : Option String) : List (String × Obligation) :=
  s.obligations.page (cursor.filter (· != "")) listLimit

def pendingCredentials (selection : Selection) (cursor : Option String)
    (requested : Option Status) : Except String CredentialPage :=
  match s.checkSelection selection with
  | .error e => .error e
  | .ok () =>
    match s.collect selection requested (s.entries cursor) with
    | .error e => .error e
    | .ok records =>
      if (s.entries cursor).length < listLimit then .ok ⟨records, none, true⟩
      else .ok ⟨records, (s.entries cursor).getLast?.map Prod.fst, false⟩

def revocationRequestedCredentials (cursor : Option String) : Except String CredentialPage :=
  s.pendingCredentials .all cursor (some .revokeRequested)

end Store

/-! ## Runs -/

inductive Op
  | register (identity : CredentialIdentity)
  | closeJob (jobId : String) (now : Int)
  | closeTenant (tenant through : String)
  | request (identity : CredentialIdentity)
  | confirm (identity : CredentialIdentity) (now : Int)

def Store.after (s : Store) : Op → Store
  | .register identity => (s.registerCredential identity).2
  | .closeJob jobId now => (s.closeJobCredentials jobId now).2
  | .closeTenant tenant through => (s.closeTenantCredentials tenant through).2
  | .request identity => (s.requestCredentialRevocation identity).2
  | .confirm identity now => (s.confirmCredentialRevoked identity now).2

def Store.run (s : Store) (ops : List Op) : Store := ops.foldl Store.after s

end CorelinkRunners.Credentials
