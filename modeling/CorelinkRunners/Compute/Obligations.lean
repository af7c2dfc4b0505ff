import CorelinkRunners.Compute.Receipts
import CorelinkRunners.Kit.Calls
import CorelinkRunners.Kit.Listing

/-!
# Compute obligations

`ComputeObligations` keeps one row for each reservation, and writes it before and after the remote
calls. The calls of its methods are serialized, and each is a program of awaited effects that can
fail or be cut (`Kit.Call`).

A run keeps the history of what was written, of the cancellations that were asked for and of the
claims that succeeded.
-/

namespace CorelinkRunners.Compute

open Kit

inductive Phase
  | preparing
  | active
  | dispatched
  | abandoning
  | settling
  | terminal
  deriving DecidableEq

structure Row where
  binding : ComputeBinding
  phase : Phase
  deadlineMs : Int
  priorPhase : Option Phase := none
  actualVcpuMs : Option String := none
  evidenceDigest : Option String := none
  terminalKind : Option TerminalState := none
  providerReceipt : Option TerminalReceipt := none
  deriving DecidableEq

def ComputeBinding.allowance (binding : ComputeBinding) : Int :=
  binding.vcpuCount * binding.maximumWallMs

/-! ## Effects -/

inductive Effect
  | get (key : String)
  | put (key : String) (row : Row)
  | list (startAfter : Option String)
  | reserve (token reservationId : String)
  | activate (token reservationId : String)
  | cancel (token reservationId : String)
  | settle (token reservationId actualVcpuMs evidence : String)

abbrev Ans : Effect → Type
  | .get _ => Option Row
  | .put _ _ => Unit
  | .list _ => List (String × Row)
  | .reserve _ _ | .activate _ _ => ComputeReceipt
  | .cancel _ _ | .settle _ _ _ _ => Received

abbrev Method (A : Type) : Type := Kit.Call Effect Ans String A

def await (e : Effect) : Method (Ans e) := Call.await e

/-! ## Methods -/

def keyPrefix : String := "compute:obligation:"

def key (id : String) : String := keyPrefix ++ id

def validAmount (row : Row) : Bool :=
  match row.actualVcpuMs, row.evidenceDigest with
  | some actual, some evidence =>
    isI64 actual && isDigest evidence &&
      !(row.terminalKind == some .settled && decide (row.binding.allowance < bigInt actual))
  | _, _ => false

def corrupt {A : Type} : Except String A := .error "corrupt compute obligation"

def validateReceipt (rt : Runtime) (row : Row) : Except String Unit :=
  match row.providerReceipt with
  | none => if row.phase = .terminal then .error "compute terminal receipt missing" else .ok ()
  | some stored =>
    match checkReceipt rt (.receipt stored) row.binding.reservationId none with
    | .error e => .error e
    | .ok receipt =>
      if row.terminalKind ≠ some receipt.state ∨ row.actualVcpuMs ≠ some receipt.actualVcpuMs ∨
          row.evidenceDigest ≠ some receipt.evidenceDigest then corrupt
      else .ok ()

def validateStored (rt : Runtime) (row : Row) : Except String Unit :=
  if !isSafeInteger row.deadlineMs then corrupt
  else match parseToken rt row.binding with
    | .error e => .error e
    | .ok payload =>
      if row.deadlineMs ≠ payload.expiresAtMs then corrupt
      else if row.phase = .abandoning ∧ row.priorPhase ≠ some .preparing ∧
          row.priorPhase ≠ some .active then corrupt
      else if (row.phase = .settling ∨ row.actualVcpuMs.isSome ∨ row.evidenceDigest.isSome) ∧
          (row.actualVcpuMs.isNone ∨ row.evidenceDigest.isNone) then corrupt
      else if row.phase = .terminal ∧ row.terminalKind = none then corrupt
      else if (row.terminalKind = some .settled ∨ row.actualVcpuMs.isSome) ∧ ¬validAmount row then
        corrupt
      else validateReceipt rt row

section Methods

variable (rt : Runtime)

def read (id : String) : Method (Option Row) := do
  match ← await (.get (key id)) with
  | none => return none
  | some row =>
    Call.ofExcept (validateStored rt row)
    if row.binding.reservationId ≠ id then throw "compute storage identity conflict"
    return some row

def put (id : String) (row : Row) : Method Unit := await (.put (key id) row)

def stage (binding : ComputeBinding) (nowMs : Int) : Method Unit := do
  let payload ← Call.ofExcept (parseToken rt binding)
  if !isSafeInteger nowMs || decide (nowMs < payload.issuedAtMs) ||
      decide (payload.expiresAtMs ≤ nowMs) then throw "compute grant expired"
  match ← read rt binding.reservationId with
  | some existing =>
    if existing.binding ≠ binding ∨ existing.deadlineMs ≠ payload.expiresAtMs then
      throw "compute obligation conflict"
    if existing.phase = .active then return
    if existing.phase ≠ .preparing then throw "compute obligation transition refused"
  | none =>
    put binding.reservationId { binding, phase := .preparing, deadlineMs := payload.expiresAtMs }

def reserveAndActivate (binding : ComputeBinding) : Method Unit := do
  let reserved ← await (.reserve binding.token binding.reservationId)
  if reserved.reservationId ≠ binding.reservationId ∨
      (reserved.state ≠ .prepared ∧ reserved.state ≠ .active) then
    throw "invalid compute reserve receipt"
  let activated ←
    if reserved.state = .active then pure reserved
    else await (.activate binding.token binding.reservationId)
  if activated.reservationId ≠ binding.reservationId ∨ activated.state ≠ .active then
    throw "invalid compute activate receipt"

def prepare (binding : ComputeBinding) (nowMs : Int) : Method Unit := do
  stage rt binding nowMs
  match ← read rt binding.reservationId with
  | none => throw "compute obligation missing after staging"
  | some staged =>
    if staged.phase = .active then return
    reserveAndActivate binding
    put binding.reservationId { binding, phase := .active, deadlineMs := staged.deadlineMs }

def claimProvider (reservationId workloadId : String) (nowMs : Int) : Method Unit := do
  match ← read rt reservationId with
  | none => throw "compute obligation claim refused"
  | some row =>
    if row.phase ≠ .active ∨ isSafeInteger nowMs = false ∨ row.binding.workloadId ≠ workloadId then
      throw "compute obligation claim refused"
    let payload ← Call.ofExcept (parseToken rt row.binding)
    if nowMs < payload.issuedAtMs ∨ payload.expiresAtMs ≤ nowMs ∨ row.deadlineMs ≤ nowMs then
      throw "compute obligation claim refused"
    put reservationId { row with phase := .dispatched }

def validateRuntimeDeadline (reservationId workloadId : String)
    (maximumWallMs deadlineMs nowMs : Int) : Method Unit := do
  match ← read rt reservationId with
  | none => throw "compute obligation deadline refused"
  | some row =>
    if row.phase ≠ .active ∨ row.binding.workloadId ≠ workloadId ∨
        row.binding.maximumWallMs ≠ maximumWallMs ∨ isSafeInteger deadlineMs = false ∨
        isSafeInteger nowMs = false ∨ deadlineMs ≤ nowMs then
      throw "compute obligation deadline refused"
    let payload ← Call.ofExcept (parseToken rt row.binding)
    let signedDeadline := payload.expiresAtMs + row.binding.maximumWallMs
    if isSafeInteger signedDeadline = false ∨ signedDeadline < deadlineMs then
      throw "compute obligation deadline refused"

def cancel (reservationId : String) (row : Row) (prior : Phase) : Method Unit := do
  let remote ← await (.cancel row.binding.token reservationId)
  let receipt ← Call.ofExcept (checkReceipt rt remote reservationId (some .cancelled))
  put reservationId { row with
    phase := .terminal
    terminalKind := some .cancelled
    priorPhase := some prior
    actualVcpuMs := some receipt.actualVcpuMs
    evidenceDigest := some receipt.evidenceDigest
    providerReceipt := some receipt }

def abandonUnused (reservationId : String) : Method Unit := do
  match ← read rt reservationId with
  | none => throw "compute obligation abandonment refused"
  | some row =>
    match row.phase with
    | .dispatched | .settling => throw "compute obligation abandonment refused"
    | .terminal => return
    | .preparing | .active =>
      put reservationId { row with phase := .abandoning, priorPhase := some row.phase }
      cancel rt reservationId row row.phase
    | .abandoning =>
      match row.priorPhase with
      | some .preparing => cancel rt reservationId row .preparing
      | some .active => cancel rt reservationId row .active
      | _ => throw "compute obligation abandonment refused"

def settlingRow (row : Row) (proven : TerminalReceipt) : Row :=
  { row with
    phase := .settling
    actualVcpuMs := some proven.actualVcpuMs
    evidenceDigest := some proven.evidenceDigest
    providerReceipt := some proven }

def settle (reservationId : String) (row : Row) (proven : TerminalReceipt) : Method Unit := do
  let remote ← await (.settle row.binding.token reservationId proven.actualVcpuMs
    proven.evidenceDigest)
  let receipt ← Call.ofExcept (checkReceipt rt remote reservationId (some .settled))
  if !sameReceipt receipt proven then throw "compute settlement receipt conflict"
  put reservationId { settlingRow row proven with
    phase := .terminal
    terminalKind := some .settled
    providerReceipt := some receipt }

def settleProven (reservationId : String) (providerReceipt : Received) : Method Unit := do
  let proven ← Call.ofExcept (checkReceipt rt providerReceipt reservationId (some .settled))
  match ← read rt reservationId with
  | none => throw "compute settlement refused"
  | some row =>
    match row.phase with
    | .terminal =>
      if row.providerReceipt.any (sameReceipt · proven) then return
      throw "compute settlement conflict"
    | .dispatched =>
      if row.binding.allowance < bigInt proven.actualVcpuMs then
        throw "compute settlement exceeds reservation"
      put reservationId (settlingRow row proven)
      settle rt reservationId row proven
    | .settling =>
      if !row.providerReceipt.any (sameReceipt · proven) then throw "compute settlement conflict"
      if row.binding.allowance < bigInt proven.actualVcpuMs then
        throw "compute settlement exceeds reservation"
      settle rt reservationId row proven
    | _ => throw "compute settlement refused"

structure DrainResult where
  cursor : Option String
  pending : Bool
  retryRequired : Bool

structure Drained where
  processed : Nat := 0
  last : Option String := none
  pending : Bool := false
  remaining : Bool := false

def genuine (entry : String × Row) : Bool :=
  match validateStored rt entry.2 with
  | .error _ => false
  | .ok () => entry.1 == key entry.2.binding.reservationId

def abandonQuietly (reservationId : String) : Method Bool :=
  tryCatch (do abandonUnused rt reservationId; return false) fun _ => return true

def drainPage (nowMs : Int) (d : Drained) : List (String × Row) → Method Drained
  | [] => return d
  | entry :: rest => do
    if 2 ≤ d.processed then return { d with remaining := true }
    let d := { d with last := some entry.1 }
    if !genuine rt entry then drainPage nowMs { d with pending := true } rest
    else match entry.2.phase with
      | .dispatched | .settling | .terminal => drainPage nowMs d rest
      | phase =>
        if phase ≠ .abandoning ∧ nowMs < entry.2.deadlineMs then
          drainPage nowMs { d with pending := true } rest
        else
          let failed ← abandonQuietly rt entry.2.binding.reservationId
          drainPage nowMs { d with
            processed := d.processed + 1
            pending := d.pending || failed } rest

def drainUnused (nowMs : Int) (cursor : Option String) : Method DrainResult := do
  if isSafeInteger nowMs = false ∨ nowMs < 0 then throw "invalid cleanup clock"
  let page ← await (.list cursor)
  let d ← drainPage rt nowMs {} page
  let continuation := if d.remaining || page.length == 25 then d.last else none
  return ⟨continuation, d.pending || continuation.isSome, d.pending⟩

end Methods

/-! ## Runs -/

inductive Entry
  | wrote (key : String) (row : Row)
  | cancelling (reservationId : String)
  | claimed (reservationId : String)
  deriving DecidableEq

structure World where
  rows : OrdMap String Row := ∅
  history : List Entry := []

structure Reply where
  receipt : ComputeReceipt
  terminal : Received

def listLimit : Nat := 25

def host : Host Effect Ans Reply World where
  note
    | .cancel _ id, w => { w with history := w.history ++ [.cancelling id] }
    | _, w => w
  perform
    | .get key, _, w => (w.rows[key]?, w)
    | .put key row, _, w =>
      ((), { rows := w.rows.insert key row, history := w.history ++ [.wrote key row] })
    | .list startAfter, _, w => (w.rows.page startAfter listLimit, w)
    | .reserve _ _, reply, w | .activate _ _, reply, w => (reply.receipt, w)
    | .cancel _ _, reply, w | .settle _ _ _ _, reply, w => (reply.terminal, w)

inductive Request
  | stage (binding : ComputeBinding) (nowMs : Int)
  | prepare (binding : ComputeBinding) (nowMs : Int)
  | claimProvider (reservationId workloadId : String) (nowMs : Int)
  | validateRuntimeDeadline (reservationId workloadId : String)
      (maximumWallMs deadlineMs nowMs : Int)
  | abandonUnused (reservationId : String)
  | settleProven (reservationId : String) (providerReceipt : Received)
  | drainUnused (nowMs : Int) (cursor : Option String)

def Request.method (rt : Runtime) : Request → Method Unit
  | stage binding nowMs => Compute.stage rt binding nowMs
  | prepare binding nowMs => Compute.prepare rt binding nowMs
  | claimProvider reservationId workloadId nowMs =>
    Compute.claimProvider rt reservationId workloadId nowMs
  | validateRuntimeDeadline reservationId workloadId maximumWallMs deadlineMs nowMs =>
    Compute.validateRuntimeDeadline rt reservationId workloadId maximumWallMs deadlineMs nowMs
  | abandonUnused reservationId => Compute.abandonUnused rt reservationId
  | settleProven reservationId providerReceipt =>
    Compute.settleProven rt reservationId providerReceipt
  | drainUnused nowMs cursor => do discard (Compute.drainUnused rt nowMs cursor)

def Request.claims? : Request → Option String
  | claimProvider reservationId _ _ => some reservationId
  | _ => none

structure Event where
  request : Request
  fates : List (Fate Reply String)

def Request.claimed (request : Request) : Option (Except String Unit) → List Entry
  | some (.ok ()) => request.claims?.toList.map .claimed
  | _ => []

def World.step (rt : Runtime) (w : World) (event : Event) : World :=
  let (answer, w') := host.exec (event.request.method rt).run event.fates w
  { w' with history := w'.history ++ event.request.claimed answer }

def World.run (rt : Runtime) (events : List Event) : World := events.foldl (World.step rt) {}

end CorelinkRunners.Compute
