import CorelinkRunners.Kit.Codec
import CorelinkRunners.Ledger.Journal

/-!
# Journal lines as JSON

How a journal line is written and read back is `serde_json`'s. `JournalCodec` takes it as a
parameter, and `JournalCodec.Lawful` is what the ledger relies on.

`jsonCodec` is the format itself: an internally tagged union with the line's kind first and the
fields in their order of declaration, without white space. It reads exactly what it writes, which is
all a journal ever holds.
-/

namespace CorelinkRunners

open Kit

/-- How `serde_json` writes a journal line and reads one back. -/
class JournalCodec where
  toText : JournalLine → List Char
  fromText : List Char → Result JournalLine

/-- What the ledger relies on: a line is a JSON object on one line, it reads back, and nothing
shorter than it does. -/
structure JournalCodec.Lawful [JournalCodec] : Prop where
  roundTrip : ∀ l, fromText (toText l) = .ok l
  oneLine : ∀ l, '\n' ∉ toText l ∧ '\r' ∉ toText l
  torn : ∀ l p, p <+: toText l → p ≠ toText l → ∃ e, fromText p = .error e
  object : ∀ l, ∃ rest, toText l = '\x7b' :: rest

namespace Json

open Codec

/-! ## Fields -/

def TenantId.tryFrom (raw : String) : Option TenantId :=
  if h : raw ≠ "" ∧ raw.toList.all tenantChar = true then some ⟨raw, h.1, h.2⟩ else none

def tenant : Codec TenantId :=
  string.via TenantId.raw TenantId.tryFrom fun t => dif_pos ⟨t.nonEmpty, t.shaped⟩

def LeaseState.token : LeaseState → String
  | .pending => "pending"
  | .wire .held => "held"
  | .wire .released => "released"
  | .wire .expired => "expired"
  | .wire .crashed => "crashed"

def LeaseState.ofToken (token : String) : Option LeaseState :=
  if token = "pending" then some .pending
  else if token = "held" then some (.wire .held)
  else if token = "released" then some (.wire .released)
  else if token = "expired" then some (.wire .expired)
  else if token = "crashed" then some (.wire .crashed)
  else none

def state : Codec LeaseState :=
  string.via LeaseState.token LeaseState.ofToken fun s => by
    rcases s with _ | (_ | _ | _ | _) <;> rfl

def optNat : Codec (Option Nat) := opt nat notNull_nat

/-! ## Records and reservations -/

def recordFields : Codec LeaseRecord :=
  (lead (key "lease_id") <|
    pair string (nextKey "tenant") <|
    pair tenant (nextKey "state") <|
    pair state (nextKey "box_ref") <|
    pair string (nextKey "created_at_ms") <|
    pair nat (nextKey "updated_at_ms") <|
    pair nat (nextKey "deadline_ms") <|
    pair optNat (nextKey "billing_acquired_at_ms") optNat).via
    (fun r => (r.leaseId, r.tenant, r.state, r.boxRef, r.createdAtMs, r.updatedAtMs, r.deadlineMs,
      r.billingAcquiredAtMs))
    (fun (leaseId, tenant, state, boxRef, createdAtMs, updatedAtMs, deadlineMs, billing) =>
      some ⟨leaseId, tenant, state, boxRef, createdAtMs, updatedAtMs, deadlineMs, billing⟩)
    fun _ => rfl

def record : Codec LeaseRecord := wrap openBrace recordFields closeBrace

def reservationFields : Codec LeaseReservation :=
  (lead (key "box_vcpu_count") <|
    pair nat (nextKey "accrual_period_key") <|
    pair nat (nextKey "reserved_vcpu_ms") <|
    pair nat (nextKey "accrued_at_ms") optNat).via
    (fun r => (r.boxVcpuCount, r.accrualPeriodKey, r.reservedVcpuMs, r.accruedAtMs))
    (fun (vcpu, period, reserved, accruedAtMs) => some ⟨vcpu, period, reserved, accruedAtMs⟩)
    fun _ => rfl

def reservation : Codec LeaseReservation := wrap openBrace reservationFields closeBrace

def accrualTriple : Codec (TenantId × Nat × Nat) :=
  wrap (.of '[' "") (pair tenant comma (pair nat comma nat)) (.of ']' "")

/-! ## Lines -/

inductive Kind
  | record
  | tombstone
  | pendingCleanupClaim
  | checkpoint
  | reservation
  | accrual
  | admitCommit
  | terminalTransition

def Kind.token : Kind → String
  | record => "record"
  | tombstone => "tombstone"
  | pendingCleanupClaim => "pending_cleanup_claim"
  | checkpoint => "checkpoint"
  | reservation => "reservation"
  | accrual => "accrual"
  | admitCommit => "admit_commit"
  | terminalTransition => "terminal_transition"

def Kind.ofToken (token : String) : Option Kind :=
  if token = "record" then some record
  else if token = "tombstone" then some tombstone
  else if token = "pending_cleanup_claim" then some pendingCleanupClaim
  else if token = "checkpoint" then some checkpoint
  else if token = "reservation" then some reservation
  else if token = "accrual" then some accrual
  else if token = "admit_commit" then some admitCommit
  else if token = "terminal_transition" then some terminalTransition
  else none

def kind : Codec Kind :=
  string.via Kind.token Kind.ofToken fun k => by cases k <;> rfl

def Kind.Body : Kind → Type
  | record => LeaseRecord
  | tombstone => String
  | pendingCleanupClaim => String
  | checkpoint => String × String
  | reservation => String × LeaseReservation
  | accrual => TenantId × Nat × Nat
  | admitCommit => LeaseRecord × LeaseReservation
  | terminalTransition => LeaseRecord × Option (TenantId × Nat × Nat) × Option LeaseReservation

def Kind.body : (k : Kind) → Codec k.Body
  | record => recordFields
  | tombstone => lead (key "lease_id") string
  | pendingCleanupClaim => lead (key "lease_id") string
  | checkpoint => lead (key "lease_id") (pair string (nextKey "checkpoint") string)
  | reservation => lead (key "lease_id") (pair string (nextKey "reservation") Json.reservation)
  | accrual =>
    lead (key "tenant") (pair tenant (nextKey "period_key") (pair nat (nextKey "total") nat))
  | admitCommit => lead (key "record") (pair Json.record (nextKey "reservation") Json.reservation)
  | terminalTransition =>
    lead (key "record") <|
      pair Json.record (nextKey "accrual") <|
      pair (opt accrualTriple (notNull_lead _ (by decide))) (nextKey "reservation") <|
      opt Json.reservation (notNull_lead _ (by decide))

def toBody : JournalLine → Σ k : Kind, k.Body
  | .record rec => ⟨.record, rec⟩
  | .tombstone leaseId => ⟨.tombstone, leaseId⟩
  | .pendingCleanupClaim leaseId => ⟨.pendingCleanupClaim, leaseId⟩
  | .checkpoint leaseId checkpoint => ⟨.checkpoint, leaseId, checkpoint⟩
  | .reservation leaseId reservation => ⟨.reservation, leaseId, reservation⟩
  | .accrual tenant periodKey total => ⟨.accrual, tenant, periodKey, total⟩
  | .admitCommit record reservation => ⟨.admitCommit, record, reservation⟩
  | .terminalTransition record accrual reservation =>
    ⟨.terminalTransition, record, accrual, reservation⟩

def ofBody : (Σ k : Kind, k.Body) → JournalLine
  | ⟨.record, rec⟩ => .record rec
  | ⟨.tombstone, leaseId⟩ => .tombstone leaseId
  | ⟨.pendingCleanupClaim, leaseId⟩ => .pendingCleanupClaim leaseId
  | ⟨.checkpoint, leaseId, checkpoint⟩ => .checkpoint leaseId checkpoint
  | ⟨.reservation, leaseId, reservation⟩ => .reservation leaseId reservation
  | ⟨.accrual, tenant, periodKey, total⟩ => .accrual tenant periodKey total
  | ⟨.admitCommit, record, reservation⟩ => .admitCommit record reservation
  | ⟨.terminalTransition, record, accrual, reservation⟩ =>
    .terminalTransition record accrual reservation

def lineFields : Codec JournalLine :=
  (lead (key "kind") (sigma kind comma Kind.body)).via toBody (fun b => some (ofBody b)) fun l => by
    cases l <;> rfl

def line : Codec JournalLine := wrap openBrace lineFields closeBrace

theorem delimited_line : line.Delimited := delimited_wrap _ _ _

end Json

abbrev jsonCodec : JournalCodec where
  toText := Json.line.print
  fromText text :=
    match Json.line.parse text with
    | some (l, []) => .ok l
    | some (_, _ :: _) => .error "trailing characters"
    | none => .error "expected a journal line"

section

attribute [local instance] jsonCodec

open JournalCodec

theorem jsonCodec_lawful : JournalCodec.Lawful where
  roundTrip := by
    intro l
    have h := Json.line.roundTrip l [] (by simp [Follows])
    rw [List.append_nil] at h
    simp only [fromText, toText, h]
  oneLine := by
    intro l
    have h := Json.line.printable l
    exact ⟨fun hmem => absurd (h _ hmem) (by decide), fun hmem => absurd (h _ hmem) (by decide)⟩
  torn := by
    intro l p hp hne
    have h := Json.delimited_line.torn hp hne
    simp only [fromText]
    split
    next l' heq => exact absurd heq (h l')
    · exact ⟨_, rfl⟩
    · exact ⟨_, rfl⟩
  object := fun _ => ⟨_, rfl⟩

theorem jsonCodec_glued (l l' : JournalLine) : ∃ e,
    fromText (toText l ++ toText l') = .error e := by
  obtain ⟨rest, hobject⟩ := jsonCodec_lawful.object l'
  have hnext : Follows (toText l') := by
    rw [hobject]
    simp [Follows]
  have h := Json.line.roundTrip l (toText l') hnext
  refine ⟨"trailing characters", ?_⟩
  simp only [fromText, toText] at h hobject ⊢
  rw [h, hobject]

end

end CorelinkRunners
