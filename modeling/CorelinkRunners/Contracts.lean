import CorelinkRunners.Kit.OrdMap

/-!
# The vocabulary the ledgers share

The lifecycle states of a lease and the identity of a tenant. `RunnerState` is the wire
enumeration; `LeaseState` puts the ledger-internal `Pending` in front of it. A `TenantId` carries
the shape its constructor checks, so an ill-shaped tenant key cannot be built.
-/

namespace CorelinkRunners

/-- A fallible call: the error is the text the caller reads. -/
abbrev Result (α : Type) : Type := Except String α

/-! ## Lease states -/

/-- The lease states of the wire contract. -/
inductive RunnerState
  | held
  | released
  | expired
  | crashed
deriving DecidableEq

namespace RunnerState

def debug : RunnerState → String
  | held => "Held"
  | released => "Released"
  | expired => "Expired"
  | crashed => "Crashed"

/-- The three states no transition leaves. -/
def isTerminal : RunnerState → Bool
  | held => false
  | released => true
  | expired => true
  | crashed => true

end RunnerState

/-- The five ledger states: the pre-provision reservation and the wire states. -/
inductive LeaseState
  | pending
  | wire (state : RunnerState)
deriving DecidableEq

namespace LeaseState

def debug : LeaseState → String
  | pending => "Pending"
  | wire state => "Wire(" ++ state.debug ++ ")"

def isPending : LeaseState → Bool
  | pending => true
  | wire _ => false

def isHeld : LeaseState → Bool
  | wire .held => true
  | _ => false

/-- Pending or Held: the states that occupy a concurrency slot. -/
def isActive (state : LeaseState) : Bool := state.isPending || state.isHeld

@[simp] theorem isPending_iff {state : LeaseState} : state.isPending = true ↔ state = .pending := by
  cases state <;> simp [isPending]

@[simp] theorem isHeld_iff {state : LeaseState} : state.isHeld = true ↔ state = .wire .held := by
  rcases state with _ | (_ | _ | _ | _) <;> simp [isHeld]

end LeaseState

/-! ## Tenants -/

def tenantChar (c : Char) : Bool := c.isLower || c.isDigit || c == '-'

/-- A validated tenant key: non-empty, every character in `[a-z0-9-]`. -/
structure TenantId where
  raw : String
  nonEmpty : raw ≠ ""
  shaped : raw.toList.all tenantChar = true
deriving DecidableEq

namespace TenantId

theorem ext_raw {a b : TenantId} (h : a.raw = b.raw) : a = b := by
  cases a
  cases b
  simpa only [TenantId.mk.injEq] using h

instance : LawfulBEq TenantId := inferInstance

instance : Ord TenantId := ⟨fun a b => compare a.raw b.raw⟩

instance : Std.TransOrd TenantId where
  eq_swap {a b} := Std.OrientedOrd.eq_swap (a := a.raw) (b := b.raw)
  isLE_trans {a b c} := Std.TransOrd.isLE_trans (a := a.raw) (b := b.raw) (c := c.raw)

instance : Std.LawfulEqOrd TenantId where
  compare_self {a} := Std.ReflOrd.compare_self (a := a.raw)
  eq_of_compare {a b} h := ext_raw (Std.LawfulEqOrd.eq_of_compare (a := a.raw) (b := b.raw) h)

instance : LinearOrder TenantId where
  le a b := a.raw ≤ b.raw
  lt a b := a.raw < b.raw
  le_refl a := le_refl a.raw
  le_trans a b c := le_trans (a := a.raw)
  le_antisymm a b h h' := ext_raw (le_antisymm h h')
  lt_iff_le_not_ge a b := lt_iff_le_not_ge (a := a.raw)
  le_total a b := le_total a.raw b.raw
  toDecidableLE a b := inferInstanceAs (Decidable (a.raw ≤ b.raw))
  toDecidableLT a b := inferInstanceAs (Decidable (a.raw < b.raw))
  toDecidableEq := inferInstance
  compare_eq_compareOfLessAndEq a b := by
    have same : a.raw = b.raw ↔ a = b := ⟨ext_raw, congrArg raw⟩
    have raws := LinearOrder.compare_eq_compareOfLessAndEq a.raw b.raw
    simp only [compareOfLessAndEq, same] at raws
    exact raws

end TenantId

end CorelinkRunners
