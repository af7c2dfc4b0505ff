import Mathlib

/-!
# Decimal texts

The decimal numbers without leading zeros that protocols carry as texts, and their values.
-/

namespace Kit

def i64Max : Nat := 9223372036854775807

def isDecimal (text : String) : Bool :=
  text == "0" || (text.toList.all Char.isDigit && text.toList.head?.any (· != '0'))

def bigInt (text : String) : Nat :=
  text.toList.foldl (fun n c => 10 * n + (c.toNat - '0'.toNat)) 0

/-- A decimal number of at most 19 digits that fits into 64 bits with a sign. -/
def isI64 (text : String) : Bool :=
  decide (text.length ≤ 19) && isDecimal text && decide (bigInt text ≤ i64Max)

end Kit
