import Mathlib

/-!
# Saturating word arithmetic on natural numbers

Unsigned machine words are natural numbers here, and only the operations that can leave the word
range say so: a saturating sum or product is cut at the largest word, a narrowing cast keeps the
low bits. Saturating subtraction is the truncated subtraction `Nat` already has.
-/

namespace Kit.Word

def maxU64 : Nat := 2 ^ 64 - 1

def maxI64 : Nat := 2 ^ 63 - 1

def maxU32 : Nat := 2 ^ 32 - 1

def maxI32 : Nat := 2 ^ 31 - 1

def satAdd (a b : Nat) : Nat := min (a + b) maxU64

def satMul (a b : Nat) : Nat := min (a * b) maxU64

def asU32 (n : Nat) : Nat := n % 2 ^ 32

theorem foldl_satAdd (l : List Nat) {a : Nat} (ha : a ≤ maxU64) :
    l.foldl satAdd a = min (a + l.sum) maxU64 := by
  induction l generalizing a with
  | nil => simp only [List.foldl_nil, List.sum_nil, Nat.add_zero, Nat.min_eq_left ha]
  | cons x xs ih =>
    have hx : satAdd a x ≤ maxU64 := Nat.min_le_right _ _
    rw [List.foldl_cons, ih hx, List.sum_cons]
    simp only [satAdd]
    omega

end Kit.Word
