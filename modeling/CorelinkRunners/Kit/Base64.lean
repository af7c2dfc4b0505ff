import Mathlib

/-!
# Base 64

The encoding of RFC 4648 with padding, in the terms of the standard: the bits of the bytes in a row
are read six at a time, zeros fill up the last group, each group is a letter of the alphabet, and
padding fills up the last four letters. `decode` reads four letters at a time, and refuses what no
encoder writes. `encodeUrl` is the variant for URLs, with two other letters and no padding.
-/

namespace Kit.Base64

/-! ## Bits -/

/-- The last bits of a number, the most significant first. -/
def bitsOf : Nat → Nat → List Bool
  | 0, _ => []
  | width + 1, n => n.testBit width :: bitsOf width n

def value (bits : List Bool) : Nat := bits.foldl (fun n bit => 2 * n + bit.toNat) 0

@[simp]
theorem length_bitsOf (width n : Nat) : (bitsOf width n).length = width := by
  induction width with
  | zero => rfl
  | succ width ih => rw [bitsOf, List.length_cons, ih]

theorem bitsOf_add (high low n : Nat) :
    bitsOf (high + low) n = bitsOf high (n / 2 ^ low) ++ bitsOf low n := by
  induction high with
  | zero => rw [Nat.zero_add, bitsOf, List.nil_append]
  | succ high ih => rw [Nat.succ_add, bitsOf, bitsOf, ih, Nat.testBit_div_two_pow, List.cons_append]

theorem value_append (a b : List Bool) : value (a ++ b) = value a * 2 ^ b.length + value b := by
  induction b using List.reverseRecOn with
  | nil => simp [value]
  | append_singleton b bit ih =>
    have snoc (bits : List Bool) : value (bits ++ [bit]) = 2 * value bits + bit.toNat := by
      simp [value]
    rw [← List.append_assoc, snoc, ih, snoc, List.length_append, List.length_singleton]
    ring

theorem value_bitsOf (width n : Nat) : value (bitsOf width n) = n % 2 ^ width := by
  induction width with
  | zero => simp [bitsOf, value, Nat.mod_one]
  | succ width ih =>
    have head : value [n.testBit width] = n / 2 ^ width % 2 := by simp [value, Nat.toNat_testBit]
    rw [bitsOf, ← List.singleton_append, value_append, head, ih, length_bitsOf, Nat.mod_pow_succ]
    ring

/-! ## Encoding -/

def byteBits (b : UInt8) : List Bool := bitsOf 8 b.toNat

def sextets : List Bool → List Nat
  | b5 :: b4 :: b3 :: b2 :: b1 :: b0 :: rest => value [b5, b4, b3, b2, b1, b0] :: sextets rest
  | [] => []
  | bits => [value (bits.rightpad 6 false)]

/-- The alphabet: capital letters, small letters, digits, plus and slash. -/
def letter (n : Nat) : Char :=
  if n < 26 then Char.ofNat (65 + n)
  else if n < 52 then Char.ofNat (71 + n)
  else if n < 62 then Char.ofNat (n - 4)
  else if n = 62 then '+'
  else '/'

def encode (bytes : List UInt8) : List Char :=
  let letters := (sextets (bytes.flatMap byteBits)).map letter
  letters ++ List.replicate ((4 - letters.length % 4) % 4) '='

/-! ## Decoding -/

def digit (c : Char) : Option Nat := (List.range 64).find? fun n => letter n = c

/-! The three bytes that four digits hold. -/

def first (d0 d1 : Nat) : UInt8 := .ofNat (d0 * 4 + d1 / 16)

def second (d1 d2 : Nat) : UInt8 := .ofNat (d1 % 16 * 16 + d2 / 4)

def third (d2 d3 : Nat) : UInt8 := .ofNat (d2 % 4 * 64 + d3)

def decode : List Char → Option (List UInt8)
  | [] => some []
  | [c0, c1, '=', '='] => do
    let d0 ← digit c0
    let d1 ← digit c1
    guard (d1 % 16 = 0)
    return [first d0 d1]
  | [c0, c1, c2, '='] => do
    let d0 ← digit c0
    let d1 ← digit c1
    let d2 ← digit c2
    guard (d2 % 4 = 0)
    return [first d0 d1, second d1 d2]
  | c0 :: c1 :: c2 :: c3 :: rest => do
    let d0 ← digit c0
    let d1 ← digit c1
    let d2 ← digit c2
    let d3 ← digit c3
    let bytes ← decode rest
    return first d0 d1 :: second d1 d2 :: third d2 d3 :: bytes
  | _ => none

/-! ## One quantum -/

theorem sextets_append : ∀ {six : List Bool}, six.length = 6 → ∀ rest,
    sextets (six ++ rest) = value six :: sextets rest
  | [_, _, _, _, _, _], _, _ => rfl

section Quantum

variable (b0 b1 b2 : UInt8)

theorem sextets_three (bits : List Bool) :
    sextets (byteBits b0 ++ (byteBits b1 ++ (byteBits b2 ++ bits))) =
      b0.toNat / 4 :: (b0.toNat % 4 * 16 + b1.toNat / 16) :: (b1.toNat % 16 * 4 + b2.toNat / 64) ::
        b2.toNat % 64 :: sextets bits := by
  have h0 := b0.toNat_lt
  have h1 := b1.toNat_lt
  have h2 := b2.toNat_lt
  have first : byteBits b0 = _ := bitsOf_add 6 2 b0.toNat
  have second : byteBits b1 = _ := bitsOf_add 4 4 b1.toNat
  have third : byteBits b2 = _ := bitsOf_add 2 6 b2.toNat
  rw [first, second, third]
  simp only [List.append_assoc]
  rw [sextets_append (length_bitsOf 6 _), ← List.append_assoc (bitsOf 2 _),
    sextets_append (by simp), ← List.append_assoc (bitsOf 4 _), sextets_append (by simp),
    sextets_append (length_bitsOf 6 _)]
  simp only [value_append, value_bitsOf, length_bitsOf, List.cons.injEq, and_true]
  omega

theorem encode_three (rest : List UInt8) :
    encode (b0 :: b1 :: b2 :: rest) =
      letter (b0.toNat / 4) :: letter (b0.toNat % 4 * 16 + b1.toNat / 16) ::
        letter (b1.toNat % 16 * 4 + b2.toNat / 64) :: letter (b2.toNat % 64) :: encode rest := by
  simp only [encode, List.flatMap_cons, sextets_three, List.map_cons, List.length_cons,
    List.cons_append]
  rw [show ∀ n, (n + 1 + 1 + 1 + 1) % 4 = n % 4 by omega]

/-- Without a last byte, its zeros fill up the last group. -/
theorem encode_two :
    encode [b0, b1] =
      [letter (b0.toNat / 4), letter (b0.toNat % 4 * 16 + b1.toNat / 16),
        letter (b1.toNat % 16 * 4), '='] := by
  have groups : sextets ([b0, b1].flatMap byteBits) =
      (sextets (byteBits b0 ++ (byteBits b1 ++ (byteBits 0 ++ [])))).take 3 := rfl
  rw [encode, groups, sextets_three]
  rfl

theorem encode_one :
    encode [b0] = [letter (b0.toNat / 4), letter (b0.toNat % 4 * 16), '=', '='] := by
  have groups : sextets ([b0].flatMap byteBits) =
      (sextets (byteBits b0 ++ (byteBits 0 ++ (byteBits 0 ++ [])))).take 2 := rfl
  rw [encode, groups, sextets_three]
  rfl

end Quantum

/-! ## The round trip -/

theorem quanta {P : List UInt8 → Prop} (none : P []) (one : ∀ b0, P [b0])
    (two : ∀ b0 b1, P [b0, b1])
    (three : ∀ b0 b1 b2 rest, P rest → P (b0 :: b1 :: b2 :: rest)) : ∀ bytes, P bytes
  | [] => none
  | [b0] => one b0
  | [b0, b1] => two b0 b1
  | b0 :: b1 :: b2 :: rest => three b0 b1 b2 rest (quanta none one two three rest)

theorem digit_letter {n : Nat} (h : n < 64) : digit (letter n) = some n ∧ letter n ≠ '=' := by
  have all : ∀ n : Fin 64, digit (letter n) = some n.val ∧ letter n ≠ '=' := by decide +kernel
  exact all ⟨n, h⟩

section Bytes

variable (b : UInt8) {d0 d1 d2 : Nat}

theorem first_eq (h : d1 / 16 = b.toNat % 4) : first (b.toNat / 4) d1 = b := by
  rw [first, show b.toNat / 4 * 4 + d1 / 16 = b.toNat by omega, UInt8.ofNat_toNat]

theorem second_eq (h1 : d1 % 16 = b.toNat / 16) (h2 : d2 / 4 = b.toNat % 16) :
    second d1 d2 = b := by
  rw [second, show d1 % 16 * 16 + d2 / 4 = b.toNat by omega, UInt8.ofNat_toNat]

theorem third_eq (h : d2 % 4 = b.toNat / 64) : third d2 (b.toNat % 64) = b := by
  rw [third, show d2 % 4 * 64 + b.toNat % 64 = b.toNat by omega, UInt8.ofNat_toNat]

end Bytes

/-- **What was encoded is decoded.** -/
theorem decode_encode (bytes : List UInt8) : decode (encode bytes) = some bytes := by
  induction bytes using quanta with
  | none => rfl
  | one b0 =>
    have h0 := b0.toNat_lt
    rw [encode_one, decode, (digit_letter (by omega)).1, (digit_letter (by omega)).1]
    simp [first_eq b0]
  | two b0 b1 =>
    have h0 := b0.toNat_lt
    have h1 := b1.toNat_lt
    obtain ⟨d2, other⟩ := digit_letter (n := b1.toNat % 16 * 4) (by omega)
    rw [encode_two, decode, (digit_letter (by omega)).1, (digit_letter (by omega)).1, d2]
    · simp
      exact ⟨first_eq b0 (by omega), second_eq b1 (by omega) (by omega)⟩
    · exact other
  | three b0 b1 b2 rest ih =>
    have h0 := b0.toNat_lt
    have h1 := b1.toNat_lt
    have h2 := b2.toNat_lt
    obtain ⟨d3, other⟩ := digit_letter (n := b2.toNat % 64) (by omega)
    rw [encode_three, decode, (digit_letter (by omega)).1, (digit_letter (by omega)).1,
      (digit_letter (by omega)).1, d3, ih]
    · simp
      exact ⟨first_eq b0 (by omega), second_eq b1 (by omega) (by omega), third_eq b2 (by omega)⟩
    -- The last letter is no padding, so this is not the last quantum.
    · intro _ same
      exact absurd same other
    · intro same
      exact absurd same other

/-! ## The alphabet for URLs -/

/-- The letter that stands for one of the standard alphabet: minus for plus, underscore for
slash. -/
def toUrl (c : Char) : Char := if c = '+' then '-' else if c = '/' then '_' else c

/-- The letter of the standard alphabet that a letter stands for. -/
def ofUrl (c : Char) : Char := if c = '-' then '+' else if c = '_' then '/' else c

/-- The encoding without padding, in the alphabet for URLs. -/
def encodeUrl (bytes : List UInt8) : List Char :=
  ((sextets (bytes.flatMap byteBits)).map letter).map toUrl

/-- Padding is put back before decoding. -/
def decodeUrl (text : List Char) : Option (List UInt8) :=
  let letters := text.map ofUrl
  decode (letters ++ List.replicate ((4 - letters.length % 4) % 4) '=')

/-- No letter of the standard alphabet is a minus or an underscore. -/
theorem ofUrl_toUrl_letter (n : Nat) : ofUrl (toUrl (letter n)) = letter n := by
  by_cases h : n < 64
  · have all : ∀ n : Fin 64, ofUrl (toUrl (letter n)) = letter n := by decide +kernel
    exact all ⟨n, h⟩
  · have slash : letter n = '/' := by
      unfold letter
      rw [if_neg (by omega), if_neg (by omega), if_neg (by omega), if_neg (by omega)]
    rw [slash]
    decide

/-- **What was encoded for a URL is decoded.** -/
theorem decodeUrl_encodeUrl (bytes : List UInt8) : decodeUrl (encodeUrl bytes) = some bytes := by
  have back : (encodeUrl bytes).map ofUrl = (sextets (bytes.flatMap byteBits)).map letter := by
    rw [encodeUrl, List.map_map, List.map_map]
    exact List.map_congr_left fun n _ => ofUrl_toUrl_letter n
  rw [decodeUrl, back]
  exact decode_encode bytes

end Kit.Base64
