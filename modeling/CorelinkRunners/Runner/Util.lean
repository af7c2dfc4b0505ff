import CorelinkRunners.Kit.Base64
import CorelinkRunners.Kit.Shell

/-!
# Shipping text and bytes to a shell

What the runner puts into a command for a remote shell goes through one of two encoders: a text is
quoted, and the content of a file is written in base 64. The shell reads a quoted text as one word,
every character of which stands for itself, and the base 64 is that of the standard.
-/

namespace CorelinkRunners.Runner

open Kit Shell

/-! ## The encoders -/

/-- `s.replace('\'', r"'\''")` -/
def escapeQuotes (s : List Char) : List Char :=
  s.flatMap fun c => if c = '\'' then ['\'', '\\', '\'', '\''] else [c]

def shellQuote (s : String) : String := .ofList ('\'' :: escapeQuotes s.toList ++ ['\''])

/-- `bytes.chunks(3)` -/
def chunks : List UInt8 → List (List UInt8)
  | [] => []
  | [b0] => [[b0]]
  | [b0, b1] => [[b0, b1]]
  | b0 :: b1 :: b2 :: rest => [b0, b1, b2] :: chunks rest

def alphabet : List Char :=
    "ABCDEFGHIJKLMNOPQRSTUVWXYZabcdefghijklmnopqrstuvwxyz0123456789+/".toList

def encodeChunk (chunk : List UInt8) : List Char :=
  let b0 := (chunk.getD 0 0).toNat
  let b1 := (chunk.getD 1 0).toNat
  let b2 := (chunk.getD 2 0).toNat
  let n := b0 <<< 16 ||| b1 <<< 8 ||| b2
  [alphabet.getD (n >>> 18 &&& 63) '=', alphabet.getD (n >>> 12 &&& 63) '=',
    if chunk.length > 1 then alphabet.getD (n >>> 6 &&& 63) '=' else '=',
    if chunk.length > 2 then alphabet.getD (n &&& 63) '=' else '=']

def base64Encode (bytes : List UInt8) : String := .ofList ((chunks bytes).flatMap encodeChunk)

/-! ## The quoted text -/

/-- The word whose characters all stand for themselves. -/
def literal (s : String) : Token := .word (s.toList.map (·, true))

/-- The word without quotes. -/
def plain (s : String) : Token := .word (s.toList.map (·, false))

/-- Inside of the quotes. A quote in the text leaves them, is escaped and enters them again. -/
theorem scan_escapeQuotes (s : List Char) (read : List Glyph) :
    Lexer.scan ⟨.single, some (.word read)⟩ (escapeQuotes s) =
      (⟨.single, some (.word (read ++ s.map (·, true)))⟩, []) := by
  induction s generalizing read with
  | nil => simp [escapeQuotes, Lexer.scan]
  | cons c s ih =>
    have head : Lexer.scan ⟨.single, some (.word read)⟩
        (if c = '\'' then ['\'', '\\', '\'', '\''] else [c]) =
          (⟨.single, some (.word (read ++ [(c, true)]))⟩, []) := by
      split
      next same =>
        rw [same]
        rfl
      next other => simp [Lexer.scan, Lexer.step, other, Lexer.push,
        Lexer.word?]
    rw [escapeQuotes, List.flatMap_cons, scan_append, head]
    have := ih (read ++ [(c, true)])
    simp only [escapeQuotes] at this
    simp [this]

theorem scan_shellQuote (s : String) :
    Lexer.start.scan (shellQuote s).toList = (⟨.plain, some (literal s)⟩, []) := by
  rw [shellQuote, String.toList_ofList, List.cons_append, Lexer.scan]
  change Prod.map _ _ (Lexer.scan ⟨.single, some (.word [])⟩ _) = _
  rw [scan_append, scan_escapeQuotes]
  rfl

theorem tokenize_quoted (s : String) {before after : List Char} (between : Between before)
    (separated : Separated after) :
    tokenize (before ++ (shellQuote s).toList ++ after) =
      (tokenize before).bind fun tokens =>
        (tokenize after).map (tokens ++ literal s :: ·) := by
  have reads := scan_shellQuote s
  rw [shellQuote, String.toList_ofList, List.cons_append] at reads ⊢
  exact tokenize_between reads between separated

/-! ## The bytes -/

theorem alphabet_getD {n : Nat} (h : n < 64) : alphabet.getD n '=' = Base64.letter n := by
  have all : ∀ n : Fin 64, alphabet.getD n '=' = Base64.letter n := by decide +kernel
  exact all ⟨n, h⟩

theorem digits (b0 b1 b2 : UInt8) :
    let n := b0.toNat <<< 16 ||| b1.toNat <<< 8 ||| b2.toNat
    alphabet.getD (n >>> 18 &&& 63) '=' = Base64.letter (b0.toNat / 4) ∧
    alphabet.getD (n >>> 12 &&& 63) '=' = Base64.letter (b0.toNat % 4 * 16 + b1.toNat / 16) ∧
    alphabet.getD (n >>> 6 &&& 63) '=' = Base64.letter (b1.toNat % 16 * 4 + b2.toNat / 64) ∧
    alphabet.getD (n &&& 63) '=' = Base64.letter (b2.toNat % 64) := by
  have h0 := b0.toNat_lt
  have h1 := b1.toNat_lt
  have h2 := b2.toNat_lt
  have packed : b0.toNat <<< 16 ||| b1.toNat <<< 8 ||| b2.toNat =
      b0.toNat * 2 ^ 16 + b1.toNat * 2 ^ 8 + b2.toNat := by
    have low : b1.toNat <<< 8 + b2.toNat = b1.toNat <<< 8 ||| b2.toNat :=
      Nat.shiftLeft_add_eq_or_of_lt h2 _
    have all : b0.toNat <<< 16 + (b1.toNat <<< 8 + b2.toNat) =
        b0.toNat <<< 16 ||| (b1.toNat <<< 8 + b2.toNat) := by
      apply Nat.shiftLeft_add_eq_or_of_lt
      rw [Nat.shiftLeft_eq]
      omega
    rw [Nat.or_assoc, ← low, ← all, Nat.shiftLeft_eq, Nat.shiftLeft_eq, Nat.add_assoc]
  have mask (n : Nat) : n &&& 63 = n % 64 := Nat.and_two_pow_sub_one_eq_mod n 6
  simp only [packed, mask, Nat.shiftRight_eq_div_pow]
  refine ⟨?_, ?_, ?_, ?_⟩
  all_goals
    rw [alphabet_getD (Nat.mod_lt _ (by omega))]
    congr 1
    omega

theorem base64Encode_eq (bytes : List UInt8) :
    (base64Encode bytes).toList = Base64.encode bytes := by
  rw [base64Encode, String.toList_ofList]
  induction bytes using Base64.quanta with
  | none => rfl
  | one b0 =>
    obtain ⟨d0, d1, -, -⟩ := digits b0 0 0
    change _ = Base64.letter (b0.toNat % 4 * 16) at d1
    rw [Base64.encode_one, ← d0, ← d1]
    rfl
  | two b0 b1 =>
    obtain ⟨d0, d1, d2, -⟩ := digits b0 b1 0
    change _ = Base64.letter (b1.toNat % 16 * 4) at d2
    rw [Base64.encode_two, ← d0, ← d1, ← d2]
    rfl
  | three b0 b1 b2 rest ih =>
    obtain ⟨d0, d1, d2, d3⟩ := digits b0 b1 b2
    rw [Base64.encode_three, ← ih, ← d0, ← d1, ← d2, ← d3]
    rfl

/-- **Both encoders are faithful.** A quoted text is one word of the shell, also between other
words, and each of its characters stands for itself; and the base 64 of bytes is that of the
standard, and gives the bytes back. -/
theorem encoders_faithful :
    (∀ s, tokenize (shellQuote s).toList = some [literal s]) ∧
    (∀ s before after, Between before → Separated after →
      tokenize (before ++ (shellQuote s).toList ++ after) =
        (tokenize before).bind fun tokens =>
          (tokenize after).map (tokens ++ literal s :: ·)) ∧
    ∀ bytes, (base64Encode bytes).toList = Base64.encode bytes ∧
      Base64.decode (base64Encode bytes).toList = some bytes := by
  refine ⟨fun s => ?_, fun s before after => ?_, fun bytes => ⟨base64Encode_eq bytes, ?_⟩⟩
  · rw [tokenize, Lexer.read, scan_shellQuote]
    rfl
  · exact tokenize_quoted s
  · rw [base64Encode_eq, Base64.decode_encode]

theorem encoders_faithful_echo :
    Between "echo ".toList ∧ Separated "|cat".toList ∧
      tokenize ("echo ".toList ++ (shellQuote "it's; $x").toList ++ "|cat".toList) =
        some [plain "echo", literal "it's; $x", .operator "|", plain "cat"] :=
  ⟨by decide +kernel, by decide +kernel,
    (encoders_faithful.2.1 _ _ _ (by decide +kernel) (by decide +kernel)).trans (by decide +kernel)⟩

/-! ## Placing a file -/

/-- The script of `place_file`. -/
def placeScript (dir full : String) (content : List UInt8) : String :=
  "mkdir -p " ++ shellQuote dir ++ " && printf %s " ++ shellQuote (base64Encode content) ++
    " | base64 -d > " ++ shellQuote full

/-- Whatever the paths and the content are, the script has these words. -/
theorem tokenize_placeScript (dir full : String) (content : List UInt8) :
    tokenize (placeScript dir full content).toList =
      some [plain "mkdir", plain "-p", literal dir, .operator "&&", plain "printf", plain "%s",
        literal (base64Encode content), .operator "|", plain "base64", plain "-d", .operator ">",
        literal full] := by
  have make : tokenize "mkdir -p ".toList = some [plain "mkdir", plain "-p"] := by
    decide +kernel
  have print : tokenize " && printf %s ".toList =
      some [.operator "&&", plain "printf", plain "%s"] := by
    decide +kernel
  have decode : tokenize " | base64 -d > ".toList =
      some [.operator "|", plain "base64", plain "-d", .operator ">"] := by
    decide +kernel
  have decoding := tokenize_quoted full
    (show Between " | base64 -d > ".toList by decide +kernel) (show Separated [] from rfl)
  have printing := tokenize_quoted (base64Encode content)
    (show Between " && printf %s ".toList by decide +kernel)
    (show Separated (" | base64 -d > ".toList ++ (shellQuote full).toList ++ []) from rfl)
  have making := tokenize_quoted dir
    (show Between "mkdir -p ".toList by decide +kernel)
    (show Separated (" && printf %s ".toList ++ (shellQuote (base64Encode content)).toList ++
      (" | base64 -d > ".toList ++ (shellQuote full).toList ++ [])) from rfl)
  rw [printing, decoding, make, print, decode] at making
  simp only [placeScript, String.toList_append, List.append_assoc, List.append_nil] at making ⊢
  rw [making]
  rfl

end CorelinkRunners.Runner
