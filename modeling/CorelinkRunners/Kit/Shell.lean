import Mathlib

/-!
# Words of a shell

How a POSIX shell cuts a text into words and operators, before it expands anything. A character of a
word comes with whether quoting took its special meaning away: expansions, patterns and the
splitting of fields are about the others. An operator is as long as it can be, and a line feed is
one.

An expansion is not read: a dollar sign or a backquote is a character like others, one that is not
quoted.
-/

namespace Kit.Shell

/-- A character, and whether it stands for itself. -/
abbrev Glyph := Char × Bool

inductive Token
  | word (glyphs : List Glyph)
  | operator (text : String)
  deriving DecidableEq

inductive Mode
  | plain
  | escaped
  | single
  | double
  | doubleEscaped
  | comment
  deriving DecidableEq

structure Lexer where
  mode : Mode
  /-- The token that is being read. A word may have no character yet. -/
  current : Option Token
  deriving DecidableEq

/-- The operators of more than one character. -/
def operators : List String := ["&&", "||", ";;", "<<", ">>", "<&", ">&", "<>", "<<-", ">|"]

namespace Lexer

def start : Lexer := ⟨.plain, none⟩

variable (self : Lexer)

def enter (mode : Mode) : Lexer := { self with mode }

def word? : Option (List Glyph) :=
  match self.current with
  | some (.word glyphs) => some glyphs
  | _ => none

def push (c : Char) (quoted : Bool) : Lexer :=
  { self with current := some (.word (self.word?.getD [] ++ [(c, quoted)])) }

/-- A quotation starts a word, also if it has no character. -/
def quote (mode : Mode) : Lexer := ⟨mode, some (.word (self.word?.getD []))⟩

def close : List Token := self.current.toList

/-- What a character of a word completes. -/
def ended : List Token := if self.word?.isSome then [] else self.close

/-- The operator that is being read, if it is one with this character too. -/
def joined (c : Char) : Option String :=
  match self.current with
  | some (.operator text) => some (text.push c) |>.filter operators.contains
  | _ => none

end Lexer

def isBlank (c : Char) : Bool := c == ' ' || c == '\t'

def isOperator (c : Char) : Bool := ['\n', ';', '&', '|', '<', '>', '(', ')'].contains c

/-- What the shell expands inside of double quotes. -/
def expands (c : Char) : Bool := c == '$' || c == '\x60'

/-- One character: what the lexer makes of it, and the tokens that are complete. -/
def Lexer.step (self : Lexer) (c : Char) : Lexer × List Token :=
  match self.mode with
  | .plain =>
    if c = '\'' then (self.quote .single, self.ended)
    else if c = '"' then (self.quote .double, self.ended)
    else if c = '\\' then (self.enter .escaped, [])
    else if isBlank c then (start, self.close)
    else match self.joined c with
    | some text => (⟨.plain, some (.operator text)⟩, [])
    | none =>
      if isOperator c then (⟨.plain, some (.operator (.singleton c))⟩, self.close)
      else if c = '#' ∧ self.word? = none then (⟨.comment, none⟩, self.close)
      else (self.push c false, self.ended)
  -- A line feed after a backslash continues the line, and an operator too.
  | .escaped =>
    if c = '\n' then (self.enter .plain, [])
    else ((self.push c true).enter .plain, self.ended)
  | .single => (if c = '\'' then self.enter .plain else self.push c true, [])
  | .double =>
    if c = '"' then (self.enter .plain, [])
    else if c = '\\' then (self.enter .doubleEscaped, [])
    else (self.push c !(expands c), [])
  | .doubleEscaped =>
    if c = '\n' then (self.enter .double, [])
    else if expands c ∨ c = '"' ∨ c = '\\' then ((self.push c true).enter .double, [])
    else (((self.push '\\' true).push c true).enter .double, [])
  | .comment => (if c = '\n' then ⟨.plain, some (.operator "\n")⟩ else self, [])

def Lexer.scan : Lexer → List Char → Lexer × List Token
  | self, [] => (self, [])
  | self, c :: text => ((self.step c).1.scan text).map id ((self.step c).2 ++ ·)

def Lexer.finish (self : Lexer) : Option (List Token) :=
  if self.mode = .plain ∨ self.mode = .comment then some self.close else none

def Lexer.read (self : Lexer) (text : List Char) : Option (List Token) :=
  (self.scan text).1.finish.map ((self.scan text).2 ++ ·)

open Lexer

def tokenize (text : List Char) : Option (List Token) := start.read text

/-! ## A word among others -/

variable {self : Lexer} {a b : List Char}

theorem scan_append : self.scan (a ++ b) =
    (((self.scan a).1.scan b).1, (self.scan a).2 ++ ((self.scan a).1.scan b).2) := by
  induction a generalizing self with
  | nil => rfl
  | cons c a ih => simp [scan, ih]

theorem read_append : self.read (a ++ b) = ((self.scan a).1.read b).map ((self.scan a).2 ++ ·) := by
  simp [Lexer.read, scan_append, Function.comp_def]

/-- After the text a word can begin. -/
def Between (before : List Char) : Prop :=
  (start.scan before).1.mode = .plain ∧ (start.scan before).1.word? = none

/-- The text begins with what ends a word, or is at its end. -/
def Separated (after : List Char) : Prop := after.head?.all fun c => isBlank c || isOperator c

instance : Decidable (Between a) := inferInstanceAs (Decidable (_ ∧ _))

instance : Decidable (Separated a) := inferInstanceAs (Decidable (_ = true))

theorem read_separated {word : List Glyph} (h : Separated b) :
    Lexer.read ⟨.plain, some (.word word)⟩ b = (tokenize b).map (.word word :: ·) := by
  cases b with
  | nil => rfl
  | cons c b =>
    have ends : isBlank c || isOperator c := h
    have next : step ⟨.plain, some (.word word)⟩ c =
        ((start.step c).1, .word word :: (start.step c).2) := by
      simp only [isBlank, isOperator, Bool.or_eq_true, beq_iff_eq, List.contains_eq_mem,
        decide_eq_true_eq, List.mem_cons, List.not_mem_nil, or_false] at ends
      rcases ends with (rfl | rfl) | rfl | rfl | rfl | rfl | rfl | rfl | rfl | rfl
      all_goals rfl
    simp [tokenize, Lexer.read, scan, next, Function.comp_def]

theorem step_quote (plain : self.mode = .plain) (free : self.word? = none) :
    self.step '\'' = (⟨.single, some (.word [])⟩, self.close) := by
  simp [step, plain, quote, ended, free]

/-- A text that begins with a quote and is a word, wherever a word can stand. -/
theorem tokenize_between {text : List Char} {word : List Glyph}
    (reads : start.scan ('\'' :: text) = (⟨.plain, some (.word word)⟩, []))
    (ha : Between a) (hb : Separated b) :
    tokenize (a ++ '\'' :: text ++ b) =
      (tokenize a).bind fun tokens => (tokenize b).map (tokens ++ .word word :: ·) := by
  obtain ⟨plain, free⟩ := ha
  have first : tokenize a = some ((start.scan a).2 ++ (start.scan a).1.close) := by
    simp [tokenize, Lexer.read, finish, plain]
  have quoted : (start.scan a).1.scan ('\'' :: text) =
      (⟨.plain, some (.word word)⟩, (start.scan a).1.close) := by
    rw [scan, step_quote plain free]
    rw [scan, step_quote rfl rfl] at reads
    obtain ⟨same, none_⟩ := Prod.mk.inj reads
    exact Prod.ext same (by simpa [close, start] using none_)
  rw [List.append_assoc, tokenize, read_append, read_append, quoted, read_separated hb, first]
  simp [Function.comp_def]

end Kit.Shell
