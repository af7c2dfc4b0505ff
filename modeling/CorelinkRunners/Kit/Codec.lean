import Mathlib

/-!
# Codecs with their laws

A `Codec` is a printer and a parser of a beginning of a text, together with the three facts a reader
of a log needs: what was printed parses back and leaves the rest, a parse that stops before the end
of a text does not change when the text grows, and nothing printed is a control character.

A number does not say where it ends, so the round trip asks that no digit follows. A codec whose
texts do say where they end is `Delimited`: then a text that parses to its end parses the same way
however it goes on, and so no proper beginning of a printed text parses (`Delimited.torn`).

Each combinator below carries the laws over, so a format assembled from them needs no proof of its
own. -/

namespace Kit

def Follows (rest : List Char) : Prop := ∀ c ∈ rest.head?, c.isDigit = false

/-- The characters a one-line text may hold. -/
def Printable (text : List Char) : Prop := ∀ c ∈ text, 0x20 ≤ c.toNat

instance (text : List Char) : Decidable (Printable text) :=
  decidable_of_iff (text.all fun c => 0x20 ≤ c.toNat) (by simp [Printable])

theorem Printable.append {s t : List Char} (hs : Printable s) (ht : Printable t) :
    Printable (s ++ t) := by
  intro c hc
  rcases List.mem_append.mp hc with h | h
  · exact hs c h
  · exact ht c h

structure Codec (α : Type) where
  print : α → List Char
  parse : List Char → Option (α × List Char)
  roundTrip : ∀ a rest, Follows rest → parse (print a ++ rest) = some (a, rest)
  extend : ∀ p a rest more, parse p = some (a, rest) → rest ≠ [] →
    parse (p ++ more) = some (a, rest ++ more)
  printable : ∀ a, Printable (print a)

namespace Codec

variable {α β : Type}

/-- Every text the parser accepts says where it ends. -/
def Delimited (c : Codec α) : Prop :=
  ∀ p a rest more, c.parse p = some (a, rest) → c.parse (p ++ more) = some (a, rest ++ more)

variable {c : Codec α} {p : List Char}

/-- **A torn text does not parse**: a proper beginning of a printed text is not a whole text. -/
theorem Delimited.torn (delimited : c.Delimited) {a : α} (hp : p <+: c.print a)
    (hne : p ≠ c.print a) (b : α) : c.parse p ≠ some (b, []) := by
  intro h
  obtain ⟨more, hmore⟩ := hp
  have hlong := delimited p b [] more h
  have hwhole := c.roundTrip a [] (by simp [Follows])
  rw [List.append_nil, ← hmore, hlong, Option.some.injEq, Prod.mk.injEq] at hwhole
  obtain ⟨-, hnil⟩ := hwhole
  rw [List.nil_append] at hnil
  subst hnil
  exact hne (by rw [← hmore, List.append_nil])

/-! ## Literals -/

/-- A fixed text that is printable and does not begin with a digit. -/
structure Literal where
  text : List Char
  printable : Printable text
  head : ∃ c rest, text = c :: rest ∧ c.isDigit = false

def Literal.of (c : Char) (s : String) (hc : c.isDigit = false := by decide)
    (printable : Printable (c :: s.toList) := by decide) : Literal :=
  ⟨c :: s.toList, printable, c, s.toList, rfl, hc⟩

theorem Literal.follows (l : Literal) (rest : List Char) : Follows (l.text ++ rest) := by
  obtain ⟨c, tail, htext, hc⟩ := l.head
  simp [Follows, htext, hc]

def Literal.strip (l : Literal) (p : List Char) : Option (List Char) := p.dropPrefix? l.text

variable {l : Literal} {rest : List Char}

theorem Literal.strip_eq_some_iff : l.strip p = some rest ↔ p = l.text ++ rest := by
  simp [Literal.strip, List.dropPrefix?_eq_some_iff]

@[simp] theorem Literal.strip_append (l : Literal) (rest : List Char) :
    l.strip (l.text ++ rest) = some rest := strip_eq_some_iff.mpr rfl

theorem Literal.strip_extend (h : l.strip p = some rest) (more : List Char) :
    l.strip (p ++ more) = some (rest ++ more) := by
  rw [strip_eq_some_iff] at h ⊢
  rw [h, List.append_assoc]

theorem Literal.ne_nil_of_strip (h : l.strip p = some rest) : p ≠ [] := by
  obtain ⟨c, tail, htext, -⟩ := l.head
  rw [strip_eq_some_iff.mp h, htext]
  exact List.cons_ne_nil c _

/-! ## Sequencing -/

def lead (l : Literal) (c : Codec α) : Codec α where
  print a := l.text ++ c.print a
  parse p := (l.strip p).bind c.parse
  roundTrip := by
    intro a rest hrest
    rw [List.append_assoc, Literal.strip_append, Option.bind_some, c.roundTrip a rest hrest]
  extend := by
    intro p a rest more h hne
    obtain ⟨q, hq, hparse⟩ := Option.bind_eq_some_iff.mp h
    rw [Literal.strip_extend hq, Option.bind_some, c.extend q a rest more hparse hne]
  printable a := l.printable.append (c.printable a)

theorem Delimited.lead (delimited : c.Delimited) (l : Literal) : (Codec.lead l c).Delimited := by
  intro p a rest more h
  obtain ⟨q, hq, hparse⟩ := Option.bind_eq_some_iff.mp h
  show ((l.strip (p ++ more)).bind c.parse) = _
  rw [Literal.strip_extend hq, Option.bind_some, delimited q a rest more hparse]

def trail (c : Codec α) (l : Literal) : Codec α where
  print a := c.print a ++ l.text
  parse p := (c.parse p).bind fun (a, q) => (l.strip q).map (a, ·)
  roundTrip := by
    intro a rest _
    rw [List.append_assoc, c.roundTrip a _ (l.follows rest)]
    simp
  extend := by
    intro p a rest more h _
    obtain ⟨⟨b, q⟩, hparse, hstrip⟩ := Option.bind_eq_some_iff.mp h
    obtain ⟨rest, hq, ⟨⟩⟩ := Option.map_eq_some_iff.mp hstrip
    rw [c.extend p _ q more hparse (Literal.ne_nil_of_strip hq)]
    simp [Literal.strip_extend hq]
  printable a := (c.printable a).append l.printable

theorem delimited_trail (c : Codec α) (l : Literal) : (trail c l).Delimited := by
  intro p a rest more h
  obtain ⟨⟨b, q⟩, hparse, hstrip⟩ := Option.bind_eq_some_iff.mp h
  obtain ⟨rest, hq, ⟨⟩⟩ := Option.map_eq_some_iff.mp hstrip
  show ((c.parse (p ++ more)).bind fun (a, q) => (l.strip q).map (a, ·)) = _
  rw [c.extend p _ q more hparse (Literal.ne_nil_of_strip hq)]
  simp [Literal.strip_extend hq]

def wrap (opening : Literal) (c : Codec α) (closing : Literal) : Codec α :=
  lead opening (trail c closing)

theorem delimited_wrap (opening : Literal) (c : Codec α) (closing : Literal) :
    (wrap opening c closing).Delimited := (delimited_trail c closing).lead opening

def sigma {T : Type} {B : T → Type} (tag : Codec T) (sep : Literal) (body : (t : T) → Codec (B t)) :
    Codec (Σ t, B t) where
  print x := tag.print x.1 ++ (sep.text ++ (body x.1).print x.2)
  parse p := (tag.parse p).bind fun (t, q) => (sep.strip q).bind fun q =>
    ((body t).parse q).map fun (b, rest) => (⟨t, b⟩, rest)
  roundTrip := by
    rintro ⟨t, b⟩ rest hrest
    rw [List.append_assoc, List.append_assoc, tag.roundTrip t _ (sep.follows _)]
    simp [(body t).roundTrip b rest hrest]
  extend := by
    intro p x rest more h hne
    obtain ⟨⟨t, q⟩, htag, h⟩ := Option.bind_eq_some_iff.mp h
    obtain ⟨q', hsep, h⟩ := Option.bind_eq_some_iff.mp h
    obtain ⟨⟨b, rest⟩, hbody, ⟨⟩⟩ := Option.map_eq_some_iff.mp h
    rw [tag.extend p t q more htag (Literal.ne_nil_of_strip hsep)]
    simp [Literal.strip_extend hsep, (body t).extend q' b rest more hbody hne]
  printable x := (tag.printable x.1).append (sep.printable.append ((body x.1).printable x.2))

def via (c : Codec α) (f : β → α) (g : α → Option β) (hfg : ∀ b, g (f b) = some b) : Codec β where
  print b := c.print (f b)
  parse p := (c.parse p).bind fun (a, rest) => (g a).map (·, rest)
  roundTrip := by
    intro b rest hrest
    simp [c.roundTrip (f b) rest hrest, hfg]
  extend := by
    intro p b rest more h hne
    obtain ⟨⟨a, q⟩, hparse, h⟩ := Option.bind_eq_some_iff.mp h
    obtain ⟨b, hb, ⟨⟩⟩ := Option.map_eq_some_iff.mp h
    simp [c.extend p a _ more hparse hne, hb]
  printable b := c.printable (f b)

def pair (c1 : Codec α) (sep : Literal) (c2 : Codec β) : Codec (α × β) :=
  (sigma c1 sep fun _ => c2).via (fun x => ⟨x.1, x.2⟩) (fun x => some (x.1, x.2)) fun _ => rfl

/-! ## Numbers -/

def nat : Codec Nat where
  print n := Nat.toDigits 10 n
  parse p :=
    let digits := p.takeWhile Char.isDigit
    if digits = [] then none
    else some (Nat.ofDigitChars 10 digits 0, p.dropWhile Char.isDigit)
  roundTrip := by
    intro n rest hrest
    have hdigits : ∀ c ∈ Nat.toDigits 10 n, c.isDigit = true := fun c hc =>
      Nat.isDigit_of_mem_toDigits (by decide) (by decide) hc
    have htake : rest.takeWhile Char.isDigit = [] := by
      cases rest with
      | nil => rfl
      | cons c rest => simp [hrest c rfl]
    have hdrop : rest.dropWhile Char.isDigit = rest := by
      cases rest with
      | nil => rfl
      | cons c rest => simp [hrest c rfl]
    simp only [List.takeWhile_append_of_pos hdigits, List.dropWhile_append_of_pos hdigits, htake,
      hdrop, List.append_nil, Nat.ofDigitChars_ten_toDigits]
    exact if_neg (Nat.toDigits_ne_nil)
  extend := by
    intro p n rest more h hne
    dsimp only at h ⊢
    split at h
    · nomatch h
    next hdigits =>
      obtain ⟨rfl, rfl⟩ := Prod.mk.inj (Option.some.inj h)
      -- the digits ended inside `p`
      have hlen : (p.takeWhile Char.isDigit).length ≠ p.length := by
        intro heq
        apply hne
        have hall := List.takeWhile_append_dropWhile (p := Char.isDigit) (l := p)
        have := congrArg List.length hall
        rw [List.length_append, heq] at this
        exact List.length_eq_zero_iff.mp (by omega)
      have htake : (p ++ more).takeWhile Char.isDigit = p.takeWhile Char.isDigit := by
        rw [List.takeWhile_append, if_neg hlen]
      have hdrop : (p ++ more).dropWhile Char.isDigit = p.dropWhile Char.isDigit ++ more := by
        rw [List.dropWhile_append, if_neg (by simpa using hne)]
      rw [htake, hdrop, if_neg hdigits]
  printable := by
    intro n c hc
    have hdigit := Nat.isDigit_of_mem_toDigits (by decide) (by decide) hc
    rw [Char.isDigit_iff_toNat] at hdigit
    exact Nat.le_trans (by decide) hdigit.1

/-! ## Strings -/

def shortEscape (c : Char) : Option Char :=
  if c = '"' then some '"'
  else if c = '\\' then some '\\'
  else if c = '\x08' then some 'b'
  else if c = '\t' then some 't'
  else if c = '\n' then some 'n'
  else if c = '\x0c' then some 'f'
  else if c = '\r' then some 'r'
  else none

def shortUnescape (c : Char) : Option Char :=
  if c = '"' then some '"'
  else if c = '\\' then some '\\'
  else if c = '/' then some '/'
  else if c = 'b' then some '\x08'
  else if c = 't' then some '\t'
  else if c = 'n' then some '\n'
  else if c = 'f' then some '\x0c'
  else if c = 'r' then some '\r'
  else none

def escape (c : Char) : List Char :=
  match shortEscape c with
  | some e => ['\\', e]
  | none =>
    if c.toNat < 0x20 then
      ['\\', 'u', '0', '0', Nat.digitChar (c.toNat / 16), Nat.digitChar (c.toNat % 16)]
    else [c]

def hexValue (c : Char) : Option Nat :=
  if c.isDigit then some (c.toNat - '0'.toNat)
  else if 'a' ≤ c ∧ c ≤ 'f' then some (c.toNat - 'a'.toNat + 10)
  else if 'A' ≤ c ∧ c ≤ 'F' then some (c.toNat - 'A'.toNat + 10)
  else none

/-- Where a reader of a string stands: between characters, behind a backslash, or inside the
hexadecimal digits of a code point with `left` of them still to come. -/
inductive Scan
  | plain
  | escaped
  | hex (left value : Nat)

def scan : Scan → List Char → Option (List Char × List Char)
  | _, [] => none
  | .plain, c :: p =>
    if c = '"' then some ([], p)
    else if c = '\\' then scan .escaped p
    else if c.toNat < 0x20 then none
    else (scan .plain p).map fun (s, rest) => (c :: s, rest)
  | .escaped, c :: p =>
    if c = 'u' then scan (.hex 3 0) p
    else match shortUnescape c with
      | some d => (scan .plain p).map fun (s, rest) => (d :: s, rest)
      | none => none
  | .hex left value, c :: p =>
    match hexValue c, left with
    | none, _ => none
    | some d, 0 => (scan .plain p).map fun (s, rest) => (Char.ofNat (16 * value + d) :: s, rest)
    | some d, left + 1 => scan (.hex left (16 * value + d)) p

theorem scan_extend {st : Scan} {s : List Char} (h : scan st p = some (s, rest))
    (more : List Char) : scan st (p ++ more) = some (s, rest ++ more) := by
  induction p generalizing st s with
  | nil => nomatch h
  | cons c p ih =>
    -- every branch that goes on does so with the same next state
    have next : ∀ {st : Scan} {d : Char},
        (scan st p).map (fun (s, rest) => (d :: s, rest)) = some (s, rest) →
        (scan st (p ++ more)).map (fun (s, rest) => (d :: s, rest)) = some (s, rest ++ more) := by
      intro st d h
      obtain ⟨⟨s, rest⟩, hscan, ⟨⟩⟩ := Option.map_eq_some_iff.mp h
      rw [ih hscan]
      rfl
    cases st with
    | plain =>
      simp only [List.cons_append, scan] at h ⊢
      split_ifs at h ⊢ with hquote hslash hcontrol
      · cases h
        rfl
      · exact ih h
      · exact next h
    | escaped =>
      simp only [List.cons_append, scan] at h ⊢
      split_ifs at h ⊢ with hu
      · exact ih h
      · cases hd : shortUnescape c with
        | none => simp [hd] at h
        | some d =>
          rw [hd] at h
          exact next h
    | hex left value =>
      simp only [List.cons_append, scan] at h ⊢
      cases hd : hexValue c with
      | none => simp [hd] at h
      | some d =>
        rw [hd] at h
        cases left with
        | zero => exact next h
        | succ left => exact ih h

theorem scan_escape_control {n : Nat} (hn : n < 0x20) (p : List Char) :
    scan .plain (escape (Char.ofNat n) ++ p) =
      (scan .plain p).map fun (s, rest) => (Char.ofNat n :: s, rest) := by
  interval_cases n <;> rfl

theorem scan_escape (c : Char) (p : List Char) :
    scan .plain (escape c ++ p) = (scan .plain p).map fun (s, rest) => (c :: s, rest) := by
  by_cases hcontrol : c.toNat < 0x20
  · have h := scan_escape_control hcontrol p
    rwa [Char.ofNat_toNat] at h
  · by_cases hquote : c = '"'
    · subst hquote
      rfl
    · by_cases hslash : c = '\\'
      · subst hslash
        rfl
      · have hshort : shortEscape c = none := by
          unfold shortEscape
          rw [if_neg hquote, if_neg hslash]
          -- the other short escapes are control characters
          split_ifs with h1 h2 h3 h4 h5
          all_goals first | rfl | (subst c; exact absurd (by decide) hcontrol)
        simp only [escape, hshort, if_neg hcontrol, List.cons_append, List.nil_append, scan,
          if_neg hquote, if_neg hslash]

theorem scan_escapes (s rest : List Char) :
    scan .plain (s.flatMap escape ++ '"' :: rest) = some (s, rest) := by
  induction s with
  | nil => rfl
  | cons c s ih =>
    rw [List.flatMap_cons, List.append_assoc, scan_escape, ih]
    rfl

theorem printable_escape (c : Char) : Printable (escape c) := by
  by_cases hcontrol : c.toNat < 0x20
  · have h : ∀ n < 0x20, Printable (escape (Char.ofNat n)) := by decide
    have hc := h _ hcontrol
    rwa [Char.ofNat_toNat] at hc
  · unfold escape shortEscape
    split_ifs <;> simp_all [Printable]

/-- A quoted string, escaped the way JSON is. Surrogate pairs, which no printer of UTF-8 needs, are
not read. -/
def str : Codec (List Char) where
  print s := '"' :: (s.flatMap escape ++ ['"'])
  parse
    | '"' :: p => scan .plain p
    | _ => none
  roundTrip := by
    intro s rest _
    rw [List.cons_append, List.append_assoc]
    exact scan_escapes s rest
  extend := by
    intro p s rest more h _
    split at h
    · exact scan_extend h more
    · nomatch h
  printable := by
    intro s c hc
    rw [List.mem_cons, List.mem_append, List.mem_flatMap, List.mem_singleton] at hc
    rcases hc with rfl | ⟨d, -, hd⟩ | rfl
    · decide
    · exact printable_escape d c hd
    · decide

/-! ## Optional values -/

/-- Every text the parser accepts has a first character, and it is not the one of `null`. -/
def NotNull (c : Codec α) : Prop := ∀ p a rest, c.parse p = some (a, rest) →
  ∃ d q, p = d :: q ∧ d ≠ 'n'

def null : Literal := .of 'n' "ull"

def opt (c : Codec α) (notNull : c.NotNull) : Codec (Option α) where
  print
    | none => null.text
    | some a => c.print a
  parse
    | 'n' :: p => (null.strip ('n' :: p)).map (none, ·)
    | p => (c.parse p).map fun (a, rest) => (some a, rest)
  roundTrip := by
    intro a rest hrest
    cases a with
    | none => exact congrArg (Option.map (none, ·)) (null.strip_append rest)
    | some a =>
      have hparse := c.roundTrip a rest hrest
      obtain ⟨d, q, hp, hd⟩ := notNull _ _ _ hparse
      split
      next heq =>
        rw [hp] at heq
        exact absurd (List.cons.inj heq).1 hd
      · rw [hparse]; rfl
  extend := by
    intro p a rest more h hne
    split at h
    next p =>
      obtain ⟨rest, hstrip, ⟨⟩⟩ := Option.map_eq_some_iff.mp h
      exact congrArg (Option.map (none, ·)) (Literal.strip_extend hstrip more)
    next hn =>
      obtain ⟨⟨a, rest⟩, hparse, ⟨⟩⟩ := Option.map_eq_some_iff.mp h
      have hmore := c.extend p a rest more hparse hne
      obtain ⟨d, q, rfl, hd⟩ := notNull _ _ _ hparse
      split
      next heq => exact absurd (List.cons.inj heq).1 hd
      · rw [hmore]; rfl
  printable := by
    intro a
    cases a with
    | none => exact null.printable
    | some a => exact c.printable a

theorem notNull_nat : nat.NotNull := by
  intro p n rest h
  cases p with
  | nil => nomatch h
  | cons d q =>
    refine ⟨d, q, rfl, ?_⟩
    rintro rfl
    nomatch h

theorem notNull_lead (c : Codec α) (h : l.text.head? ≠ some 'n') : (lead l c).NotNull := by
  intro p a rest hparse
  obtain ⟨q, hq, -⟩ := Option.bind_eq_some_iff.mp hparse
  obtain ⟨d, tail, htext, -⟩ := l.head
  rw [Literal.strip_eq_some_iff, htext] at hq
  refine ⟨d, tail ++ q, hq, ?_⟩
  rintro rfl
  exact h (by rw [htext]; rfl)

/-! ## JSON objects -/

/-- The brace that opens an object. -/
def openBrace : Literal := .of '\x7b' ""

/-- The brace that closes an object. -/
def closeBrace : Literal := .of '\x7d' ""

/-- The name of the first field of an object. -/
def key (name : String) (h : Printable ('"' :: (name ++ "\":").toList) := by decide) : Literal :=
  .of '"' (name ++ "\":") (by decide) h

/-- The name of a further field, behind its comma. -/
def nextKey (name : String) (h : Printable (',' :: ("\"" ++ name ++ "\":").toList) := by decide) :
    Literal := .of ',' ("\"" ++ name ++ "\":") (by decide) h

def comma : Literal := .of ',' ""

def string : Codec String :=
  str.via String.toList (fun s => some (String.ofList s)) fun s => by simp

end Codec

end Kit
