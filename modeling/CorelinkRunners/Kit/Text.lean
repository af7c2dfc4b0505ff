import Mathlib

/-!
# Lines of a text and their bytes

A text is a list of characters; its bytes are its UTF-8 encoding. `lines` splits a text the way
Rust's `str::lines` does: after every line feed, dropping the feed and a carriage return in front of
it, with a last piece only where the text does not end in a feed.

If the bytes that a torn write leaves are valid UTF-8, they are a beginning of the text
(`beginning_of_bytes`).
-/

namespace Kit.Text

/-! ## Splitting -/

/-- The pieces of a text, each with its line feed. -/
def splitInclusive : List Char → List (List Char)
  | [] => []
  | c :: cs =>
    if c = '\n' then [c] :: splitInclusive cs
    else match splitInclusive cs with
      | [] => [[c]]
      | piece :: rest => (c :: piece) :: rest

/-- A piece without its line feed, and without a carriage return in front of that feed. -/
def chomp (piece : List Char) : List Char :=
  match piece.reverse with
  | '\n' :: '\r' :: rest => rest.reverse
  | '\n' :: rest => rest.reverse
  | _ => piece

def lines (text : List Char) : List (List Char) := (splitInclusive text).map chomp

def isWhitespace (c : Char) : Bool :=
  let n := c.toNat
  (0x09 ≤ n && n ≤ 0x0D) || n == 0x20 || n == 0x85 || n == 0xA0 || n == 0x1680 ||
    (0x2000 ≤ n && n ≤ 0x200A) || n == 0x2028 || n == 0x2029 || n == 0x202F || n == 0x205F ||
    n == 0x3000

def isBlank (line : List Char) : Bool := line.all isWhitespace

variable {line : List Char}

theorem splitInclusive_line (h : '\n' ∉ line) (rest : List Char) :
    splitInclusive (line ++ '\n' :: rest) = (line ++ ['\n']) :: splitInclusive rest := by
  induction line with
  | nil => simp only [List.nil_append, splitInclusive, ↓reduceIte]
  | cons c line ih =>
    obtain ⟨hc, hline⟩ := not_or.mp (mt List.mem_cons.mpr h)
    have hsplit := ih hline
    simp only [List.cons_append, splitInclusive, if_neg (Ne.symm hc), hsplit]

theorem splitInclusive_last (h : '\n' ∉ line) (hne : line ≠ []) : splitInclusive line = [line] := by
  induction line with
  | nil => exact absurd rfl hne
  | cons c line ih =>
    obtain ⟨hc, hline⟩ := not_or.mp (mt List.mem_cons.mpr h)
    simp only [splitInclusive, if_neg (Ne.symm hc)]
    cases line with
    | nil => rfl
    | cons d line => rw [ih hline (List.cons_ne_nil d line)]

theorem chomp_line (h : '\r' ∉ line) : chomp (line ++ ['\n']) = line := by
  unfold chomp
  simp only [List.reverse_append, List.reverse_cons, List.reverse_nil, List.nil_append,
    List.cons_append]
  split
  next rest heq =>
    obtain ⟨-, hrest⟩ := List.cons.inj heq
    have hmem : '\r' ∈ line := by
      rw [← List.mem_reverse, hrest]
      exact List.mem_cons_self
    exact absurd hmem h
  next rest heq =>
    obtain ⟨-, hrest⟩ := List.cons.inj heq
    rw [← hrest, List.reverse_reverse]
  next hno => exact absurd rfl (hno line.reverse)

theorem chomp_last (h : '\n' ∉ line) : chomp line = line := by
  have hmem : ∀ rest, line.reverse ≠ '\n' :: rest := by
    intro rest heq
    apply h
    rw [← List.mem_reverse, heq]
    exact List.mem_cons_self
  unfold chomp
  split
  next heq => exact absurd heq (hmem _)
  next heq => exact absurd heq (hmem _)
  · rfl

theorem lines_line (hfeed : '\n' ∉ line) (hreturn : '\r' ∉ line) (rest : List Char) :
    lines (line ++ '\n' :: rest) = line :: lines rest := by
  simp only [lines, splitInclusive_line hfeed, List.map_cons, chomp_line hreturn]

theorem lines_last (hfeed : '\n' ∉ line) (hne : line ≠ []) : lines line = [line] := by
  simp only [lines, splitInclusive_last hfeed hne, List.map_cons, List.map_nil, chomp_last hfeed]

/-! ## Beginnings of a text of whole lines -/

theorem beginning_of_lines {L : Type} (text : L → List Char) {p : List Char} {ls : List L}
    (h : p <+: ls.flatMap fun l => text l ++ ['\n']) :
    ∃ done rest torn, ls = done ++ rest ∧ p = (done.flatMap fun l => text l ++ ['\n']) ++ torn ∧
      (torn = [] ∨ ∃ l ls', rest = l :: ls' ∧ torn <+: text l) := by
  induction ls generalizing p with
  | nil => exact ⟨[], [], [], rfl, by simpa using h, .inl rfl⟩
  | cons l ls ih =>
    rw [List.flatMap_cons] at h
    have hfirst : text l ++ ['\n'] <+:
        (text l ++ ['\n']) ++ ls.flatMap fun l => text l ++ ['\n'] := List.prefix_append _ _
    rcases List.prefix_or_prefix_of_prefix h hfirst with hp | ⟨q, rfl⟩
    · rcases List.prefix_concat_iff.mp hp with rfl | hp
      · exact ⟨[l], ls, [], rfl, by simp, .inl rfl⟩
      · exact ⟨[], l :: ls, p, rfl, rfl, .inr ⟨l, ls, rfl, hp⟩⟩
    · obtain ⟨done, rest, torn, rfl, rfl, htorn⟩ := ih ((List.prefix_append_right_inj _).mp h)
      exact ⟨l :: done, rest, torn, rfl, by simp, htorn⟩

/-- The length of a text in UTF-16 units, which is the length of a JavaScript string. -/
def utf16Len (text : List Char) : Nat := (text.map fun c => if c.toNat < 0x10000 then 1 else 2).sum

def isControl (c : Char) : Bool := c.toNat < 0x20 || c.toNat == 0x7f

/-! ## Bytes -/

def bytes (text : List Char) : ByteArray := (String.ofList text).toByteArray

theorem bytes_eq (text : List Char) : bytes text = text.utf8Encode := String.toByteArray_ofList

theorem bytes_append (a b : List Char) : bytes (a ++ b) = bytes a ++ bytes b := by
  simp only [bytes_eq, List.utf8Encode_append]

theorem utf8Decode?_bytes (text : List Char) : (bytes text).utf8Decode? = some text.toArray := by
  rw [bytes_eq, List.utf8Decode?_utf8Encode]

variable {a : List Char}

theorem bytes_injective {b : List Char} (h : bytes a = bytes b) : a = b := by
  have hdecode := congrArg ByteArray.utf8Decode? h
  rw [utf8Decode?_bytes, utf8Decode?_bytes] at hdecode
  exact List.toArray_inj (Option.some.inj hdecode)

def utf8Len (text : List Char) : Nat := (text.map Char.utf8Size).sum

theorem utf8Len_append (a b : List Char) : utf8Len (a ++ b) = utf8Len a + utf8Len b := by
  simp only [utf8Len, List.map_append, List.sum_append]

theorem size_bytes (text : List Char) : (bytes text).size = utf8Len text := by
  rw [bytes_eq]
  induction text with
  | nil => rfl
  | cons c text ih =>
    rw [← List.singleton_append, List.utf8Encode_append, ByteArray.size_append, ih, utf8Len_append,
      List.utf8Encode_singleton]
    simp [utf8Len]

variable {text : List Char}

theorem beginning_of_bytes {data rest : ByteArray} {chars : Array Char}
    (hdecode : data.utf8Decode? = some chars) (h : data ++ rest = bytes text) :
    chars.toList <+: text ∧ bytes chars.toList = data := by
  have hdata : chars.toList.utf8Encode = data := by
    have hget := ByteArray.utf8Encode_get_utf8Decode? (b := data) (h := by rw [hdecode]; rfl)
    simpa only [hdecode, Option.get_some] using hget
  rw [bytes_eq] at h ⊢
  refine ⟨?_, hdata⟩
  apply List.isPrefix_of_utf8Encode_append_eq_utf8Encode rest
  rw [hdata, h]

theorem beginning_of_bytes_append (rest : ByteArray) (h : bytes a ++ rest = bytes text) :
    a <+: text := by
  rw [bytes_eq, bytes_eq] at h
  exact List.isPrefix_of_utf8Encode_append_eq_utf8Encode rest h

theorem extract_bytes_append (a b : List Char) : (bytes (a ++ b)).extract 0 (utf8Len a) =
    bytes a := by
  rw [bytes_append, ← size_bytes, ByteArray.extract_append_eq_left rfl]

end Kit.Text
