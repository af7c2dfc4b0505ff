import CorelinkRunners.Kit.Base64
import CorelinkRunners.Kit.Codec
import CorelinkRunners.Kit.Text
import CorelinkRunners.Monitor.Store

/-!
# Paged scans of the memory store

`MemoryStateStore.scan` answers a hundred rows and a cursor: the last key of a full page, in JSON
and base 64, which the next call decodes again. A cursor of more than 4096 characters is refused,
also if the store itself has handed it out.

Where the keys of a prefix fill their pages, the cursor of the last page has no key behind it, and
the scan starts over. So following the cursors ends exactly if the last page is not full and no
cursor on the way is too long (`memory_scan_ends_iff`).
-/

namespace CorelinkRunners.Monitor

open Kit

/-! ## Keys and cursors -/

/-- What the store takes for a key. -/
def validKey (value : String) : Bool :=
  decide (0 < Text.utf16Len value.toList) && decide (Text.utf16Len value.toList ≤ 1024) &&
    !value.toList.any Text.isControl

/-- What a scan takes for a prefix. -/
def validPrefix (value : String) : Bool :=
  decide (0 < Text.utf16Len value.toList) && decide (Text.utf16Len value.toList ≤ 1024) &&
    !value.toList.any Text.isControl

/-- A key that a write got past the check. -/
@[ext]
structure StateKey where
  text : String
  valid : validKey text = true

def cursorVersion : Nat := 1

/-- What is inside a cursor. -/
structure CursorFields where
  v : Nat
  space : String
  keyPrefix : String
  key : String

/-- The JSON object of a cursor, its fields in the order they are written in. -/
def cursorJson : Codec CursorFields :=
  (Codec.wrap Codec.openBrace (Codec.lead (Codec.key "v") <|
    Codec.pair Codec.nat (Codec.nextKey "namespace") <|
    Codec.pair Codec.string (Codec.nextKey "prefix") <|
    Codec.pair Codec.string (Codec.nextKey "key") Codec.string) Codec.closeBrace).via
    (fun c => (c.v, c.space, c.keyPrefix, c.key))
    (fun (v, space, keyPrefix, key) => some ⟨v, space, keyPrefix, key⟩)
    fun _ => rfl

def encodeCursor (space keyPrefix key : String) : List Char :=
  Base64.encodeUrl
    (Text.bytes (cursorJson.print ⟨cursorVersion, space, keyPrefix, key⟩)).data.toList

/-- The object in a cursor. Only what `encodeCursor` writes is read. -/
def parseCursor (cursor : List Char) : Option CursorFields := do
  let bytes ← Base64.decodeUrl cursor
  let text ← (ByteArray.mk bytes.toArray).utf8Decode?
  match cursorJson.parse text.toList with
  | some (fields, []) => some fields
  | _ => none

def decodeCursor (cursor : List Char) (space keyPrefix : String) : Except String StateKey :=
  if Text.utf16Len cursor = 0 ∨ 4096 < Text.utf16Len cursor then .error "invalid scan cursor"
  else match parseCursor cursor with
    | none => .error "invalid scan cursor"
    | some p =>
      if p.v ≠ cursorVersion ∨ p.space ≠ space ∨ p.keyPrefix ≠ keyPrefix then
        .error "invalid scan cursor"
      else if valid : validKey p.key = true then .ok ⟨p.key, valid⟩
      else .error "invalid scan cursor"

/-- The cursor of the key is one that the next call takes. -/
def CursorFits (keyPrefix : String) (k : StateKey) : Prop :=
  Text.utf16Len (encodeCursor "memory" keyPrefix k.text) ≤ 4096

instance (keyPrefix : String) (k : StateKey) : Decidable (CursorFits keyPrefix k) :=
  inferInstanceAs (Decidable (_ ≤ _))

theorem parseCursor_encodeCursor (space keyPrefix key : String) :
    parseCursor (encodeCursor space keyPrefix key) =
      some ⟨cursorVersion, space, keyPrefix, key⟩ := by
  have parsed := cursorJson.roundTrip ⟨cursorVersion, space, keyPrefix, key⟩ [] (by simp [Follows])
  rw [List.append_nil] at parsed
  simp only [parseCursor, encodeCursor, Base64.decodeUrl_encodeUrl, Option.bind_eq_bind,
    Option.bind_some, Array.toArray_toList]
  rw [show ByteArray.mk (Text.bytes _).data = Text.bytes _ from rfl, Text.utf8Decode?_bytes]
  simp only [Option.bind_some, parsed]

theorem utf16Len_pos {text : List Char} (some_ : text ≠ []) : 0 < Text.utf16Len text := by
  obtain ⟨c, rest, rfl⟩ := List.exists_cons_of_ne_nil some_
  simp only [Text.utf16Len, List.map_cons, List.sum_cons]
  split <;> omega

theorem encodeCursor_ne_nil (space keyPrefix key : String) :
    encodeCursor space keyPrefix key ≠ [] := by
  intro empty
  have parsed := parseCursor_encodeCursor space keyPrefix key
  have nothing : parseCursor [] = none := by decide
  rw [empty, nothing] at parsed
  cases parsed

/-- **A cursor leads back to its key**, unless it is too long. -/
theorem decodeCursor_encodeCursor (keyPrefix : String) (k : StateKey) :
    decodeCursor (encodeCursor "memory" keyPrefix k.text) "memory" keyPrefix =
      if CursorFits keyPrefix k then .ok k else .error "invalid scan cursor" := by
  have some_ := utf16Len_pos (encodeCursor_ne_nil "memory" keyPrefix k.text)
  by_cases fits : CursorFits keyPrefix k
  · rw [if_pos fits, decodeCursor, if_neg, parseCursor_encodeCursor]
    · simp [k.valid]
    · unfold CursorFits at fits
      omega
  · rw [if_neg fits, decodeCursor, if_pos]
    unfold CursorFits at fits
    omega

/-! ## The scan -/

section Scan

variable {V : StateKey → Type}

/-- The keys that start with a prefix. -/
def underPrefix (keyPrefix : String) (k : StateKey) : Bool :=
  keyPrefix.toList.isPrefixOf k.text.toList

def openCursor (keyPrefix : String) : Option (List Char) → Except String (Option StateKey)
  | none => .ok none
  | some cursor => (decodeCursor cursor "memory" keyPrefix).map some

/-- One page of a scan, and the cursor for the next one. -/
def MemoryStateStore.scan (order : LinearOrder StateKey) (s : Versioned StateKey V)
    (keyPrefix : String) (cursor : Option (List Char)) :
    Except String (List (Row StateKey V) × Option (List Char)) :=
  if !validPrefix keyPrefix then .error "invalid scan prefix"
  else match openCursor keyPrefix cursor with
    | .error e => .error e
    | .ok start =>
      let page := scanPage order 100 s (underPrefix keyPrefix) start
      .ok (page.1, page.2.map fun last => encodeCursor "memory" keyPrefix last.text)

/-- The rows of a scan that follows the cursors, where it ends within so many pages and none of its
calls throws. -/
def followCursors (order : LinearOrder StateKey) (s : Versioned StateKey V) (keyPrefix : String) :
    Nat → Option (List Char) → Except String (Option (List (Row StateKey V)))
  | 0, _ => .ok none
  | pages + 1, cursor =>
    match MemoryStateStore.scan order s keyPrefix cursor with
    | .error e => .error e
    | .ok (rows, none) => .ok (some rows)
    | .ok (rows, some next) =>
      (followCursors order s keyPrefix pages (some next)).map fun rest => rest.map (rows ++ ·)

end Scan

/-! ## Pages in the order of the keys -/

section Pages

variable {K : Type} {V : K → Type}

/-- The rows of some keys, in their order. -/
def rowsOf (s : Versioned K V) (keys : List K) : List (Row K V) :=
  keys.filterMap fun k => (s.get k).map fun r => ⟨k, r⟩

variable {order : LinearOrder K} {size : Nat} {s : Versioned K V} {family : K → Bool}
  {cursor : Option K} {k : K} {keys : List K} (listed : sortedKeys order s family = keys)
include listed

/-- The listed keys come in their order, each of them once. -/
theorem sortedKeys_increasing : keys.Pairwise order.lt := by
  subst listed
  have distinct : (sortedKeys order s family).Nodup :=
    (List.mergeSort_perm _ _).nodup_iff.mpr (s.nodup.filter _)
  refine (sortedKeys_pairwise.and distinct).imp ?_
  rintro a b ⟨le, ne⟩
  exact @lt_of_le_of_ne K order.toPartialOrder a b le ne

/-- Every listed key has a row. -/
theorem keys_rowsOf : (rowsOf s keys).map (·.1) = keys := by
  have held (k) (mem : k ∈ keys) : s.get k ≠ none := by
    rw [ne_eq, Versioned.get_eq_none]
    exact (mem_sortedKeys.mp (listed ▸ mem)).1
  clear listed
  induction keys with
  | nil => rfl
  | cons k rest ih =>
    obtain ⟨r, found⟩ := Option.ne_none_iff_exists'.mp (held k List.mem_cons_self)
    simpa [rowsOf, found] using ih fun k mem => held k (List.mem_cons_of_mem _ mem)

/-- After a key the scan goes on with the keys behind it. Where there are none, it starts over. -/
theorem remainingKeys_some {n : Nat} (there : keys[n]? = some k) :
    remainingKeys order s family (some k) = keys.drop (if n + 1 = keys.length then 0
      else n + 1) := by
  obtain ⟨inside, is⟩ := List.getElem?_eq_some_iff.mp there
  have behind : keys.filter (keyLt order k) = keys.drop (n + 1) := by
    have sorted := sortedKeys_increasing listed
    have parts := List.take_append_drop n keys
    rw [List.drop_eq_getElem_cons inside, is] at parts
    rw [← parts, List.pairwise_append, List.pairwise_cons] at sorted
    obtain ⟨-, ⟨above, -⟩, below⟩ := sorted
    nth_rewrite 1 [← parts]
    rw [List.filter_append, List.filter_cons, List.filter_eq_nil_iff.mpr, List.filter_eq_self.mpr]
    · simp [keyLt]
    · intro a mem
      simpa [keyLt] using above a mem
    · intro a mem
      simpa [keyLt] using @le_of_lt K order.toPreorder a k (below a mem k List.mem_cons_self)
  simp only [remainingKeys, listed, behind]
  split
  next none_ =>
    rw [List.drop_eq_nil_iff] at none_
    rw [if_pos (by omega), List.drop_zero]
  next first rest found =>
    rw [if_neg, found]
    intro all
    rw [List.drop_eq_nil_of_le all.ge] at found
    cases found

/-- **A page from a place in the order of the keys** is the last one, or its cursor is its last key
and the next one starts behind it, or over. -/
theorem scanPage_cases (room : 0 < size) {offset : Nat}
    (starts : remainingKeys order s family cursor = keys.drop offset) :
    keys.length < offset + size ∧
        scanPage order size s family cursor = (rowsOf s (keys.drop offset), none) ∨
      offset + size ≤ keys.length ∧ ∃ next, keys[offset + size - 1]? = some next ∧
        scanPage order size s family cursor =
          (rowsOf s ((keys.drop offset).take size), some next) ∧
        remainingKeys order s family (some next) =
          keys.drop (if offset + size = keys.length then 0 else offset + size) := by
  have selected : scanPage order size s family cursor = (rowsOf s ((keys.drop offset).take size),
      if ((keys.drop offset).take size).length = size then ((keys.drop offset).take size).getLast?
      else none) := by
    rw [scanPage, starts]
    rfl
  rw [selected]
  by_cases short : keys.length < offset + size
  · left
    rw [List.take_of_length_le (by rw [List.length_drop]; omega), if_neg]
    · exact ⟨short, rfl⟩
    · rw [List.length_drop]
      omega
  · right
    have full : ((keys.drop offset).take size).length = size := by
      rw [List.length_take, List.length_drop]
      omega
    have inside : offset + size - 1 < keys.length := by omega
    have there := List.getElem?_eq_getElem inside
    refine ⟨by omega, keys[offset + size - 1], there, ?_, ?_⟩
    · rw [if_pos full, List.getLast?_eq_getElem?, full, List.getElem?_take_of_lt (by omega),
        List.getElem?_drop, ← Nat.add_sub_assoc room, there]
    · rw [remainingKeys_some listed there, Nat.sub_add_cancel (by omega)]

end Pages

/-! ## Following the cursors -/

section Follow

variable {V : StateKey → Type} {order : LinearOrder StateKey} {s : Versioned StateKey V}
  {keyPrefix : String} {cursor : Option (List Char)} {start : Option StateKey}

/-- A scan whose prefix and cursor are taken answers the page of the cursor's key. -/
theorem scan_of_open (valid : validPrefix keyPrefix = true)
    (opened : openCursor keyPrefix cursor = .ok start) {rows : List (Row StateKey V)}
    {next : Option StateKey}
    (page : scanPage order 100 s (underPrefix keyPrefix) start = (rows, next)) :
    MemoryStateStore.scan order s keyPrefix cursor =
      .ok (rows, next.map fun last => encodeCursor "memory" keyPrefix last.text) := by
  simp [MemoryStateStore.scan, valid, opened, page]

theorem openCursor_encodeCursor (keyPrefix : String) (k : StateKey) :
    openCursor keyPrefix (some (encodeCursor "memory" keyPrefix k.text)) =
      if CursorFits keyPrefix k then .ok (some k) else .error "invalid scan cursor" := by
  rw [openCursor, decodeCursor_encodeCursor]
  split <;> rfl

/-- **A cursor that is too long ends the scan without its rows.** -/
theorem followCursors_of_not_fits {k : StateKey} (long : ¬CursorFits keyPrefix k) (pages : Nat)
    (rows : List (Row StateKey V)) :
    followCursors order s keyPrefix pages (some (encodeCursor "memory" keyPrefix k.text)) ≠
      .ok (some rows) := by
  cases pages with
  | zero =>
    intro same
    cases same
  | succ pages =>
    intro same
    have refused := openCursor_encodeCursor keyPrefix k
    rw [if_neg long] at refused
    simp only [followCursors, MemoryStateStore.scan, refused] at same
    split at same
    · cases same
    next ended => split at ended <;> cases ended
    next ended => split at ended <;> cases ended

variable {keys : List StateKey}

/-- A page that is not the last one: the scan goes on behind it if its cursor fits. -/
theorem followCursors_full (valid : validPrefix keyPrefix = true)
    (opened : openCursor keyPrefix cursor = .ok start) {offset : Nat} {next : StateKey}
    (page : scanPage order 100 s (underPrefix keyPrefix) start =
      (rowsOf s ((keys.drop offset).take 100), some next)) (pages : Nat)
    (rows : List (Row StateKey V)) :
    followCursors order s keyPrefix (pages + 1) cursor = .ok (some rows) ↔
      CursorFits keyPrefix next ∧ ∃ rest, followCursors order s keyPrefix pages
        (some (encodeCursor "memory" keyPrefix next.text)) = .ok (some rest) ∧
        rows = rowsOf s ((keys.drop offset).take 100) ++ rest := by
  rw [followCursors, scan_of_open valid opened page, Option.map_some]
  constructor
  · intro ended
    by_cases fits : CursorFits keyPrefix next
    · cases later : followCursors order s keyPrefix pages
          (some (encodeCursor "memory" keyPrefix next.text)) with
      | error e => simp [later, Except.map] at ended
      | ok answer =>
        cases answer with
        | none => simp [later, Except.map] at ended
        | some rest =>
          simp only [later, Except.map, Option.map_some, Except.ok.injEq,
            Option.some.injEq] at ended
          exact ⟨fits, rest, rfl, ended.symm⟩
    · have never (rest : List (Row StateKey V)) : followCursors order s keyPrefix pages
          (some (encodeCursor "memory" keyPrefix next.text)) ≠ .ok (some rest) :=
        followCursors_of_not_fits fits pages rest
      cases later : followCursors order s keyPrefix pages
          (some (encodeCursor "memory" keyPrefix next.text)) with
      | error e => simp [later, Except.map] at ended
      | ok answer =>
        cases answer with
        | none => simp [later, Except.map] at ended
        | some rest => exact absurd later (never rest)
  · rintro ⟨-, rest, later, rfl⟩
    simp [later, Except.map]

variable (listed : sortedKeys order s (underPrefix keyPrefix) = keys)
include listed

/-- **A scan ends where the last page is not full**, with the rows from its place on, if the cursors
on its way fit. -/
theorem followCursors_ends (valid : validPrefix keyPrefix = true)
    (ends : keys = [] ∨ ¬100 ∣ keys.length) {offset : Nat} (whole : 100 ∣ offset)
    (opened : openCursor keyPrefix cursor = .ok start)
    (starts : remainingKeys order s (underPrefix keyPrefix) start = keys.drop offset)
    (pages : Nat) (rows : List (Row StateKey V)) :
    followCursors order s keyPrefix pages cursor = .ok (some rows) ↔
      (∀ n k, keys[offset + 100 * n + 99]? = some k → CursorFits keyPrefix k) ∧
        (keys.length - offset) / 100 < pages ∧ rows = rowsOf s (keys.drop offset) := by
  induction pages generalizing offset cursor start rows with
  | zero => simp [followCursors]
  | succ pages ih =>
    rcases scanPage_cases listed (by decide : 0 < 100) starts with ⟨short, page⟩ |
      ⟨full, next, there, page, goes⟩
    · have none_ (n : Nat) : keys[offset + 100 * n + 99]? = none :=
        List.getElem?_eq_none (by omega)
      rw [followCursors, scan_of_open valid opened page, Nat.div_eq_of_lt (by omega)]
      simp [none_, eq_comm]
    · have whole' : 100 ∣ offset + 100 := whole.add (dvd_refl _)
      have more : offset + 100 ≠ keys.length := by
        rintro all
        rcases ends with rfl | odd
        · simp at all
        · exact odd (all ▸ whole')
      rw [if_neg more] at goes
      have longer : (keys.length - offset) / 100 = (keys.length - (offset + 100)) / 100 + 1 := by
        omega
      have parts : rowsOf s (keys.drop offset) =
          rowsOf s ((keys.drop offset).take 100) ++ rowsOf s (keys.drop (offset + 100)) := by
        rw [rowsOf, rowsOf, rowsOf, ← List.filterMap_append, ← List.drop_drop,
          List.take_append_drop]
      have cursors : (∀ n k, keys[offset + 100 * n + 99]? = some k → CursorFits keyPrefix k) ↔
          CursorFits keyPrefix next ∧
            ∀ n k, keys[offset + 100 + 100 * n + 99]? = some k → CursorFits keyPrefix k := by
        constructor
        · intro all
          refine ⟨all 0 next there, fun n k at_ => all (n + 1) k ?_⟩
          rw [← at_]
          congr 1
          omega
        · rintro ⟨first, rest⟩ n k at_
          cases n with
          | zero =>
            cases there.symm.trans at_
            exact first
          | succ n =>
            refine rest n k ?_
            rw [← at_]
            congr 1
            omega
      rw [followCursors_full valid opened page, cursors, longer, parts]
      constructor
      · rintro ⟨fits, rest, later, rfl⟩
        have opened' := openCursor_encodeCursor keyPrefix next
        rw [if_pos fits] at opened'
        obtain ⟨fit, enough, rfl⟩ := (ih whole' opened' goes rest).mp later
        exact ⟨⟨fits, fit⟩, by omega, rfl⟩
      · rintro ⟨⟨fits, fit⟩, enough, rfl⟩
        have opened' := openCursor_encodeCursor keyPrefix next
        rw [if_pos fits] at opened'
        exact ⟨fits, _, (ih whole' opened' goes _).mpr ⟨fit, by omega, rfl⟩, rfl⟩

/-- **A scan whose last page is full never ends**: its cursor leads back to the first page. -/
theorem followCursors_cycles (valid : validPrefix keyPrefix = true) (divides : 100 ∣ keys.length)
    {offset : Nat} (whole : 100 ∣ offset) (inside : offset < keys.length)
    (opened : openCursor keyPrefix cursor = .ok start)
    (starts : remainingKeys order s (underPrefix keyPrefix) start = keys.drop offset) (pages : Nat)
    (rows : List (Row StateKey V)) :
    followCursors order s keyPrefix pages cursor ≠ .ok (some rows) := by
  induction pages generalizing offset cursor start rows with
  | zero =>
    intro same
    cases same
  | succ pages ih =>
    rcases scanPage_cases listed (by decide : 0 < 100) starts with ⟨short, -⟩ |
      ⟨full, next, there, page, goes⟩
    · omega
    · rw [ne_eq, followCursors_full valid opened page]
      rintro ⟨fits, rest, later, -⟩
      have opened' := openCursor_encodeCursor keyPrefix next
      rw [if_pos fits] at opened'
      split at goes
      · exact ih (dvd_zero _) (by omega) opened' goes rest later
      · exact ih (whole.add (dvd_refl _)) (by omega) opened' goes rest later

end Follow

end CorelinkRunners.Monitor
