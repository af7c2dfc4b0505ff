import CorelinkRunners.Contracts
import CorelinkRunners.Kit.Word

/-!
# The metrics of one job

`MetricsCollector` folds the transcript events of a job into totals and derives the metrics of the
job from them, exactly once. Every total saturates, and the tool names a job can invent are folded
into one bucket beyond a bound, so the collector stays small and cannot fail on lying input.

An instant is a number of nanoseconds; the collector only takes differences of instants. A counter
of 64 bits is a natural number, cut at `Word.maxU64` where the source saturates.
-/

namespace CorelinkRunners.Envelope

open Kit

/-! ## Events, prices, metrics -/

abbrev Bytes : Type := List UInt8

/-- Nanoseconds on the process clock. -/
abbrev Instant : Type := Nat

def millisSince (later earlier : Instant) : Nat := min ((later - earlier) / 1000000) Word.maxU64

structure TurnUsage where
  input : Nat
  output : Nat
  cacheRead : Nat
  cacheWrite : Nat

inductive TranscriptEvent
  | modelTurn (bytes : Bytes) (usage : Option TurnUsage) (busyMs : Nat)
  | toolCall (tool : String) (bytes : Bytes) (busyMs : Nat)
  | toolResult (tool : String) (bytes : Bytes)
  | systemPrompt (bytes : Bytes)

def TranscriptEvent.bytes : TranscriptEvent → Bytes
  | modelTurn bytes .. | toolCall _ bytes _ | toolResult _ bytes | systemPrompt bytes => bytes

/-- Micro-USD per million tokens of each class. -/
structure PriceCard where
  inputPerMtokMicros : Nat
  outputPerMtokMicros : Nat
  cacheReadPerMtokMicros : Nat
  cacheWritePerMtokMicros : Nat

structure TokenCounts where
  input : Nat
  output : Nat
  cacheRead : Nat
  cacheWrite : Nat
  total : Nat

structure ToolCount where
  tool : String
  count : Nat

structure IntentMetrics where
  tokens : TokenCounts
  wallMs : Nat
  activeMs : Nat
  toolCalls : Nat
  toolBreakdown : List ToolCount
  modelTurns : Nat
  costUsdMicros : Nat

/-! ## The collector -/

def maxDistinctTools : Nat := 256

def maxToolNameLen : Nat := 128

def toolOverflowKey : String := "<overflow>"

structure MetricsCollector where
  born : Instant
  modelTurns : Nat
  toolCalls : Nat
  toolBreakdown : OrdMap String Nat
  activeMs : Nat
  input : Nat
  output : Nat
  cacheRead : Nat
  cacheWrite : Nat
  finalized : Bool

def classCostMicros (tokens perMtokMicros : Nat) : Nat := tokens * perMtokMicros / 1000000

namespace MetricsCollector

variable (self : MetricsCollector)

def new (born : Instant) : MetricsCollector := ⟨born, 0, 0, ∅, 0, 0, 0, 0, 0, false⟩

/-- The key a tool is counted under: its name, unless it is too long or one name too many. -/
def toolKey (tool : String) : String :=
  if tool.utf8ByteSize ≤ maxToolNameLen &&
      (self.toolBreakdown.contains tool || self.toolBreakdown.size < maxDistinctTools) then tool
  else toolOverflowKey

def observe : TranscriptEvent → MetricsCollector
  | .modelTurn _ usage busyMs =>
    let busy := { self with
      modelTurns := self.modelTurns + 1
      activeMs := Word.satAdd self.activeMs busyMs }
    match usage with
    | none => busy
    | some u =>
      { busy with
        input := Word.satAdd self.input u.input
        output := Word.satAdd self.output u.output
        cacheRead := Word.satAdd self.cacheRead u.cacheRead
        cacheWrite := Word.satAdd self.cacheWrite u.cacheWrite }
  | .toolCall tool _ busyMs =>
    let key := self.toolKey tool
    { self with
      toolCalls := self.toolCalls + 1
      toolBreakdown := self.toolBreakdown.insert key (self.toolBreakdown[key]?.getD 0 + 1)
      activeMs := Word.satAdd self.activeMs busyMs }
  | .toolResult .. | .systemPrompt _ => self

def project (at_ : Instant) (price : PriceCard) : IntentMetrics :=
  let wallMs := millisSince at_ self.born
  let total := Word.satAdd (Word.satAdd (Word.satAdd self.input self.output) self.cacheRead)
    self.cacheWrite
  let cost := classCostMicros self.input price.inputPerMtokMicros
    + classCostMicros self.output price.outputPerMtokMicros
    + classCostMicros self.cacheRead price.cacheReadPerMtokMicros
    + classCostMicros self.cacheWrite price.cacheWritePerMtokMicros
  { tokens := ⟨self.input, self.output, self.cacheRead, self.cacheWrite, total⟩
    wallMs
    activeMs := min self.activeMs wallMs
    toolCalls := self.toolCalls
    toolBreakdown := self.toolBreakdown.toList.map fun entry => ⟨entry.1, entry.2⟩
    modelTurns := self.modelTurns
    costUsdMicros := min cost Word.maxU64 }

def finalizeTwice : String :=
  "MetricsCollector::finalize called twice — job close is exactly-once"

def finalize (died : Instant) (price : PriceCard) : Result IntentMetrics × MetricsCollector :=
  if self.finalized then (.error finalizeTwice, self)
  else (.ok (self.project died price), { self with finalized := true })

def snapshot (now : Instant) (price : PriceCard) : IntentMetrics := self.project now price

end MetricsCollector

/-! ## The accounts of a job -/

def TranscriptEvent.tool? : TranscriptEvent → Option String
  | toolCall tool .. => some tool
  | _ => none

def TranscriptEvent.usage : TranscriptEvent → TurnUsage
  | modelTurn _ (some usage) _ => usage
  | _ => ⟨0, 0, 0, 0⟩

def calledTools (events : List TranscriptEvent) : List String := events.flatMap (·.tool?.toList)

/-- The tokens of a class that were used, as far as a word counts. -/
def tokensUsed (events : List TranscriptEvent) (ofClass : TurnUsage → Nat) : Nat :=
  min (events.map fun event => ofClass event.usage).sum Word.maxU64

namespace MetricsCollector

/-- All calls of a tool are counted under its name, or none is and none will be. -/
def CountedAs (names : List String) (counts : OrdMap String Nat) (tool : String) : Prop :=
  counts[tool]?.getD 0 = names.count tool ∨ counts[tool]? = none ∧
    (maxToolNameLen < tool.utf8ByteSize ∨ maxDistinctTools ≤ counts.size)

/-- **A breakdown of the tools that were called.** -/
structure Counted (names : List String) (counts : OrdMap String Nat) : Prop where
  total : counts.sumBy (fun _ count => count) = names.length
  few : counts.size ≤ maxDistinctTools ∨
    counts.size = maxDistinctTools + 1 ∧ counts.contains toolOverflowKey = true
  short : ∀ tool, counts.contains tool = true → tool ≠ toolOverflowKey →
    tool.utf8ByteSize ≤ maxToolNameLen
  each : ∀ tool, tool ≠ toolOverflowKey → CountedAs names counts tool

variable {names : List String} {counts : OrdMap String Nat} {tool key : String}

theorem toolKey_cases (c : MetricsCollector) (tool : String) :
    c.toolKey tool = tool ∧ tool.utf8ByteSize ≤ maxToolNameLen ∧
        (c.toolBreakdown.contains tool = true ∨ c.toolBreakdown.size < maxDistinctTools) ∨
      c.toolKey tool = toolOverflowKey ∧ (maxToolNameLen < tool.utf8ByteSize ∨
        c.toolBreakdown.contains tool = false ∧ maxDistinctTools ≤ c.toolBreakdown.size) := by
  unfold toolKey
  split
  next admitted =>
    simp only [Bool.and_eq_true, decide_eq_true_eq, Bool.or_eq_true] at admitted
    exact .inl ⟨rfl, admitted⟩
  next refused =>
    simp only [Bool.and_eq_true, decide_eq_true_eq, Bool.or_eq_true, not_and, not_or, not_lt,
      Bool.not_eq_true] at refused
    exact .inr ⟨rfl, (Nat.lt_or_ge _ _).imp_right refused⟩

/-- A call is counted under the name of its tool. -/
theorem Counted.named (inv : Counted names counts) (fits : tool.utf8ByteSize ≤ maxToolNameLen)
    (room : counts.contains tool = true ∨ counts.size < maxDistinctTools)
    (ne : tool ≠ toolOverflowKey) : counts[tool]?.getD 0 = names.count tool := by
  rcases inv.each tool ne with is | ⟨absent, long | full⟩
  · exact is
  · omega
  · rw [← OrdMap.contains_eq_false_iff_get] at absent
    simp only [absent, Bool.false_eq_true, false_or] at room
    omega

/-- **A call is counted**, under the name of its tool or with the others. -/
theorem Counted.call (c : MetricsCollector) (inv : Counted names c.toolBreakdown) (tool : String) :
    Counted (names ++ [tool]) (c.observe (.toolCall tool [] 0)).toolBreakdown := by
  have keyed := c.toolKey_cases tool
  dsimp only [observe]
  generalize c.toolKey tool = key at keyed ⊢
  generalize c.toolBreakdown = counts at inv keyed ⊢
  have grows : counts.size ≤ (counts.insert key (counts[key]?.getD 0 + 1)).size :=
    Std.ExtTreeMap.size_le_size_insert
  refine ⟨?_, ?_, fun other there ne => ?_, fun other ne => ?_⟩
  · rw [OrdMap.sumBy_insert, List.length_append, ← inv.total]
    cases found : counts[key]? with
    | none => simp [OrdMap.erase_of_get_none found, Nat.add_comm]
    | some count =>
      rw [OrdMap.sumBy_of_get found]
      simp only [Option.getD_some, List.length_singleton]
      omega
  · have few := inv.few
    rw [Std.ExtTreeMap.size_insert, Std.ExtTreeMap.contains_insert]
    split
    · exact few.imp_right (.imp_right fun there => by rw [there, Bool.or_true])
    next absent =>
      rcases keyed with ⟨rfl, -, room⟩ | ⟨rfl, -⟩
      · have room := room.resolve_left absent
        omega
      · have few := few.resolve_right fun more => absent more.2
        simp
        omega
  · rw [Std.ExtTreeMap.contains_insert, Bool.or_eq_true, beq_iff_eq, Std.compare_eq_iff_eq] at there
    rcases there with rfl | there
    · rcases keyed with ⟨rfl, fits, -⟩ | ⟨rfl, -⟩
      · exact fits
      · exact absurd rfl ne
    · exact inv.short other there ne
  · unfold CountedAs
    rw [OrdMap.get_insert, List.count_append, List.count_singleton]
    split
    next same =>
      subst same
      rcases keyed with ⟨rfl, fits, room⟩ | ⟨rfl, -⟩
      · exact .inl (by simp [inv.named fits room ne])
      · exact absurd rfl ne
    next apart =>
      by_cases named : tool = other
      · subst named
        rcases keyed with ⟨rfl, -⟩ | ⟨rfl, long | ⟨absent, full⟩⟩
        · exact absurd rfl apart
        · refine .inr ⟨?_, .inl long⟩
          rw [← OrdMap.contains_eq_false_iff_get]
          by_contra there
          exact absurd (inv.short tool (by simpa using there) ne) (by omega)
        · exact .inr ⟨(OrdMap.contains_eq_false_iff_get ..).mp absent, .inr (full.trans grows)⟩
      · simp only [beq_iff_eq, named, if_false, Nat.add_zero]
        exact (inv.each other ne).imp_right (.imp_right (.imp_right (·.trans grows)))

theorem observe_all (born : Instant) (events : List TranscriptEvent) :
    let c := events.foldl observe (new born)
    c.toolCalls = (calledTools events).length ∧ Counted (calledTools events) c.toolBreakdown ∧
      c.input = tokensUsed events (·.input) ∧ c.output = tokensUsed events (·.output) ∧
      c.cacheRead = tokensUsed events (·.cacheRead) ∧ c.cacheWrite = tokensUsed events
        (·.cacheWrite) := by
  induction events using List.reverseRecOn with
  | nil =>
    refine ⟨rfl, ⟨OrdMap.sumBy_empty, ?_, ?_, ?_⟩, rfl, rfl, rfl, rfl⟩
    all_goals simp [new, calledTools, CountedAs]
  | append_singleton events event ih =>
    obtain ⟨calls, counted, input, output, cacheRead, cacheWrite⟩ := ih
    have used (ofClass : TurnUsage → Nat) : tokensUsed (events ++ [event]) ofClass =
        Word.satAdd (tokensUsed events ofClass) (ofClass event.usage) := by
      simp only [tokensUsed, List.map_append, List.map_singleton, List.sum_append,
        List.sum_singleton, Word.satAdd]
      omega
    have capped (ofClass : TurnUsage → Nat) :
        Word.satAdd (tokensUsed events ofClass) 0 = tokensUsed events ofClass := by
      simp [tokensUsed, Word.satAdd]
    have called : calledTools (events ++ [event]) = calledTools events ++ event.tool?.toList := by
      simp [calledTools]
    rw [List.foldl_concat]
    simp only [used, called]
    set c := events.foldl observe (new born)
    cases event with
    | toolCall tool =>
      refine ⟨?_, Counted.call c counted tool, ?_⟩
      · simp [observe, TranscriptEvent.tool?, calls]
      · simp [observe, TranscriptEvent.usage, capped, input, output, cacheRead, cacheWrite]
    | modelTurn _ usage =>
      cases usage <;> simp [observe, TranscriptEvent.tool?, TranscriptEvent.usage, capped, calls,
        counted, input, output, cacheRead, cacheWrite]
    | _ =>
      simp [observe, TranscriptEvent.tool?, TranscriptEvent.usage, capped, calls, counted, input,
        output, cacheRead, cacheWrite]

/-- **The metrics of a job account for what was observed**, at any time: the breakdown adds up to
the calls and stays small; a tool that has an entry has the exact number of its calls in it; the
tokens of each class and of all are the sums, cut at the largest word; and the active time is within
the wall time. -/
theorem metrics_account (born now : Instant) (price : PriceCard) (events : List TranscriptEvent) :
    let metrics := (events.foldl observe (new born)).snapshot now price
    metrics.toolCalls = (calledTools events).length ∧
    (metrics.toolBreakdown.map (·.count)).sum = metrics.toolCalls ∧
    metrics.toolBreakdown.length ≤ maxDistinctTools + 1 ∧
    (∀ entry ∈ metrics.toolBreakdown, entry.tool ≠ toolOverflowKey →
      entry.count = (calledTools events).count entry.tool) ∧
    metrics.tokens.input = tokensUsed events (·.input) ∧
    metrics.tokens.output = tokensUsed events (·.output) ∧
    metrics.tokens.cacheRead = tokensUsed events (·.cacheRead) ∧
    metrics.tokens.cacheWrite = tokensUsed events (·.cacheWrite) ∧
    metrics.tokens.total =
      tokensUsed events
      (fun usage => usage.input + usage.output + usage.cacheRead + usage.cacheWrite) ∧
    metrics.activeMs ≤ metrics.wallMs := by
  obtain ⟨calls, counted, input, output, cacheRead, cacheWrite⟩ := observe_all born events
  refine ⟨calls, ?_, ?_, fun entry mem ne => ?_, input, output, cacheRead, cacheWrite, ?_,
    Nat.min_le_right _ _⟩
  · simpa [snapshot, project, OrdMap.sumBy, Function.comp_def, calls] using counted.total
  · rw [snapshot, project, List.length_map, Std.ExtTreeMap.length_toList]
    rcases counted.few with few | ⟨few, -⟩
    · omega
    · exact few.le
  · obtain ⟨⟨tool, count⟩, there, rfl⟩ := List.mem_map.mp mem
    rw [Std.ExtTreeMap.mem_toList_iff_getElem?_eq_some] at there
    simpa [CountedAs, there] using counted.each tool ne
  · rw [snapshot, project, input, output, cacheRead, cacheWrite]
    simp only [Word.satAdd, tokensUsed, List.sum_map_add]
    omega

end MetricsCollector

end CorelinkRunners.Envelope
