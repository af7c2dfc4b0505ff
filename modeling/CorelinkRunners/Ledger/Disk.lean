import CorelinkRunners.Kit.Text
import CorelinkRunners.Ledger.AppendFailure
import CorelinkRunners.Ledger.Codec

/-!
# The journal as bytes

`openJournal` is `FileLedger::open` on the bytes of the journal file: decode them, split them into
lines, replay every line that parses, tolerate one that does not if it is the last, and cut the file
there.

`Disk` is a journal file with the process in front of it. A crash cuts an operation's output after
any number of bytes, and the file can be opened again any number of times. `acked` and `inFlight`
are kept beside the machine and never read by it: the index the acknowledged operations make, and
the operation a crash cut short.
-/

namespace CorelinkRunners

open Kit JournalCodec Text FileInner

/-! ## Opening -/

structure PhysLine where
  lineno : Nat
  byteStart : Nat
  text : List Char

/-- The lines that are not blank, with their numbers and byte offsets. -/
def physLines : Nat → Nat → List (List Char) → List PhysLine
  | _, _, [] => []
  | n, offset, line :: rest =>
    let phys := physLines (n + 1) (offset + Text.utf8Len line + 1) rest
    if Text.isBlank line then phys else ⟨n + 1, offset, line⟩ :: phys

section Codec

variable [JournalCodec]

/-- Replay the lines in order. The last one may fail to parse, and is then where the file is cut;
any other refuses to open. -/
def replayLines (path : String) (index : InMemoryInner) :
    List PhysLine → Result (InMemoryInner × Option Nat)
  | [] => .ok (index, none)
  | pl :: rest =>
    match JournalCodec.fromText pl.text with
    | .ok entry => replayLines path (index.replayLine entry) rest
    | .error e =>
      if rest.isEmpty then .ok (index, some pl.byteStart)
      else
        .error ("corrupt ledger journal " ++ path ++ " line " ++ toString pl.lineno ++ ": " ++ e
          ++ " (un-parseable record with valid records after it — fail-closed: refusing to open)")

/-- Open the journal: the index it replays to and the bytes it is left with. -/
def openJournal (path : String) (bytes : ByteArray) : Result (InMemoryInner × ByteArray) :=
  match bytes.utf8Decode? with
  | none => .error ("cannot read ledger journal " ++ path ++ ": stream did not contain valid UTF-8")
  | some text =>
    match replayLines path .empty (physLines 0 0 (Text.lines text.toList)) with
    | .error e => .error e
    | .ok (index, none) => .ok (index, bytes)
    | .ok (index, some len) => .ok (index, bytes.extract 0 len)

def journalText (ls : List JournalLine) : List Char :=
  ls.flatMap fun l => toText l ++ ['\n']

@[simp] theorem journalText_append (ls ms : List JournalLine) :
    journalText (ls ++ ms) = journalText ls ++ journalText ms := by
  simp only [journalText, List.flatMap_append]

theorem utf8Len_journalText_cons (l : JournalLine) (ls : List JournalLine) :
    Text.utf8Len (journalText (l :: ls)) =
      Text.utf8Len (toText l) + 1 + Text.utf8Len (journalText ls) := by
  have hfeed : utf8Len ['\n'] = 1 := by decide
  rw [← List.singleton_append, journalText_append, utf8Len_append]
  simp only [journalText, List.flatMap_cons, List.flatMap_nil, List.append_nil, utf8Len_append,
    hfeed]

variable {path : String} {l : JournalLine}

theorem JournalCodec.Lawful.not_blank (law : JournalCodec.Lawful) {p : List Char}
    (hp : p <+: toText l) (hne : p ≠ []) : Text.isBlank p = false := by
  obtain ⟨rest, hl⟩ := law.object l
  rw [hl] at hp
  obtain ⟨c, p, rfl⟩ := List.exists_cons_of_ne_nil hne
  obtain ⟨rfl, -⟩ := List.cons_prefix_cons.mp hp
  rfl

variable {torn : List Char}

theorem JournalCodec.Lawful.physLines_journalText (law : JournalCodec.Lawful)
    (ls : List JournalLine) (htorn : torn <+: toText l) (n offset : Nat) :
    ∃ heads, heads.map PhysLine.text = ls.map toText ∧
      physLines n offset (Text.lines (journalText ls ++ torn)) =
        heads ++ if torn = [] then []
          else [⟨n + ls.length + 1, offset + Text.utf8Len (journalText ls), torn⟩] := by
  induction ls generalizing n offset with
  | nil =>
    refine ⟨[], rfl, ?_⟩
    by_cases hne : torn = []
    · subst hne
      rfl
    · have hfeed : '\n' ∉ torn := fun h => (law.oneLine l).1 (htorn.mem h)
      simp only [journalText, List.flatMap_nil, List.nil_append, lines_last hfeed hne, physLines,
        law.not_blank htorn hne, if_neg hne]
      simp [utf8Len]
  | cons l' ls ih =>
    obtain ⟨heads, hheads, hphys⟩ := ih (n + 1) (offset + utf8Len (toText l') + 1)
    obtain ⟨hfeed, hreturn⟩ := law.oneLine l'
    obtain ⟨rest, hobject⟩ := law.object l'
    refine ⟨⟨n + 1, offset, toText l'⟩ :: heads, by simp [hheads], ?_⟩
    have htext : journalText (l' :: ls) ++ torn =
        toText l' ++ '\n' :: (journalText ls ++ torn) := by
      simp [journalText]
    have hblank : isBlank (toText l') = false :=
      law.not_blank (List.prefix_refl _) (by rw [hobject]; exact List.cons_ne_nil _ _)
    rw [htext, lines_line hfeed hreturn]
    simp only [physLines, hblank, Bool.false_eq_true, ↓reduceIte, hphys, List.cons_append]
    split
    · rfl
    have hlen := utf8Len_journalText_cons l' ls
    congr 3
    simp only [PhysLine.mk.injEq, and_true, List.length_cons]
    omega

variable {ls : List JournalLine}

theorem JournalCodec.Lawful.replayLines_whole (law : JournalCodec.Lawful) {heads : List PhysLine}
    (h : heads.map PhysLine.text = ls.map toText) (index : InMemoryInner)
    (tail : List PhysLine) :
    replayLines path index (heads ++ tail) = replayLines path (index.replay ls) tail := by
  induction ls generalizing heads index with
  | nil =>
    obtain rfl := List.map_eq_nil_iff.mp h
    rfl
  | cons l ls ih =>
    obtain ⟨pl, heads, rfl, hpl, hheads⟩ := List.map_eq_cons_iff.mp h
    simp only [List.cons_append, replayLines, hpl, law.roundTrip l]
    exact ih hheads _

/-- **What opening a journal finds**: its whole lines, and the last one too if only its line feed is
missing. A line torn earlier is dropped and cut off. -/
theorem JournalCodec.Lawful.openJournal_torn (law : JournalCodec.Lawful) (ls : List JournalLine)
    (htorn : torn <+: toText l) :
    openJournal path (Text.bytes (journalText ls ++ torn)) =
      if torn = toText l then
        .ok (InMemoryInner.empty.replay (ls ++ [l]), Text.bytes (journalText ls ++ torn))
      else .ok (InMemoryInner.empty.replay ls, Text.bytes (journalText ls)) := by
  obtain ⟨heads, hheads, hphys⟩ := law.physLines_journalText ls htorn 0 0
  simp only [openJournal, utf8Decode?_bytes, hphys, law.replayLines_whole hheads]
  by_cases hwhole : torn = toText l
  · subst hwhole
    obtain ⟨rest, hobject⟩ := law.object l
    have hne : toText l ≠ [] := by
      rw [hobject]
      exact List.cons_ne_nil _ _
    simp only [if_neg hne, ↓reduceIte, replayLines, law.roundTrip l,
      InMemoryInner.replay_append, InMemoryInner.replay_cons]
    rfl
  · by_cases hne : torn = []
    · subst hne
      simp only [↓reduceIte, replayLines, if_neg hwhole, List.append_nil]
    · obtain ⟨e, hparse⟩ := law.torn l torn htorn hwhole
      simp only [if_neg hne, if_neg hwhole, replayLines, hparse, List.isEmpty_nil, ↓reduceIte,
        Nat.zero_add, extract_bytes_append]

/-! ## What the bytes hold -/

/-- The bytes hold the lines `ls` and a beginning of the lines `more`; or they hold `ls` but for the
last line feed, and nothing is missing; or they hold `ls` and, of a line that is to be dropped, less
than its text. -/
inductive OnDisk (bytes : ByteArray) (ls more : List JournalLine) : Prop
  | whole (t rest : ByteArray) (split : bytes = Text.bytes (journalText ls) ++ t)
      (torn : t ++ rest = Text.bytes (journalText more))
  | unfed (ls' : List JournalLine) (l : JournalLine) (lines : ls = ls' ++ [l]) (none : more = [])
      (split : bytes = Text.bytes (journalText ls' ++ toText l))
  | short (l : JournalLine) (t rest : ByteArray) (none : more = [])
      (split : bytes = Text.bytes (journalText ls) ++ t)
      (torn : t ++ rest = Text.bytes (toText l)) (missing : 0 < rest.size)

theorem OnDisk.of_whole (ls : List JournalLine) : OnDisk (Text.bytes (journalText ls)) ls [] := by
  refine .whole .empty .empty ?_ ?_
  · rw [ByteArray.append_empty]
  · rfl

variable {bytes : ByteArray}

/-- A file that holds the lines `ls` and decodes holds a beginning of the text that follows them. -/
theorem cut_of_decode {t rest : ByteArray} {text : List Char} {chars : Array Char}
    (split : bytes = Text.bytes (journalText ls) ++ t) (torn : t ++ rest = Text.bytes text)
    (decoded : bytes.utf8Decode? = some chars) :
    ∃ cut, cut <+: text ∧ bytes = Text.bytes (journalText ls ++ cut) ∧ t = Text.bytes cut := by
  have hall : bytes ++ rest = Text.bytes (journalText ls ++ text) := by
    rw [split, ByteArray.append_assoc, torn, bytes_append]
  obtain ⟨hchars, hbytes⟩ := beginning_of_bytes decoded hall
  obtain ⟨cut, hcut⟩ : journalText ls <+: chars.toList :=
    beginning_of_bytes_append t (by rw [← split, hbytes])
  rw [← hcut] at hchars hbytes
  refine ⟨cut, (List.prefix_append_right_inj _).mp hchars, hbytes.symm, ?_⟩
  rw [split, bytes_append] at hbytes
  exact (ByteArray.append_right_inj _).mp hbytes.symm

theorem short_ne {l : JournalLine} {t rest : ByteArray} {cut : List Char}
    (torn : t ++ rest = Text.bytes (toText l)) (missing : 0 < rest.size)
    (held : t = Text.bytes cut) : cut ≠ toText l := by
  rintro rfl
  have hsize := congrArg ByteArray.size torn
  rw [held, ByteArray.size_append] at hsize
  omega

/-- **What opening finds of the bytes**: the lines they hold and some of those they begin, and it
leaves bytes that hold exactly these. -/
theorem OnDisk.openJournal (law : JournalCodec.Lawful) {path : String} {bytes' : ByteArray}
    {more : List JournalLine} {index : InMemoryInner} (h : OnDisk bytes ls more)
    (opened : CorelinkRunners.openJournal path bytes = .ok (index, bytes')) :
    ∃ k, index = InMemoryInner.empty.replay (ls ++ more.take k) ∧
      OnDisk bytes' (ls ++ more.take k) [] := by
  cases h with
  | unfed ls' l hls hmore split =>
    subst hls hmore split
    rw [law.openJournal_torn ls' (List.prefix_refl _), if_pos rfl] at opened
    cases opened
    refine ⟨0, by simp, ?_⟩
    simpa using OnDisk.unfed ls' l rfl rfl rfl
  | short l t rest hmore split torn missing =>
    cases hdecode : bytes.utf8Decode? with
    | none => simp only [CorelinkRunners.openJournal, hdecode, reduceCtorEq] at opened
    | some chars =>
      obtain ⟨cut, hcut, hbytes, held⟩ := cut_of_decode split torn hdecode
      rw [hbytes, law.openJournal_torn ls hcut, if_neg (short_ne torn missing held)] at opened
      cases opened
      refine ⟨0, by simp, ?_⟩
      simpa using OnDisk.of_whole ls
  | whole t rest split torn =>
    -- the file decodes, so it holds the text of `ls` and a beginning of the text of `more`
    cases hdecode : bytes.utf8Decode? with
    | none => simp only [CorelinkRunners.openJournal, hdecode, reduceCtorEq] at opened
    | some chars =>
      obtain ⟨tail, htail, hbytes, -⟩ := cut_of_decode split torn hdecode
      obtain ⟨whole, left, cut, rfl, rfl, hcut⟩ := beginning_of_lines toText htail
      have hfile : bytes = Text.bytes (journalText (ls ++ whole) ++ cut) := by
        rw [hbytes, journalText_append, List.append_assoc]
        rfl
      -- a line torn before its end, or not begun, is dropped
      have dropped : ∀ l, cut <+: toText l → cut ≠ toText l →
          ∃ k, index = InMemoryInner.empty.replay (ls ++ (whole ++ left).take k) ∧
            OnDisk bytes' (ls ++ (whole ++ left).take k) [] := by
        intro l hl hne
        rw [hfile, law.openJournal_torn (ls ++ whole) hl, if_neg hne] at opened
        cases opened
        refine ⟨whole.length, by rw [List.take_left], ?_⟩
        rw [List.take_left]
        exact .of_whole _
      rcases hcut with rfl | ⟨l, left, rfl, hl⟩
      · refine dropped (.tombstone "") List.nil_prefix ?_
        obtain ⟨rest, hobject⟩ := law.object (.tombstone "")
        rw [hobject]
        exact (List.cons_ne_nil _ _).symm
      · by_cases hcut : cut = toText l
        · rw [hfile, law.openJournal_torn (ls ++ whole) hl, if_pos hcut] at opened
          cases opened
          have htake : (whole ++ l :: left).take (whole.length + 1) = whole ++ [l] := by
            rw [List.take_length_add_append]
            rfl
          refine ⟨whole.length + 1, by rw [htake, List.append_assoc], ?_⟩
          rw [htake, ← List.append_assoc]
          exact .unfed (ls ++ whole) l rfl rfl (by rw [hcut])
        · exact dropped l hl hcut

def Terminated (bytes : ByteArray) : Prop :=
  ∃ text : List Char, bytes = Text.bytes text ∧ (text = [] ∨ text.getLast? = some '\n')

theorem OnDisk.bytes_of_terminated (law : JournalCodec.Lawful) (h : OnDisk bytes ls [])
    (terminated : Terminated bytes) : bytes = Text.bytes (journalText ls) := by
  cases h with
  | whole t rest split torn =>
    obtain ⟨ht, -⟩ := ByteArray.append_eq_empty_iff.mp (torn : t ++ rest = ByteArray.empty)
    rw [split, ht, ByteArray.append_empty]
  | unfed ls' l lines none split =>
    -- the last character would be the line's own, and a line has no feed in it
    exfalso
    obtain ⟨text, htext, hlast⟩ := terminated
    obtain rfl := bytes_injective (split.symm.trans htext)
    obtain ⟨rest, hobject⟩ := law.object l
    rcases hlast with hnil | hfeed
    · rw [hobject] at hnil
      exact absurd (List.append_eq_nil_iff.mp hnil).2 (List.cons_ne_nil _ _)
    · rw [hobject, List.getLast?_append_of_ne_nil _ (List.cons_ne_nil _ _), ← hobject] at hfeed
      exact (law.oneLine l).1 (List.mem_of_getLast? hfeed)
  | short l t rest none split torn missing =>
    obtain ⟨text, htext, hlast⟩ := terminated
    have decoded : bytes.utf8Decode? = some text.toArray := by rw [htext, utf8Decode?_bytes]
    obtain ⟨cut, hcut, hbytes, -⟩ := cut_of_decode split torn decoded
    obtain rfl := bytes_injective (htext.symm.trans hbytes)
    rcases hlast with hnil | hfeed
    · rw [hbytes, (List.append_eq_nil_iff.mp hnil).2, List.append_nil]
    · by_cases hempty : cut = []
      · rw [hbytes, hempty, List.append_nil]
      · rw [List.getLast?_append_of_ne_nil _ hempty] at hfeed
        exact absurd (hcut.mem (List.mem_of_getLast? hfeed)) (law.oneLine l).1

variable {out : List JournalLine}

theorem OnDisk.begun (law : JournalCodec.Lawful) (h : OnDisk bytes ls [])
    (clean : out ≠ [] → Terminated bytes) (n : Nat) :
    OnDisk (bytes ++ (Text.bytes (journalText out)).extract 0 n) ls out := by
  by_cases hout : out = []
  · subst hout
    have hnone : (Text.bytes (journalText [])).extract 0 n = ByteArray.empty := by
      rw [ByteArray.extract_eq_empty_iff]
      exact Nat.min_le_right n 0
    rw [hnone, ByteArray.append_empty]
    exact h
  · rw [h.bytes_of_terminated law (clean hout)]
    refine .whole _ ((Text.bytes (journalText out)).extract n (Text.bytes (journalText out)).size)
      rfl ?_
    rw [ByteArray.extract_append_extract, Nat.zero_min, ByteArray.extract_zero_max_size]

theorem OnDisk.written (law : JournalCodec.Lawful) (h : OnDisk bytes ls [])
    (clean : out ≠ [] → Terminated bytes) :
    OnDisk (bytes ++ Text.bytes (journalText out)) (ls ++ out) [] := by
  by_cases hout : out = []
  · subst hout
    have hnone : Text.bytes (journalText []) = ByteArray.empty := rfl
    rw [hnone, ByteArray.append_empty, List.append_nil]
    exact h
  · rw [h.bytes_of_terminated law (clean hout), ← bytes_append, ← journalText_append]
    exact .of_whole _

end Codec

/-! ## What an operation in flight may leave -/

theorem Steps.replay_take {allows : Move → Prop} {s s' : InMemoryInner} {ls : List JournalLine}
    (steps : Steps allows s ls s') (wf : s.WellFormed) (single : ls.length ≤ 1) (k : Nat) :
    s.replay (ls.take k) = s ∨ s.replay (ls.take k) = s' := by
  cases k with
  | zero => exact .inl rfl
  | succ k =>
    right
    rw [List.take_of_length_le (Nat.le_trans single (Nat.succ_le_succ (Nat.zero_le k)))]
    exact steps.replay wf

section Single

variable [SerdeJson]

theorem FileInner.settle_length (s : InMemoryInner) {op : LedgerOp} (single : op.Sweeps = false) :
    (exec s op).settle.2.length ≤ 1 := by
  rcases exec_once s op single with ⟨-, h⟩ | ⟨-, h⟩
  · generalize exec s op = p at h
    cases h with
    | done r => exact Nat.zero_le 1
    | single allowed step r => exact Nat.le_refl 1
  · generalize exec s op = p at h
    cases h with
    | intro allowed step a => exact Nat.le_refl 1

omit [SerdeJson] in
theorem FileInner.claimRows_length (prior : OrdSet String) (rows rest : List LeaseRecord)
    (s : InMemoryInner) : (claimRows prior rows rest s).settle.2.length =
      (rest.filter fun row => !prior.contains row.leaseId).length := by
  induction rest generalizing s with
  | nil => rfl
  | cons row rest ih =>
    rw [List.filter_cons]
    simp only [claimRows]
    split
    · exact congrArg (· + 1) (ih _)
    · exact ih _

/-- The operation journals at most one line: it is not a sweep, or the sweep finds at most one row
that is not claimed yet. -/
def LedgerOp.Single (index : InMemoryInner) : LedgerOp → Prop
  | .claimStalePendingCleanup nowMs maxAgeMs =>
    ((index.candidates nowMs maxAgeMs).filter fun row =>
      !index.pendingCleanupClaims.contains row.leaseId).length ≤ 1
  | _ => True

theorem LedgerOp.Single.replay_take {s : InMemoryInner} (wf : s.WellFormed) {op : LedgerOp}
    (single : op.Single s) (k : Nat) : s.replay ((FileInner.exec s op).settle.2.take k) = s ∨
      s.replay ((FileInner.exec s op).settle.2.take k) = (s.exec op).2 := by
  have steps := InMemoryInner.exec_steps wf op
  refine steps.replay_take wf ?_ k
  cases hsweep : op.Sweeps with
  | false => exact settle_length s hsweep
  | true =>
    cases op with
    | claimStalePendingCleanup nowMs maxAgeMs =>
      simp only [FileInner.exec, FileOp.settle_map, FileInner.claimStalePendingCleanup]
      rw [FileInner.claimRows_length]
      exact single
    | _ => cases hsweep

end Single

/-! ## The machine -/

/-- The journal's bytes, the index of the process in front of them if one is up, and beside them the
index of the acknowledged operations and the operation a crash cut short since. -/
structure Disk where
  bytes : ByteArray
  live : Option InMemoryInner
  acked : InMemoryInner
  inFlight : Option LedgerOp

/-- What happens to the process: a call runs to its end, or is cut short after `n` bytes of its
output; the process stops between calls; the journal is opened again. -/
inductive DiskEvent
  | call (op : LedgerOp)
  | crash (op : LedgerOp) (n : Nat)
  | stop
  | reopen

section Machine

variable [SerdeJson] [JournalCodec]

def outputBytes (index : InMemoryInner) (op : LedgerOp) : ByteArray :=
  Text.bytes (journalText (FileInner.exec index op).settle.2)

namespace Disk

def initial : Disk := ⟨.empty, some .empty, .empty, none⟩

def step (path : String) (d : Disk) : DiskEvent → Disk
  | .call op =>
    match d.live with
    | none => d
    | some index =>
      ⟨d.bytes ++ outputBytes index op, some (FileInner.exec index op).settle.1.2,
        (d.acked.exec op).2, none⟩
  | .crash op n =>
    match d.live with
    | none => d
    | some index => ⟨d.bytes ++ (outputBytes index op).extract 0 n, none, d.acked, some op⟩
  | .stop => { d with live := none }
  | .reopen =>
    match openJournal path d.bytes with
    | .ok (index, bytes) => ⟨bytes, some index, index, none⟩
    | .error _ => { d with live := none }

/-- The acknowledged operations, and possibly the one in flight. -/
def Shows (d : Disk) (index : InMemoryInner) : Prop :=
  index = d.acked ∨ ∃ op, d.inFlight = some op ∧ index = (d.acked.exec op).2

end Disk

/-- The event appends nothing behind a line that lacks its line feed. -/
def DiskEvent.Clean (d : Disk) : DiskEvent → Prop
  | .call op | .crash op _ => ∀ index, d.live = some index →
      (FileInner.exec index op).settle.2 ≠ [] → Terminated d.bytes
  | .stop => True
  | .reopen => True

def DiskEvent.CutsSingle (d : Disk) : DiskEvent → Prop
  | .crash op _ => ∀ index, d.live = some index → op.Single index
  | _ => True

/-! ## Durability -/

/-- What every clean run keeps. The bytes hold the lines `ls`, which replay to the index of the
acknowledged operations, and a beginning of the lines `more` of an operation in flight; every cut of
those between two lines may be shown. -/
structure Disk.Sound (d : Disk) (ls more : List JournalLine) : Prop where
  onDisk : OnDisk d.bytes ls more
  acked : InMemoryInner.empty.replay ls = d.acked
  wellFormed : d.acked.WellFormed
  chain : ∃ s, Steps (fun _ => True) d.acked more s
  live : ∀ index, d.live = some index → index = d.acked ∧ more = []
  shown : ∀ k, d.Shows (d.acked.replay (more.take k))

namespace Disk.Sound

variable {d : Disk} {ls more : List JournalLine} {path : String}

theorem initial : Disk.initial.Sound [] [] := by
  refine ⟨.of_whole [], rfl, InMemoryInner.empty_wellFormed, ⟨_, .nil⟩, ?_, ?_⟩
  · rintro index ⟨⟩
    exact ⟨rfl, rfl⟩
  · intro k
    rw [List.take_nil]
    exact .inl rfl

theorem reopen (law : JournalCodec.Lawful) (h : d.Sound ls more) {index : InMemoryInner}
    {bytes : ByteArray} (opened : openJournal path d.bytes = .ok (index, bytes)) :
    d.Shows index ∧ ∃ ls', Disk.Sound ⟨bytes, some index, index, none⟩ ls' [] := by
  obtain ⟨k, rfl, onDisk⟩ := h.onDisk.openJournal law opened
  obtain ⟨s, chain⟩ := h.chain
  obtain ⟨s', cut⟩ := chain.take k
  have hreplay : InMemoryInner.empty.replay (ls ++ more.take k) = d.acked.replay (more.take k) := by
    rw [InMemoryInner.replay_append, h.acked]
  refine ⟨?_, ls ++ more.take k, onDisk, rfl, ?_, ⟨_, .nil⟩, ?_, ?_⟩
  · rw [hreplay]
    exact h.shown k
  · show (InMemoryInner.empty.replay (ls ++ more.take k)).WellFormed
    rw [hreplay, cut.replay h.wellFormed]
    exact cut.wellFormed h.wellFormed
  · rintro index ⟨⟩
    exact ⟨rfl, rfl⟩
  · intro k'
    rw [List.take_nil]
    exact .inl rfl

theorem call (law : JournalCodec.Lawful) (h : d.Sound ls more) {op : LedgerOp}
    (up : d.live = some d.acked)
    (clean : (FileInner.exec d.acked op).settle.2 ≠ [] → Terminated d.bytes) :
    ∃ ls', Disk.Sound ⟨d.bytes ++ outputBytes d.acked op,
      some (FileInner.exec d.acked op).settle.1.2, (d.acked.exec op).2, none⟩ ls' [] := by
  obtain ⟨-, rfl⟩ := h.live _ up
  have steps := settle_steps h.wellFormed op
  have settled : (exec d.acked op).settle.1.2 = (d.acked.exec op).2 := by
    rw [settle_exec h.wellFormed]
  refine ⟨ls ++ (exec d.acked op).settle.2, h.onDisk.written law clean, ?_, ?_, ⟨_, .nil⟩,
    ?_, ?_⟩
  · show _ = (d.acked.exec op).2
    rw [InMemoryInner.replay_append, h.acked, ← settled]
    exact steps.replay h.wellFormed
  · show ((d.acked.exec op).2).WellFormed
    rw [← settled]
    exact steps.wellFormed h.wellFormed
  · rintro index ⟨⟩
    exact ⟨settled, rfl⟩
  · intro k
    rw [List.take_nil]
    exact .inl rfl

theorem crash (law : JournalCodec.Lawful) (h : d.Sound ls more) {op : LedgerOp}
    (up : d.live = some d.acked)
    (clean : (FileInner.exec d.acked op).settle.2 ≠ [] → Terminated d.bytes)
    (single : op.Single d.acked) (n : Nat) :
    Disk.Sound ⟨d.bytes ++ (outputBytes d.acked op).extract 0 n, none, d.acked, some op⟩ ls
      (FileInner.exec d.acked op).settle.2 := by
  obtain ⟨-, rfl⟩ := h.live _ up
  have steps := settle_steps h.wellFormed op
  refine ⟨h.onDisk.begun law clean n, h.acked, h.wellFormed, ⟨_, steps.mono fun _ _ => trivial⟩,
    nofun, fun k => ?_⟩
  rcases single.replay_take h.wellFormed k with heq | heq
  · exact .inl heq
  · exact .inr ⟨op, rfl, heq⟩

theorem stop (h : d.Sound ls more) : Disk.Sound { d with live := none } ls more :=
  ⟨h.onDisk, h.acked, h.wellFormed, h.chain, nofun, h.shown⟩

/-- **Every clean event that cuts no sweep short keeps the bytes sound.** -/
theorem step (law : JournalCodec.Lawful) (h : d.Sound ls more) {event : DiskEvent}
    (clean : event.Clean d) (cuts : event.CutsSingle d) :
    ∃ ls' more', (d.step path event).Sound ls' more' := by
  cases event with
  | call op =>
    cases up : d.live with
    | none =>
      simp only [Disk.step, up]
      exact ⟨ls, more, h⟩
    | some index =>
      obtain ⟨rfl, -⟩ := h.live index up
      obtain ⟨ls', h'⟩ := h.call law up (clean _ up)
      simp only [Disk.step, up]
      exact ⟨ls', [], h'⟩
  | crash op n =>
    cases up : d.live with
    | none =>
      simp only [Disk.step, up]
      exact ⟨ls, more, h⟩
    | some index =>
      obtain ⟨rfl, -⟩ := h.live index up
      have h' := h.crash law up (clean _ up) (cuts _ up) n
      simp only [Disk.step, up]
      exact ⟨ls, _, h'⟩
  | stop => exact ⟨ls, more, h.stop⟩
  | reopen =>
    cases opened : openJournal path d.bytes with
    | error e =>
      simp only [Disk.step, opened]
      exact ⟨ls, more, h.stop⟩
    | ok answer =>
      obtain ⟨index, bytes⟩ := answer
      obtain ⟨-, ls', h'⟩ := h.reopen law opened
      simp only [Disk.step, opened]
      exact ⟨ls', [], h'⟩

end Disk.Sound

variable (path : String) (events : List DiskEvent)

/-- **Journal durability.** In every run that appends nothing behind a line without its line feed
and cuts no sweep of several leases short, whatever the crash points and however often the journal
is opened again, opening it shows exactly the acknowledged operations, and possibly the one in
flight. -/
theorem journal_durable (law : JournalCodec.Lawful)
    (clean : Along (Disk.step path) (fun d event => event.Clean d ∧ event.CutsSingle d) .initial
      events) (index : InMemoryInner) (bytes : ByteArray)
    (opened : openJournal path (events.foldl (Disk.step path) .initial).bytes =
      .ok (index, bytes)) : (events.foldl (Disk.step path) .initial).Shows index := by
  obtain ⟨ls, more, sound⟩ := clean.invariant (fun d => ∃ ls more, d.Sound ls more)
    (fun ⟨_, _, sound⟩ ⟨clean, cuts⟩ => sound.step law clean cuts) ⟨[], [], .initial⟩
  exact (sound.reopen law opened).1

end Machine

section Json

attribute [local instance] refuseJson jsonCodec

theorem terminated_journalText (ls : List JournalLine) :
    Terminated (Text.bytes (journalText ls)) := by
  refine ⟨_, rfl, ?_⟩
  induction ls using List.reverseRecOn with
  | nil => exact .inl rfl
  | append_singleton ls l _ =>
    right
    simp [journalText]

theorem outputBytes_put {s : InMemoryInner} {rec : LeaseRecord}
    (fresh : s.records.contains rec.leaseId = false) :
    outputBytes s (.put rec) = Text.bytes (toText (.record rec) ++ ['\n']) := by
  unfold outputBytes
  simp only [exec, FileOp.settle_map, put, fresh, Bool.false_eq_true, ↓reduceIte,
    appendLine, journalText, Appending.settle, List.flatMap_cons, List.flatMap_nil,
    List.append_nil]

def indexOne : InMemoryInner := (InMemoryInner.empty.exec (.put (acmeLease "l1"))).2

/-- A put is acknowledged, and the next one is cut after its first byte. -/
def tornPut : List DiskEvent :=
  [.call (.put (acmeLease "l1")), .crash (.put (acmeLease "l2")) 1]

theorem journal_durable_tornPut :
    (tornPut.foldl (Disk.step "ledger.jsonl") .initial).Shows indexOne := by
  have hone : utf8Len ['\x7b'] = 1 := by decide
  have hl1 : outputBytes .empty (.put (acmeLease "l1")) =
      bytes (journalText [.record (acmeLease "l1")]) := by
    rw [outputBytes_put (by decide)]
    simp [journalText]
  obtain ⟨rest, hrest⟩ := jsonCodec_lawful.object (.record (acmeLease "l2"))
  have hl2 : (outputBytes (exec .empty (.put (acmeLease "l1"))).settle.1.2
      (.put (acmeLease "l2"))).extract 0 1 = bytes ['\x7b'] := by
    have hcut := extract_bytes_append ['\x7b'] (rest ++ ['\n'])
    rw [outputBytes_put (by decide), hrest]
    rwa [hone] at hcut
  have hbytes : (tornPut.foldl (Disk.step "ledger.jsonl") .initial).bytes =
      bytes (journalText [.record (acmeLease "l1")] ++ ['\x7b']) := by
    simp only [tornPut, List.foldl_cons, List.foldl_nil, Disk.step, Disk.initial, hl1, hl2,
      ByteArray.empty_append, bytes_append]
  have htorn : ['\x7b'] <+: toText (.record (acmeLease "l2")) := ⟨rest, hrest.symm⟩
  have hopen : openJournal "ledger.jsonl" _ = _ :=
    jsonCodec_lawful.openJournal_torn [.record (acmeLease "l1")] htorn
  rw [← hbytes, if_neg (by decide)] at hopen
  refine journal_durable "ledger.jsonl" tornPut jsonCodec_lawful ⟨⟨?_, trivial⟩, ⟨?_, ?_⟩, trivial⟩
    indexOne _ hopen
  · rintro index - -
    exact terminated_journalText []
  · rintro index - -
    simp only [Disk.step, Disk.initial, hl1, ByteArray.empty_append]
    exact terminated_journalText _
  · rintro index -
    exact trivial

/-- A line whose line feed is cut off, and a line glued to it: the first opening shows the one, the
second opening shows neither. -/
theorem openJournal_glued (path : String) (l l' : JournalLine) :
    openJournal path (Text.bytes (toText l ++ toText l' ++ ['\n'])) =
      .ok (.empty, .empty) := by
  obtain ⟨e, hparse⟩ := jsonCodec_glued l l'
  obtain ⟨rest, hobject⟩ := jsonCodec_lawful.object l
  have hfeed : '\n' ∉ toText l ++ toText l' := by
    simp [(jsonCodec_lawful.oneLine l).1, (jsonCodec_lawful.oneLine l').1]
  have hreturn : '\r' ∉ toText l ++ toText l' := by
    simp [(jsonCodec_lawful.oneLine l).2, (jsonCodec_lawful.oneLine l').2]
  have hblank : isBlank (toText l ++ toText l') = false := by
    rw [hobject]
    rfl
  have hlines : lines (toText l ++ toText l' ++ ['\n']) =
      [toText l ++ toText l'] := lines_line hfeed hreturn []
  simp only [openJournal, utf8Decode?_bytes, hlines, physLines, hblank, Bool.false_eq_true,
    ↓reduceIte, replayLines, hparse, List.isEmpty_nil]
  rw [show (bytes _).extract 0 0 = ByteArray.empty from ByteArray.extract_eq_empty_iff.mpr
    (by simp)]

/-- A put is cut between its line and the line feed, the journal is opened again, and the next put
is acknowledged. -/
def gluedPut : List DiskEvent :=
  [.crash (.put (acmeLease "l1"))
      (Text.utf8Len (toText (.record (acmeLease "l1")))),
    .reopen, .call (.put (acmeLease "l2")), .stop]

theorem gluedPut_run : gluedPut.foldl (Disk.step "ledger.jsonl") .initial =
    ⟨Text.bytes (toText (.record (acmeLease "l1")) ++
      toText (.record (acmeLease "l2")) ++ ['\n']), none,
      (indexOne.exec (.put (acmeLease "l2"))).2, none⟩ := by
  have hcut : (outputBytes .empty (.put (acmeLease "l1"))).extract 0
      (utf8Len (toText (.record (acmeLease "l1")))) =
      bytes (toText (.record (acmeLease "l1"))) := by
    rw [outputBytes_put (by decide), extract_bytes_append]
  have hopen : openJournal "ledger.jsonl"
      (bytes (toText (.record (acmeLease "l1")))) =
        .ok (indexOne, bytes (toText (.record (acmeLease "l1")))) := by
    have h : openJournal "ledger.jsonl" _ = _ :=
      jsonCodec_lawful.openJournal_torn [] (List.prefix_refl
        (toText (.record (acmeLease "l1"))))
    rw [if_pos rfl] at h
    exact h
  have hnext : outputBytes indexOne (.put (acmeLease "l2")) =
      bytes (toText (.record (acmeLease "l2")) ++ ['\n']) :=
    outputBytes_put (by decide)
  simp only [gluedPut, List.foldl_cons, List.foldl_nil, Disk.step, Disk.initial, hcut,
    ByteArray.empty_append, hopen, hnext, List.append_assoc, bytes_append]

/-- **The acknowledged put is lost**: the next opening shows an empty ledger. -/
theorem gluedPut_not_durable :
    openJournal "ledger.jsonl" (gluedPut.foldl (Disk.step "ledger.jsonl") .initial).bytes =
      .ok (.empty, .empty) ∧
    ¬ (gluedPut.foldl (Disk.step "ledger.jsonl") .initial).Shows .empty := by
  constructor
  · have hbytes : (gluedPut.foldl (Disk.step "ledger.jsonl") .initial).bytes =
        bytes (toText (.record (acmeLease "l1")) ++
          toText (.record (acmeLease "l2")) ++ ['\n']) := by
      rw [gluedPut_run]
    rw [hbytes, openJournal_glued]
  · rw [gluedPut_run]
    rintro (hempty | ⟨op, hnone, -⟩)
    · have hheld : (indexOne.exec (.put (acmeLease "l2"))).2.records.contains "l2" = true := by
        decide
      have hnone := congrArg (fun s : InMemoryInner => s.records.contains "l2") hempty
      exact absurd (hnone.trans hheld) (by decide)
    · nomatch hnone

end Json

end CorelinkRunners
