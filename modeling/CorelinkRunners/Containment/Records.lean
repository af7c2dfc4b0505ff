import CorelinkRunners.Kit.Table

/-!
# The records of the containment authority

The records that `ContainmentDO` keeps in its storage, the identity of a job, and the checks a
record has to pass when it is read back (`containment_authority_helpers.ts`,
`containment_authority_records.ts`).

A record that is written with `schema_version: 1` and read back as that type has that version, so
the field is left out. Clock readings are integers and therefore finite.
-/

namespace CorelinkRunners.Containment

open Kit

def maxSafeInteger : Nat := 2 ^ 53 - 1

def drainLeaseTtlMs : Int := 120000
def drainRenewThresholdMs : Int := 30000
def redriveReservationTtlMs : Int := 120000
def maxActiveIndexEvents : Nat := 256

/-! ## The identity of a job -/

def isTrimmed (c : Char) : Bool := (9 ≤ c.toNat && c.toNat ≤ 13) || c.toNat == 32

def trimAscii (value : String) : String :=
  .ofList ((value.toList.dropWhile isTrimmed).reverse.dropWhile isTrimmed).reverse

/-- Lower case, as far as a repository name can show it: of the letters outside ASCII only the
Kelvin sign has a lower case inside it. -/
def lowerChar (c : Char) : Char := if c = '\u212A' then 'k' else c.toLower

def toLowerCase (value : String) : String := .ofList (value.toList.map lowerChar)

def isNameChar (c : Char) : Bool := c.isAlphanum || c == '_' || c == '.' || c == '-'

def isName (name : List Char) : Bool :=
  match name.head?, name.getLast? with
  | some first, some last => first.isAlphanum && last.isAlphanum && name.all isNameChar
  | _, _ => false

def isRepository (repo : String) : Bool :=
  match repo.toList.splitOn '/' with
  | [owner, name] => isName owner && isName name
  | _ => false

def decimalValue (digits : List Char) : Nat :=
  digits.foldl (fun n c => 10 * n + (c.toNat - '0'.toNat)) 0

/-- A positive decimal without a leading zero that a JavaScript number holds exactly. Such a decimal
is its own canonical text, so `canonicalSafeJobId` answers it unchanged. -/
def isSafeJobId (jobId : String) : Bool :=
  match jobId.toList with
  | [] => false
  | first :: rest =>
    first.isDigit && first != '0' && rest.all Char.isDigit &&
      decide (decimalValue (first :: rest) ≤ maxSafeInteger)

structure JobKey where
  repo : String
  jobId : String
  repository : isRepository repo = true
  lower : toLowerCase repo = repo
  safe : isSafeJobId jobId = true
  deriving DecidableEq

theorem lowerChar_idem (c : Char) : lowerChar (lowerChar c) = lowerChar c := by
  unfold lowerChar
  split
  · rfl
  next other =>
    have still : c.toLower ≠ '\u212A' := by
      unfold Char.toLower
      split
      next upper =>
        intro kelvin
        have value : (c.val + 32).toNat = 8490 := congrArg (fun c => c.val.toNat) kelvin
        have bound : c.val.toNat ≤ 90 := upper.2
        rw [UInt32.toNat_add] at value
        change (c.val.toNat + 32) % 2 ^ 32 = 8490 at value
        omega
      · exact other
    rw [if_neg still, Char.toLower_toLower_eq_toLower]

theorem toLowerCase_idem (value : String) :
    toLowerCase (toLowerCase value) = toLowerCase value := by
  simp only [toLowerCase, String.toList_ofList, List.map_map]
  congr 1
  exact List.map_congr_left fun c _ => lowerChar_idem c

def normalizeRedriveIdentity (repo jobId : String) : Option JobKey :=
  if h : isRepository (toLowerCase (trimAscii repo)) = true ∧ isSafeJobId jobId = true then
    some ⟨toLowerCase (trimAscii repo), jobId, h.1, toLowerCase_idem _, h.2⟩
  else none

theorem isTrimmed_of_isNameChar {c : Char} (h : isNameChar c = true) : isTrimmed c = false := by
  simp only [isNameChar, Char.isAlphanum, Char.isAlpha, Char.isUpper, Char.isLower, Char.isDigit,
    Bool.or_eq_true, Bool.and_eq_true, decide_eq_true_eq, beq_iff_eq] at h
  simp only [isTrimmed, Bool.or_eq_false_iff, Bool.and_eq_false_iff, decide_eq_false_iff_not,
    beq_eq_false_iff_ne, ne_eq]
  have outside (low high : Nat) (first : 32 < low) (range : low ≤ c.toNat ∧ c.toNat ≤ high) :
      (¬9 ≤ c.toNat ∨ ¬c.toNat ≤ 13) ∧ ¬c.toNat = 32 := by omega
  rcases h with (((((upper | lower) | digit) | rfl) | rfl) | rfl)
  · exact outside 65 90 (by decide) upper
  · exact outside 97 122 (by decide) lower
  · exact outside 48 57 (by decide) digit
  · decide
  · decide
  · decide

theorem isName_chars {name : List Char} (h : isName name = true) : ∀ c ∈ name,
    isNameChar c = true := by
  unfold isName at h
  split at h
  · simp only [Bool.and_eq_true] at h
    exact List.all_eq_true.mp h.2
  · nomatch h

theorem isRepository_untrimmed {repo : String} (h : isRepository repo = true) :
    ∀ c ∈ repo.toList, isTrimmed c = false := by
  unfold isRepository at h
  split at h
  next owner name parts =>
    simp only [Bool.and_eq_true] at h
    intro c member
    have whole : ['/'].intercalate (repo.toList.splitOn '/') = repo.toList :=
      List.intercalate_splitOn '/'
    rw [← whole, parts] at member
    simp only [List.intercalate, List.intersperse, List.flatten_cons, List.flatten_nil,
      List.append_nil, List.mem_append, List.mem_singleton] at member
    rcases member with first | slash | last
    · exact isTrimmed_of_isNameChar (isName_chars h.1 c first)
    · subst slash
      decide
    · exact isTrimmed_of_isNameChar (isName_chars h.2 c last)
  · nomatch h

theorem dropWhile_of_none {p : Char → Bool} {cs : List Char} (h : ∀ c ∈ cs, p c = false) :
    cs.dropWhile p = cs := by
  cases cs with
  | nil => rfl
  | cons c cs => rw [List.dropWhile_cons, h c List.mem_cons_self, if_neg Bool.false_ne_true]

theorem trimAscii_of_untrimmed {value : String} (h : ∀ c ∈ value.toList, isTrimmed c = false) :
    trimAscii value = value := by
  unfold trimAscii
  rw [dropWhile_of_none h, dropWhile_of_none fun c member => h c (List.mem_reverse.mp member),
    List.reverse_reverse, String.ofList_toList]

theorem JobKey.normalize (job : JobKey) : normalizeRedriveIdentity job.repo job.jobId =
    some job := by
  have same : toLowerCase (trimAscii job.repo) = job.repo := by
    rw [trimAscii_of_untrimmed (isRepository_untrimmed job.repository), job.lower]
  unfold normalizeRedriveIdentity
  rw [dif_pos ⟨by rw [same]; exact job.repository, job.safe⟩]
  obtain ⟨repo, jobId, _, _, _⟩ := job
  simp only [same]

/-! ## Records -/

structure DrainLease where
  owner : String
  epoch : Nat
  expiresMs : Int
  deriving DecidableEq

structure ContainmentMeta where
  nextPauseSeq : Nat := 1
  drainCursor : Nat := 0
  backlogCount : Nat := 0
  leaseEpoch : Nat := 0
  lease : Option DrainLease := none
  drainRequested : Bool := false

def emptyContainmentMeta : ContainmentMeta := {}

inductive ContainmentState
  | queued
  | claimed
  | effectCommitted
  deriving DecidableEq

structure EventClaim where
  owner : String
  leaseEpoch : Nat
  deriving DecidableEq

structure EventPermit where
  permitId : String
  issuedToOwner : String
  issuedToEpoch : Nat
  deriving DecidableEq

structure IncomingEvent where
  eventId : String
  receivedAtMs : Int
  bodySha256 : String
  rawPayload : String
  action : String
  jobId : String
  repo : String
  installationId : String
  labels : List String
  effectId : String

structure ContainmentEvent where
  eventId : String
  pauseSeq : Nat
  receivedAtMs : Int
  bodySha256 : String
  rawPayload : String
  action : String
  job : JobKey
  installationId : String
  labels : List String
  effectId : String
  state : ContainmentState
  claim : Option EventClaim
  effectPermit : Option EventPermit
  deriving DecidableEq

structure ContainmentPause where
  eventId : String
  pauseSeq : Nat

structure ContainmentJobIndex where
  job : JobKey
  activeEventIds : List String
  activeCount : Nat
  updatedAtMs : Int

structure ContainmentJobIndexMarker where
  job : JobKey
  bootstrappedAtMs : Int

def isValidJobIndex (index : ContainmentJobIndex) (job : JobKey) : Bool :=
  decide (index.job = job) && decide (index.activeEventIds.length ≤ maxActiveIndexEvents) &&
    index.activeCount == index.activeEventIds.length && decide index.activeEventIds.Nodup &&
    index.activeEventIds.all fun id => id != ""

def isValidJobIndexMarker (marker : ContainmentJobIndexMarker) (job : JobKey) : Bool :=
  decide (marker.job = job)

inductive ReservationState
  | held
  | effectEligible
  | completed
  deriving DecidableEq

/-- A redrive owns a job. Its path is always `redrive`. -/
structure RedriveReservation where
  job : JobKey
  owner : String
  token : String
  epoch : Nat
  state : ReservationState
  expiresMs : Int
  eventId : Option String
  effectId : String
  completionObserved : Bool
  deriving DecidableEq

structure RedrivePermit where
  job : JobKey
  owner : String
  token : String
  epoch : Nat
  effectId : String

def redriveEffectId (job : JobKey) : String :=
  "containment:v1:redrive:" ++ job.repo ++ "/" ++ job.jobId

def reservationPermit (reservation : RedriveReservation) : RedrivePermit where
  job := reservation.job
  owner := reservation.owner
  token := reservation.token
  epoch := reservation.epoch
  effectId := reservation.effectId

def reservationTupleMatches (reservation : RedriveReservation) (job : JobKey)
    (owner token : String) (epoch : Nat) (effectId : String) : Bool :=
  decide (reservation.job = job) && reservation.owner == owner && reservation.token == token &&
    reservation.epoch == epoch && reservation.effectId == effectId

def leaseMatches (head : ContainmentMeta) (owner : String) (epoch : Nat) (now : Int) : Bool :=
  match head.lease with
  | some lease => lease.owner == owner && lease.epoch == epoch && decide (now < lease.expiresMs)
  | none => false

def isCurrentHead (head : ContainmentMeta) (event : ContainmentEvent) : Bool :=
  event.pauseSeq == head.drainCursor + 1

def claimedBy (event : ContainmentEvent) (owner : String) (epoch : Nat) : Bool :=
  event.claim == some ⟨owner, epoch⟩

/-! ## The evidence of an effect -/

inductive WitnessKind
  | spawnClaim
  | attempt
  | placement
  | lease
  | result
  deriving DecidableEq

/-- A witness of an effect, as it is kept outside the storage of the authority. -/
structure EffectEvidence where
  kind : WitnessKind
  effectId : String
  eventId : String
  jobId : String
  permitId : String
  sourceKey : String
  sourceValue : String
  sourceSha256 : String
  delivered : Bool
  attemptCount : Option Nat

/-- What the runtime supplies: `JSON.parse` and `JSON.stringify` of the texts involved, and SHA-256
in hexadecimal. -/
structure Runtime where
  sha256Hex : String → String
  parseEvidence : String → Option EffectEvidence
  canonicalEvidence : EffectEvidence → String
  /-- The runner name, runner id and attempt in the source of an attempt. -/
  parseAttempt : String → Option (String × Int × Nat)
  attemptText : String → Int → Nat → String
  /-- The effect id in the source of a placement that stringifies to itself and has a finite
  time. -/
  placementEffect : String → Option String
  resultText : Nat → String → String → String → String → String
  digestText : List String → String

variable (rt : Runtime)

/-- One witness of the event: it is canonical, it names the event and its permit, and its digest is
that of its source. -/
def witnessOf (event : ContainmentEvent) (permit : EventPermit) (kind : WitnessKind)
    (raw : Option String) : Option EffectEvidence :=
  match raw with
  | none => none
  | some text =>
    match rt.parseEvidence text with
    | none => none
    | some witness =>
      if rt.canonicalEvidence witness = text ∧ witness.kind = kind ∧
          witness.effectId = event.effectId ∧ witness.eventId = event.eventId ∧
          witness.jobId = event.job.jobId ∧ witness.permitId = permit.permitId ∧
          witness.sourceSha256 = rt.sha256Hex witness.sourceValue then some witness
      else none

/-- The source keys of the five witnesses. -/
def sourceKeysMatch (event : ContainmentEvent)
    (claim attempt placement lease result : EffectEvidence) :
    Bool :=
  claim.sourceKey == "spawn:" ++ event.job.jobId &&
    attempt.sourceKey == "github:generate-jitconfig" &&
    placement.sourceKey == "orphan:" ++ event.job.jobId &&
    lease.sourceKey == "jhandle:" ++ event.job.jobId && result.sourceKey == "result"

/-- The sources agree with each other: one positive attempt that ended in a delivery, by a named
runner, placed for this effect, with a result that names the digests of the others. -/
def sourcesAgree (event : ContainmentEvent)
    (claim attempt placement lease result : EffectEvidence) :
    Bool :=
  match attempt.attemptCount with
  | none => false
  | some count =>
    decide (1 ≤ count) && result.delivered && result.attemptCount == some count &&
      claim.sourceValue.toList.all Char.isDigit && claim.sourceValue != "" &&
      lease.sourceValue != "" &&
      (match rt.parseAttempt attempt.sourceValue with
        | none => false
        | some (name, runnerId, n) =>
          name != "" && n == count && rt.attemptText name runnerId n == attempt.sourceValue) &&
      rt.placementEffect placement.sourceValue == some event.effectId &&
      result.sourceValue == rt.resultText count claim.sourceSha256 attempt.sourceSha256
        placement.sourceSha256 lease.sourceSha256

def validatedEffectProof (event : ContainmentEvent) (kv : WitnessKind → Option String) :
    Option String :=
  match event.effectPermit with
  | none => none
  | some permit =>
    let read (kind : WitnessKind) := witnessOf rt event permit kind (kv kind)
    match read .spawnClaim, read .attempt, read .placement, read .lease, read .result with
    | some claim, some attempt, some placement, some lease, some result =>
      if sourceKeysMatch event claim attempt placement lease result &&
          sourcesAgree rt event claim attempt placement lease result then
        some (rt.sha256Hex (rt.digestText
          ([claim, attempt, placement, lease, result].map rt.canonicalEvidence)))
      else none
    | _, _, _, _, _ => none

/-- **A proof takes all five witnesses**: each is stored in its canonical text, and names the event
and its permit. -/
theorem validatedEffectProof_witnesses {event : ContainmentEvent} {kv : WitnessKind → Option String}
    {digest : String} (proved : validatedEffectProof rt event kv = some digest) :
    ∃ permit, event.effectPermit = some permit ∧ ∀ kind, ∃ witness : EffectEvidence,
      kv kind = some (rt.canonicalEvidence witness) ∧ witness.kind = kind ∧
      witness.effectId = event.effectId ∧ witness.eventId = event.eventId ∧
      witness.jobId = event.job.jobId ∧ witness.permitId = permit.permitId := by
  unfold validatedEffectProof at proved
  have each {permit : EventPermit} {kind : WitnessKind} {witness : EffectEvidence}
      (h : witnessOf rt event permit kind (kv kind) = some witness) :
      kv kind = some (rt.canonicalEvidence witness) ∧ witness.kind = kind ∧
      witness.effectId = event.effectId ∧ witness.eventId = event.eventId ∧
      witness.jobId = event.job.jobId ∧ witness.permitId = permit.permitId := by
    unfold witnessOf at h
    cases stored : kv kind with
    | none =>
      rw [stored] at h
      nomatch h
    | some text =>
      rw [stored] at h
      dsimp only at h
      cases parsed : rt.parseEvidence text with
      | none =>
        rw [parsed] at h
        nomatch h
      | some found =>
        rw [parsed] at h
        dsimp only at h
        split at h
        next ok =>
          cases h
          obtain ⟨text_eq, sameKind, effect, event, job, permit, -⟩ := ok
          exact ⟨congrArg some text_eq.symm, sameKind, effect, event, job, permit⟩
        · nomatch h
  split at proved
  · nomatch proved
  next permit issued =>
    refine ⟨permit, issued, ?_⟩
    dsimp only at proved
    split at proved
    next claim attempt placement lease result claimed attempted placed leased delivered =>
      intro kind
      cases kind with
      | spawnClaim => exact ⟨claim, each claimed⟩
      | attempt => exact ⟨attempt, each attempted⟩
      | placement => exact ⟨placement, each placed⟩
      | lease => exact ⟨lease, each leased⟩
      | result => exact ⟨result, each delivered⟩
    · nomatch proved

end CorelinkRunners.Containment
