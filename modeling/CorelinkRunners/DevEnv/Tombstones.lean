import CorelinkRunners.Kit.Run

/-!
# The tombstones of authorized stops

`stopAuthorizedDevenv` writes a tombstone for the session it cancels and lists it in an index;
`expireAuthorizedStop` and the pruning of the index remove both again. They are separate writes, and
every call checks that they match, so it matters where a restart or a failing write cuts a call.

Cut between a tombstone and the index, the index lists a tombstone that is gone, and once the entry
has expired no stop gets past the check (`stop_locked_out`).
-/

namespace CorelinkRunners.DevEnv

open Kit

/-! ## The storage -/

def isUuid (text : String) : Bool :=
  let mask := "xxxxxxxx-xxxx-xxxx-xxxx-xxxxxxxxxxxx"
  text.length = mask.length && (mask.toList.zip text.toList).all fun (m, c) =>
    if m = '-' then c = '-' else c.isDigit || ('a' ≤ c && c ≤ 'f') || ('A' ≤ c && c ≤ 'F')

def isIdentity (text : String) : Bool := isUuid text &&
    text ≠ "00000000-0000-0000-0000-000000000000"

/-- What `requireAuthorizedStopKey` accepts. It stands for its key, which is made of the two texts
and from which `validateStopTombstoneIndex` reads them back. -/
structure StopIdentity where
  tenantId : String
  sessionUuid : String
  tenant_valid : isIdentity tenantId = true
  session_valid : isIdentity sessionUuid = true
deriving DecidableEq

structure Tombstone where
  canceledAt : Nat
  expiresAt : Nat

structure Entry where
  key : StopIdentity
  canceledAt : Nat
  expiresAt : Nat
deriving DecidableEq

/-- A pending call of `expireAuthorizedStop`. -/
structure Payload where
  key : StopIdentity
  canceledAt : Nat
deriving DecidableEq

structure Storage where
  tombstone : StopIdentity → Option Tombstone := fun _ => none
  /-- No entries is no index. -/
  index : List Entry := []
  scheduled : List Payload := []

inductive Write
  | put (key : StopIdentity) (tombstone : Tombstone)
  | delete (key : StopIdentity)
  | putIndex (index : List Entry)
  | schedule (payload : Payload)

def Storage.apply (s : Storage) : Write → Storage
  | .put key tombstone => { s with tombstone := Function.update s.tombstone key (some tombstone) }
  | .delete key => { s with tombstone := Function.update s.tombstone key none }
  | .putIndex index => { s with index }
  | .schedule payload => { s with scheduled := s.scheduled ++ [payload] }

def Storage.applyAll (s : Storage) (writes : List Write) : Storage := writes.foldl Storage.apply s

/-! ## The calls -/

inductive StopError
  /-- `DEVENV_AUTHORIZED_STOP_INDEX_CORRUPT` -/
  | indexCorrupt
  /-- `DEVENV_AUTHORIZED_STOP_CAPACITY` -/
  | capacity
deriving DecidableEq

def authorizedStopTtlMs : Nat := 8 * 3600 * 1000 + 3600 * 1000

def maxAuthorizedStopTombstones : Nat := 64

def maxTimeMs : Nat := 8640000000000000

def isSafeInteger (n : Nat) : Bool := n ≤ 9007199254740991

/-- The times are in range; that the keys are valid is in `StopIdentity`. -/
def validateStopTombstoneIndex (index : List Entry) : Bool :=
  index.all fun entry => isSafeInteger entry.canceledAt && isSafeInteger entry.expiresAt

/-- What a call writes, in the order of its stages, and how it fails if nothing cuts it. All it
reads it reads before. -/
structure Plan where
  expired : List Write := []
  pruned : List Write := []
  tombstone : List Write := []
  index : List Write := []
  scheduled : List Payload := []
  error : Option StopError := none

def Storage.live (s : Storage) (nowMs : Nat) : List Entry :=
  s.index.filter fun entry => nowMs < entry.expiresAt

def Storage.expired (s : Storage) (nowMs : Nat) : List Entry :=
  s.index.filter fun entry => entry ∉ s.live nowMs

def Storage.prune (s : Storage) (nowMs : Nat) : Plan where
  expired := (s.expired nowMs).map fun entry => .delete entry.key
  pruned := if (s.live nowMs).length ≠ s.index.length then [.putIndex (s.live nowMs)] else []

/-- The entries that pruning keeps, and the writes it takes; nothing if the index is corrupt. -/
def readStopTombstoneIndex (s : Storage) (nowMs : Nat) : Option (List Entry × Plan) :=
  if !validateStopTombstoneIndex s.index then none
  else if (s.expired nowMs).all fun entry =>
      (s.tombstone entry.key).any (·.canceledAt = entry.canceledAt) then
    some (s.live nowMs, s.prune nowMs)
  else none

/-- `stopAuthorizedDevenv` up to the schedule of the expiry. -/
def stopAuthorizedDevenv (s : Storage) (key : StopIdentity) (nowMs : Nat) : Plan :=
  match readStopTombstoneIndex s nowMs with
  | none => { error := some .indexCorrupt }
  | some (index, plan) =>
    if maxAuthorizedStopTombstones ≤ index.length && !index.any (·.key = key) then
      { plan with error := some .capacity }
    else
      let expiresAt := nowMs + authorizedStopTtlMs
      { plan with
        tombstone := [.put key ⟨nowMs, expiresAt⟩]
        index := [.putIndex (index.filter (·.key ≠ key) ++ [⟨key, nowMs, expiresAt⟩])]
        scheduled := [⟨key, nowMs⟩] }

/-- The scheduled end of one cancellation. -/
def expireAuthorizedStop (s : Storage) (payload : Payload) : Plan :=
  match s.tombstone payload.key with
  | none => {}
  | some current =>
    if current.canceledAt ≠ payload.canceledAt then {}
    else if !validateStopTombstoneIndex s.index then { error := some .indexCorrupt }
    else if s.index.any fun e => e.key = payload.key && e.canceledAt = payload.canceledAt then
      { tombstone := [.delete payload.key]
        index := [.putIndex (s.index.filter (·.key ≠ payload.key))] }
    else { error := some .indexCorrupt }

/-! ## Runs -/

/-- Where a call is cut. -/
inductive Cut
  | reading
  /-- In the middle of pruning: so many tombstones are deleted, and the index still lists them. -/
  | pruning (deleted : Nat)
  | pruned
  /-- The tombstone of the call is written or deleted, and the index is not. -/
  | tombstone
  | index
  | never

def Plan.writes (plan : Plan) : Cut → List Write
  | .reading => []
  | .pruning deleted => plan.expired.take deleted
  | .pruned => plan.expired ++ plan.pruned
  | .tombstone => plan.expired ++ plan.pruned ++ plan.tombstone
  | .index => plan.expired ++ plan.pruned ++ (plan.tombstone ++ plan.index)
  | .never => plan.expired ++ plan.pruned ++ (plan.tombstone ++ plan.index) ++
      plan.scheduled.map .schedule

inductive Call
  | stop (key : StopIdentity) (nowMs : Fin (maxTimeMs + 1))
  /-- From the schedule, which keeps its entry (to try again) or not. -/
  | expire (payload : Payload) (keeps : Bool)

def Call.plan (s : Storage) : Call → Plan
  | .stop key nowMs => stopAuthorizedDevenv s key nowMs
  | .expire payload _ => expireAuthorizedStop s payload

def step (s : Storage) (event : Call × Cut) : Storage :=
  let after := s.applyAll ((event.1.plan s).writes event.2)
  match event.1 with
  | .expire payload false => { after with scheduled := after.scheduled.erase payload }
  | _ => after

/-- The cut is not between the writes of a tombstone and of the index. -/
def Cut.clean : Cut → Bool
  | .pruning _ | .tombstone => false
  | _ => true

/-! ## In step -/

/-- **Tombstones and index are in step.** -/
structure Paired (tombstone : StopIdentity → Option Tombstone) (index : List Entry) : Prop where
  valid : validateStopTombstoneIndex index = true
  keys : (index.map Entry.key).Nodup
  listed : ∀ entry ∈ index, tombstone entry.key = some ⟨entry.canceledAt, entry.expiresAt⟩
  stored : ∀ key, (tombstone key).isSome → ∃ entry ∈ index, entry.key = key

namespace Paired

variable {tombstone : StopIdentity → Option Tombstone} {index : List Entry}

theorem without (paired : Paired tombstone index) (gone : StopIdentity → Bool) :
    Paired (fun key => if gone key then none else tombstone key)
      (index.filter fun entry => !gone entry.key) := by
  refine ⟨?_, ?_, ?_, ?_⟩
  · exact List.all_eq_true.mpr fun entry listed =>
      List.all_eq_true.mp paired.valid entry (List.mem_filter.mp listed).1
  · exact paired.keys.sublist (List.filter_sublist.map _)
  · intro entry listed
    obtain ⟨there, kept⟩ := List.mem_filter.mp listed
    rw [if_neg (by simpa using kept), paired.listed entry there]
  · intro key there
    split at there
    · nomatch there
    next kept =>
      obtain ⟨entry, listed, rfl⟩ := paired.stored key there
      exact ⟨entry, List.mem_filter.mpr ⟨listed, by simpa using kept⟩, rfl⟩

theorem add (paired : Paired tombstone index) {entry : Entry} (fresh : tombstone entry.key = none)
    (valid : validateStopTombstoneIndex [entry] = true) :
    Paired (Function.update tombstone entry.key (some ⟨entry.canceledAt, entry.expiresAt⟩))
      (index ++ [entry]) := by
  have apart : ∀ other ∈ index, other.key ≠ entry.key := by
    intro other listed same
    rw [← same] at fresh
    nomatch fresh.symm.trans (paired.listed other listed)
  refine ⟨?_, ?_, ?_, ?_⟩
  · unfold validateStopTombstoneIndex
    rw [List.all_append, Bool.and_eq_true]
    exact ⟨paired.valid, valid⟩
  · rw [List.map_append, List.nodup_append]
    refine ⟨paired.keys, List.nodup_singleton _, ?_⟩
    rintro _ listed _ last rfl
    obtain ⟨other, there, same⟩ := List.mem_map.mp listed
    exact apart other there (same.trans (List.mem_singleton.mp last))
  · intro other listed
    rcases List.mem_append.mp listed with old | new
    · rw [Function.update_of_ne (apart other old), paired.listed other old]
    · rw [List.mem_singleton.mp new, Function.update_self]
  · intro key there
    by_cases same : key = entry.key
    · exact ⟨entry, List.mem_append_right _ List.mem_cons_self, same.symm⟩
    · rw [Function.update_of_ne same] at there
      obtain ⟨other, listed, is⟩ := paired.stored key there
      exact ⟨other, List.mem_append_left _ listed, is⟩

theorem renew (paired : Paired tombstone index) (key : StopIdentity) (nowMs : Fin (maxTimeMs + 1)) :
    Paired (Function.update tombstone key (some ⟨nowMs, nowMs + authorizedStopTtlMs⟩))
      (index.filter (·.key ≠ key) ++ [⟨key, nowMs, nowMs + authorizedStopTtlMs⟩]) := by
  have safe := nowMs.isLt
  have valid : validateStopTombstoneIndex [⟨key, nowMs, nowMs + authorizedStopTtlMs⟩] = true := by
    unfold maxTimeMs at safe
    simp only [validateStopTombstoneIndex, isSafeInteger, authorizedStopTtlMs, List.all_cons,
      List.all_nil, Bool.and_true, Bool.and_eq_true, decide_eq_true_eq]
    omega
  have fresh : (if decide (key = key) then none else tombstone key) = none := by simp
  convert (paired.without (· = key)).add fresh valid using 1
  · funext other
    rw [Function.update_apply, Function.update_apply]
    split <;> simp [*]
  · simp

end Paired

theorem applyAll_delete (entries : List Entry) (s : Storage) :
    s.applyAll (entries.map fun entry => .delete entry.key) =
      { s with tombstone := fun key => if key ∈ entries.map Entry.key then none
        else s.tombstone key } := by
  unfold Storage.applyAll
  induction entries generalizing s with
  | nil => rfl
  | cons entry entries ih =>
    rw [List.map_cons, List.foldl_cons, ih]
    congr 1
    funext key
    dsimp only [Storage.apply]
    rw [Function.update_apply, List.map_cons]
    by_cases here : key = entry.key <;> simp [here]

abbrev Storage.InStep (s : Storage) : Prop := Paired s.tombstone s.index

section Steps

variable {s : Storage}

theorem applyAll_append (s : Storage) (writes more : List Write) :
    s.applyAll (writes ++ more) = (s.applyAll writes).applyAll more := List.foldl_append

theorem read_inStep (inStep : s.InStep) (nowMs : Nat) :
    readStopTombstoneIndex s nowMs = some (s.live nowMs, s.prune nowMs) := by
  unfold readStopTombstoneIndex
  rw [inStep.valid, if_neg (by decide), if_pos]
  refine List.all_eq_true.mpr fun entry listed => ?_
  rw [inStep.listed entry (List.mem_filter.mp listed).1]
  simp

/-- An entry has expired exactly if its key is one of the expired: the keys are distinct. -/
theorem live_eq (inStep : s.InStep) (nowMs : Nat) : s.live nowMs = s.index.filter fun entry =>
    !decide (entry.key ∈ (s.expired nowMs).map Entry.key) := by
  refine List.filter_congr fun entry listed => ?_
  have key_iff : entry.key ∈ (s.expired nowMs).map Entry.key ↔ entry ∈ s.expired nowMs := by
    refine ⟨fun mem => ?_, List.mem_map_of_mem⟩
    obtain ⟨other, gone, same⟩ := List.mem_map.mp mem
    have there := (List.mem_filter.mp gone).1
    rwa [← List.inj_on_of_nodup_map inStep.keys there listed same]
  rw [Bool.eq_iff_iff, Bool.not_eq_true', decide_eq_true_eq, decide_eq_false_iff_not, key_iff]
  simp [Storage.expired, Storage.live, listed]

theorem prune_inStep (inStep : s.InStep) (nowMs : Nat) :
    s.applyAll ((s.prune nowMs).expired ++ (s.prune nowMs).pruned) = { s with
        tombstone := fun key =>
          if key ∈ (s.expired nowMs).map Entry.key then none else s.tombstone key
        index := s.live nowMs } ∧
      (s.applyAll ((s.prune nowMs).expired ++ (s.prune nowMs).pruned)).InStep := by
  have same : s.applyAll ((s.prune nowMs).expired ++ (s.prune nowMs).pruned) = { s with
      tombstone := fun key =>
        if key ∈ (s.expired nowMs).map Entry.key then none else s.tombstone key
      index := s.live nowMs } := by
    rw [applyAll_append, Storage.prune, applyAll_delete]
    split
    · rfl
    next all =>
      have index : s.live nowMs = s.index := List.filter_sublist.eq_of_length (not_not.mp all)
      rw [index]
      rfl
  have without := inStep.without fun key => decide (key ∈ (s.expired nowMs).map Entry.key)
  rw [← live_eq inStep nowMs] at without
  refine ⟨same, ?_⟩
  rw [same]
  simpa using without

def Plan.Keeps (plan : Plan) (s : Storage) : Prop :=
  (s.applyAll (plan.expired ++ plan.pruned)).InStep ∧
    (s.applyAll (plan.expired ++ plan.pruned ++ (plan.tombstone ++ plan.index))).InStep

variable (inStep : s.InStep)
include inStep

theorem Plan.Keeps.nothing (error : Option StopError) :
    ({ error } : Plan).Keeps s := ⟨inStep, inStep⟩

theorem stop_keeps (key : StopIdentity) (nowMs : Fin (maxTimeMs + 1)) :
    (stopAuthorizedDevenv s key nowMs).Keeps s := by
  obtain ⟨same, pruned⟩ := prune_inStep inStep nowMs
  unfold stopAuthorizedDevenv
  rw [read_inStep inStep]
  dsimp only
  split
  · exact ⟨pruned, by rw [applyAll_append]; exact pruned⟩
  refine ⟨pruned, ?_⟩
  rw [applyAll_append, same]
  rw [same] at pruned
  exact pruned.renew key nowMs

theorem expire_keeps (payload : Payload) : (expireAuthorizedStop s payload).Keeps s := by
  unfold expireAuthorizedStop
  split
  · exact .nothing inStep _
  split
  · exact .nothing inStep _
  split
  · exact .nothing inStep _
  split
  · refine ⟨inStep, ?_⟩
    convert inStep.without (· = payload.key) using 1
    · funext key
      exact (Function.update_apply _ _ _ _).trans (by simp)
    · simp [Storage.applyAll, Storage.apply]
  · exact .nothing inStep _

theorem Call.plan_keeps (call : Call) : (call.plan s).Keeps s := by
  cases call with
  | stop key nowMs => exact stop_keeps inStep key nowMs
  | expire payload => exact expire_keeps inStep payload

/-- **A call that is cut cleanly keeps the two in step.** -/
theorem step_inStep {event : Call × Cut} (clean : event.2.clean = true) :
    (step s event).InStep := by
  obtain ⟨call, cut⟩ := event
  obtain ⟨pruned, written⟩ := call.plan_keeps inStep
  -- what is scheduled touches neither
  have scheduled : (s.applyAll ((call.plan s).writes .never)).InStep := by
    dsimp only [Plan.writes]
    rw [applyAll_append]
    refine List.foldlRecOn _ _ (motive := Storage.InStep) written ?_
    intro after h write listed
    obtain ⟨payload, -, rfl⟩ := List.mem_map.mp listed
    exact h
  have after : (s.applyAll ((call.plan s).writes cut)).InStep := by
    cases cut with
    | reading => exact inStep
    | pruning => nomatch clean
    | pruned => exact pruned
    | tombstone => nomatch clean
    | index => exact written
    | never => exact scheduled
  cases call with
  | stop => exact after
  | expire payload keeps => cases keeps <;> exact after

theorem plan_not_corrupt (call : Call) : (call.plan s).error ≠ some .indexCorrupt := by
  cases call with
  | stop key nowMs =>
    dsimp only [Call.plan]
    unfold stopAuthorizedDevenv
    rw [read_inStep inStep]
    dsimp only
    split <;> exact nofun
  | expire payload keeps =>
    dsimp only [Call.plan]
    unfold expireAuthorizedStop
    split
    · exact nofun
    next current found =>
      split
      · exact nofun
      next same =>
        obtain ⟨entry, listed, key⟩ := inStep.stored payload.key (by rw [found]; rfl)
        have its := inStep.listed entry listed
        rw [key, found] at its
        have stamp : entry.canceledAt = payload.canceledAt := by
          rw [← not_not.mp same, Option.some.inj its]
        rw [inStep.valid, if_neg (by decide), if_pos]
        · exact nofun
        · exact List.any_eq_true.mpr ⟨entry, listed, by simp [key, stamp]⟩

theorem stop_possible (key : StopIdentity) (nowMs : Nat) {live : Finset StopIdentity}
    (all : ∀ other t, s.tombstone other = some t → nowMs < t.expiresAt → other ∈ live)
    (few : live.card < maxAuthorizedStopTombstones) :
    (stopAuthorizedDevenv s key nowMs).error = none := by
  have keys : ((s.live nowMs).map Entry.key).Nodup :=
    inStep.keys.sublist (List.filter_sublist.map _)
  have entries : (s.live nowMs).length ≤ live.card := by
    rw [← List.length_map Entry.key, ← List.toFinset_card_of_nodup keys]
    refine Finset.card_le_card fun other mem => ?_
    obtain ⟨entry, listed, rfl⟩ := List.mem_map.mp (List.mem_toFinset.mp mem)
    obtain ⟨there, fresh⟩ := List.mem_filter.mp listed
    exact all _ _ (inStep.listed entry there) (of_decide_eq_true fresh)
  unfold stopAuthorizedDevenv
  rw [read_inStep inStep]
  dsimp only
  rw [if_neg]
  · rfl
  · simp only [Bool.and_eq_true, decide_eq_true_eq]
    omega

end Steps

/-- **Stops stay possible.** In every run whose calls are cut, if at all, not between a tombstone
and the index: no call finds the index corrupt, every tombstone is in the index, and a stop goes
through while fewer than 64 tombstones are live. -/
theorem stops_stay_possible (events : List (Call × Cut))
    (clean : ∀ event ∈ events, event.2.clean = true) :
    let s := events.foldl step {}
    (∀ call : Call, (call.plan s).error ≠ some .indexCorrupt) ∧
    (∀ key t, s.tombstone key = some t →
      ∃ entry ∈ s.index, entry.key = key ∧ entry.canceledAt = t.canceledAt) ∧
    ∀ (key : StopIdentity) (nowMs : Nat) (live : Finset StopIdentity),
      (∀ other t, s.tombstone other = some t → nowMs < t.expiresAt → other ∈ live) →
      live.card < maxAuthorizedStopTombstones →
        (stopAuthorizedDevenv s key nowMs).error = none := by
  intro s
  have inStep : s.InStep := by
    refine List.foldlRecOn events step (motive := Storage.InStep) ⟨rfl, .nil, nofun, nofun⟩ ?_
    exact fun s inStep event listed => step_inStep inStep (clean event listed)
  refine ⟨plan_not_corrupt inStep, fun key t found => ?_, fun key nowMs live =>
    stop_possible inStep key nowMs⟩
  obtain ⟨entry, listed, rfl⟩ := inStep.stored key (by rw [found]; rfl)
  have its := (inStep.listed entry listed).symm.trans found
  exact ⟨entry, listed, rfl, congrArg Tombstone.canceledAt (Option.some.inj its)⟩

def sessionA : StopIdentity where
  tenantId := "11111111-1111-1111-1111-111111111111"
  sessionUuid := "22222222-2222-2222-2222-222222222222"
  tenant_valid := by decide +kernel
  session_valid := by decide +kernel

def sessionB : StopIdentity :=
  { sessionA with
    sessionUuid := "33333333-3333-3333-3333-333333333333"
    session_valid := by decide +kernel }

theorem stops_stay_possible_cut :
    let s := [(Call.stop sessionA 0, Cut.index), (.stop sessionB 40000000, .pruned)].foldl step {}
    s.index = [] ∧ ∀ call : Call, (call.plan s).error ≠ some .indexCorrupt :=
  ⟨by decide +kernel, (stops_stay_possible _ (by decide +kernel)).1⟩

/-- **Locked out.** A stop that prunes an expired tombstone is cut before it writes the index; the
index lists what is gone, and every later stop fails. -/
theorem stop_locked_out :
    (stopAuthorizedDevenv
      ([(Call.stop sessionA 0, Cut.never), (.stop sessionB 40000000, .pruning 1)].foldl
      step {}) sessionB 40000001).error = some .indexCorrupt := by
  decide +kernel

end CorelinkRunners.DevEnv
