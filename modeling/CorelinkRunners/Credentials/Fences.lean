import CorelinkRunners.Credentials.Authority

/-!
# Closed jobs and suspended generations

`Change` says what an operation can do to the storage. The records stay at their keys (`Sound`), an
obligation goes one step on at a time, fences stay and floors rise. So what is covered stays
covered: it cannot be registered again, and every scan finds it until it is revoked.
-/

namespace CorelinkRunners.Credentials

open Kit

/-! ## Keys -/

theorem fenceKey_inj {a b : String} (h : fenceKey a = fenceKey b) : a = b := Uri.family_inj h

theorem floorKey_inj {a b : String} (h : floorKey a = floorKey b) : a = b := Uri.family_inj h

theorem credentialKey_toList (identity : CredentialIdentity) :
    (credentialKey identity).toList = obligationPrefix.toList ++
      ((Uri.encodeComponent identity.jobId).toList ++ ':' ::
        ((Uri.encodeComponent identity.tenant).toList ++ ':' ::
          (Uri.encodeComponent identity.patId).toList)) := by
  simp [credentialKey, jobPrefix, String.toList_append]

variable {a b : CredentialIdentity}

theorem credentialKey_inj (h : credentialKey a = credentialKey b) :
    a.jobId = b.jobId ∧ a.tenant = b.tenant ∧ a.patId = b.patId := by
  have parts := congrArg String.toList h
  rw [credentialKey_toList, credentialKey_toList] at parts
  obtain ⟨job, rest⟩ := Uri.append_colon_inj (Uri.colon_notMem_encodeComponent _)
    (Uri.colon_notMem_encodeComponent _) (List.append_cancel_left parts)
  obtain ⟨tenant, pat⟩ := Uri.append_colon_inj (Uri.colon_notMem_encodeComponent _)
    (Uri.colon_notMem_encodeComponent _) rest
  exact ⟨Uri.encodeComponent_inj (String.toList_inj.mp job),
    Uri.encodeComponent_inj (String.toList_inj.mp tenant),
    Uri.encodeComponent_inj (String.toList_inj.mp pat)⟩

variable {identity : CredentialIdentity}

theorem jobPrefix_isPrefix {jobId : String} :
    (jobPrefix jobId).toList <+: (credentialKey identity).toList ↔ identity.jobId = jobId := by
  rw [credentialKey_toList]
  have split : (jobPrefix jobId).toList =
      obligationPrefix.toList ++ ((Uri.encodeComponent jobId).toList ++ [':']) := by
    simp [jobPrefix, String.toList_append]
  rw [split, List.prefix_append_right_inj]
  constructor
  · rintro ⟨rest, same⟩
    rw [List.append_assoc, List.singleton_append] at same
    obtain ⟨job, -⟩ := Uri.append_colon_inj (Uri.colon_notMem_encodeComponent _)
      (Uri.colon_notMem_encodeComponent _) same
    exact (Uri.encodeComponent_inj (String.toList_inj.mp job)).symm
  · rintro rfl
    exact ⟨_, by rw [List.append_assoc, List.singleton_append]⟩

/-! ## What an operation can do -/

inductive Status.Next : Status → Status → Prop
  | requested : Next .registered .revokeRequested
  | revoked : Next .revokeRequested .revoked

def Status.rank : Status → Nat
  | registered => 0
  | revokeRequested => 1
  | revoked => 2

def Store.Closed (s : Store) (jobId : String) : Prop := s.fences.get (fenceKey jobId) ≠ none

def Store.Reached (s : Store) (tenant : String) (n : Nat) : Prop :=
  ∃ floor, s.floors.get (floorKey tenant) = some floor ∧ n ≤ bigInt floor.revokedThrough

/-- The obligation is to be revoked: its job is closed, or its generation is suspended. -/
def Store.Covered (s : Store) (identity : CredentialIdentity) : Prop :=
  s.Closed identity.jobId ∨ s.Reached identity.tenant identity.number

/-- What one operation can do to the storage. -/
inductive Change (s : Store) : Store → Prop
  | same : Change s s
  | registered (identity : CredentialIdentity) (status : Status)
      (valid : validIdentity identity = .ok true)
      (fresh : s.obligations[credentialKey identity]? = none)
      (unrevoked : status ≠ .revoked) (uncovered : status = .registered → ¬s.Covered identity) :
      Change s (s.putObligation ⟨identity, status, none⟩)
  | moved (old new : Obligation) (valid : validIdentity new.identity = .ok true)
      (found : s.obligations[credentialKey new.identity]? = some old)
      (same : identityMatches old.identity new.identity = true)
      (next : old.status.Next new.status) : Change s (s.putObligation new)
  | fenced (jobId : String) (now : Int) :
      Change s { s with fences := s.fences.put (fenceKey jobId) ⟨jobId, now⟩ }
  | floored (tenant through : String) (valid : isI64 through = true)
      (grows : ∀ floor, s.floors.get (floorKey tenant) = some floor →
        bigInt floor.revokedThrough < bigInt through) :
      Change s { s with floors := s.floors.put (floorKey tenant) ⟨tenant, through⟩ }

theorem requireIdentity_ok (h : requireIdentity identity = .ok ()) :
    validIdentity identity = .ok true := by
  unfold requireIdentity at h
  split at h
  · nomatch h
  · nomatch h
  next valid => exact valid

variable {value : Obligation}

theorem validateCredential_ok {key : String} (h : validateCredential key value = .ok ()) :
    validIdentity value.identity = .ok true ∧ key = credentialKey value.identity := by
  unfold validateCredential at h
  split at h
  · nomatch h
  next valid checked =>
    split at h
    next both =>
      simp only [Bool.and_eq_true, beq_iff_eq] at both
      exact ⟨both.1 ▸ checked, both.2⟩
    · nomatch h

theorem generation_ok {text valid : String} (h : Credentials.generation (some text) = .ok valid) :
    isI64 text = true := by
  unfold Credentials.generation at h
  dsimp only at h
  split at h
  next is => exact is
  · nomatch h

namespace Store

variable {s : Store} {fence : Option Fence}

theorem fenceOf_ok {jobId : String} (h : s.fenceOf jobId = .ok fence) :
    s.fences.get (fenceKey jobId) = fence := by
  unfold fenceOf at h
  split at h
  next absent =>
    cases h
    exact absent
  next found =>
    split at h
    · cases h
      exact found
    · nomatch h

theorem floorOf_ok {tenant : String} {floor : Option Floor} (h : s.floorOf tenant = .ok floor) :
    s.floors.get (floorKey tenant) = floor := by
  unfold floorOf at h
  split at h
  next absent =>
    cases h
    exact absent
  next found =>
    split at h
    · nomatch h
    split at h
    · nomatch h
    cases h
    exact found

variable {identity : CredentialIdentity}

theorem closed_iff {floor : Option Floor} (fenced : s.fences.get (fenceKey identity.jobId) = fence)
    (floored : s.floors.get (floorKey identity.tenant) = floor) :
    (fence.isSome || covers floor identity) = true ↔ s.Covered identity := by
  rw [Bool.or_eq_true, Covered, Closed, Reached, fenced, floored, Option.isSome_iff_ne_none]
  refine or_congr Iff.rfl ?_
  cases floor with
  | none => simp [covers]
  | some f => simp [covers]

theorem lookup_ok {record : Obligation} (h : s.lookup identity = .ok record) :
    s.obligations[credentialKey identity]? = some record ∧
      validIdentity record.identity = .ok true ∧
      credentialKey identity = credentialKey record.identity ∧
      identityMatches record.identity identity = true := by
  unfold lookup at h
  split at h
  · nomatch h
  next found =>
    split at h
    · nomatch h
    next valid =>
      split at h
      next same =>
        cases h
        obtain ⟨is, key⟩ := validateCredential_ok valid
        exact ⟨found, is, key, same⟩
      · nomatch h

theorem register_change {floor : Option Floor} (valid : validIdentity identity = .ok true)
    (fenced : s.fences.get (fenceKey identity.jobId) = fence)
    (floored : s.floors.get (floorKey identity.tenant) = floor) :
    Change s (s.register identity fence floor).2 := by
  have covered := closed_iff fenced floored
  unfold register
  dsimp only
  split
  next existing found =>
    split
    · exact .same
    split
    · exact .same
    next same =>
      split
      next registered =>
        split
        · refine .moved existing ⟨identity, .revokeRequested, none⟩ valid found ?_ ?_
          · simpa using same
          · rw [registered]
            exact .requested
        · exact .same
      · exact .same
  next fresh =>
    split
    · exact .registered identity .revokeRequested valid fresh nofun nofun
    next open_ =>
      exact .registered identity .registered valid fresh nofun fun _ => mt covered.mpr open_

/-- **Every operation is one of the cases.** -/
theorem after_change (op : Op) : Change s (s.after op) := by
  cases op with
  | register identity =>
    dsimp only [after, registerCredential]
    split
    · exact .same
    next valid =>
      split
      · exact .same
      next fenced =>
        split
        · exact .same
        next floored =>
          exact register_change (requireIdentity_ok valid) (fenceOf_ok fenced) (floorOf_ok floored)
  | closeJob jobId now =>
    dsimp only [after, closeJobCredentials]
    split
    · exact .same
    split
    · exact .same
    split
    · exact .same
    split
    · exact .same
    · exact .fenced jobId now
  | closeTenant tenant through =>
    dsimp only [after, closeTenantCredentials]
    split
    · exact .same
    split
    · exact .same
    next valid =>
      split
      · exact .same
      next current floored =>
        split
        next grows =>
          refine .floored tenant through (generation_ok valid) fun floor found => ?_
          rw [← floorOf_ok floored, found] at grows
          simpa using grows
        · exact .same
  | request identity =>
    dsimp only [after, requestCredentialRevocation]
    split
    · exact .same
    split
    · exact .same
    next record found =>
      obtain ⟨there, valid, key, -⟩ := lookup_ok found
      split
      next registered =>
        refine .moved record { record with status := .revokeRequested } valid (key ▸ there) ?_ ?_
        · simp [identityMatches]
        · rw [registered]
          exact .requested
      · exact .same
      · exact .same
  | confirm identity now =>
    dsimp only [after, confirmCredentialRevoked]
    split
    · exact .same
    split
    · exact .same
    next record found =>
      obtain ⟨there, valid, key, -⟩ := lookup_ok found
      split
      · exact .same
      next requested =>
        refine .moved record { record with status := .revoked, confirmedAtMs := some now } valid
          (key ▸ there) ?_ ?_
        · simp [identityMatches]
        · rw [requested]
          exact .revoked
      · exact .same

end Store

/-! ## What stays -/

/-- What every storage that operations reach keeps. -/
structure Sound (s : Store) : Prop where
  obligations : ∀ key value, s.obligations[key]? = some value →
    key = credentialKey value.identity ∧ validIdentity value.identity = .ok true
  fences : ∀ key fence, s.fences.get key = some fence → key = fenceKey fence.jobId
  floors : ∀ key floor, s.floors.get key = some floor →
    key = floorKey floor.tenant ∧ isI64 floor.revokedThrough = true

theorem identityMatches_iff : identityMatches a b = true ↔
    a.jobId = b.jobId ∧ a.tenant = b.tenant ∧ a.patId = b.patId ∧ a.generation = b.generation := by
  simp only [identityMatches, Bool.and_eq_true, beq_iff_eq, and_assoc]

theorem identityMatches_refl (a : CredentialIdentity) : identityMatches a a = true :=
  identityMatches_iff.mpr ⟨rfl, rfl, rfl, rfl⟩

theorem identityMatches_trans {c : CredentialIdentity} (h : identityMatches a b = true)
    (h' : identityMatches b c = true) : identityMatches a c = true := by
  rw [identityMatches_iff] at h h' ⊢
  exact ⟨h.1.trans h'.1, h.2.1.trans h'.2.1, h.2.2.1.trans h'.2.2.1, h.2.2.2.trans h'.2.2.2⟩

variable {s : Store}

theorem Store.covered_congr (h : identityMatches a b = true) : s.Covered a ↔ s.Covered b := by
  obtain ⟨job, tenant, -, gen⟩ := identityMatches_iff.mp h
  rw [Store.Covered, Store.Covered, job, tenant, CredentialIdentity.number,
    CredentialIdentity.number, gen]

theorem Store.get_putObligation (s : Store) (value : Obligation) (key : String) :
    (s.putObligation value).obligations[key]? =
      if credentialKey value.identity = key then some value else s.obligations[key]? :=
  OrdMap.get_insert _ _ _ _

namespace Sound

variable {s s' : Store}

theorem empty : Sound {} where
  obligations key value h := by simp at h
  fences := nofun
  floors := nofun

theorem change (inv : Sound s) (change : Change s s') : Sound s' := by
  have put (value : Obligation) (valid : validIdentity value.identity = .ok true) :
      Sound (s.putObligation value) := by
    refine ⟨fun key value' found => ?_, inv.fences, inv.floors⟩
    rw [Store.get_putObligation] at found
    split at found
    next same =>
      cases found
      exact ⟨same.symm, valid⟩
    · exact inv.obligations key value' found
  cases change with
  | same => exact inv
  | registered identity status valid _ _ _ => exact put _ valid
  | moved old new valid _ _ _ => exact put _ valid
  | fenced jobId now =>
    refine ⟨inv.obligations, fun key fence found => ?_, inv.floors⟩
    rcases Table.get_put_cases found with ⟨rfl, rfl⟩ | ⟨-, there⟩
    · rfl
    · exact inv.fences key fence there
  | floored tenant through valid _ =>
    refine ⟨inv.obligations, inv.fences, fun key floor found => ?_⟩
    rcases Table.get_put_cases found with ⟨rfl, rfl⟩ | ⟨-, there⟩
    · exact ⟨rfl, valid⟩
    · exact inv.floors key floor there

theorem run (inv : Sound s) (ops : List Op) : Sound (s.run ops) := by
  induction ops generalizing s with
  | nil => exact inv
  | cons op rest ih => exact ih (inv.change (s.after_change op))

end Sound

namespace Change

variable {s s' : Store}

/-- An obligation keeps its identity, and its status goes one step on at most. -/
theorem kept (change : Change s s') {key : String} {value : Obligation}
    (found : s.obligations[key]? = some value) : ∃ value', s'.obligations[key]? = some value' ∧
      identityMatches value.identity value'.identity = true ∧
      (value'.status = value.status ∨ value.status.Next value'.status) := by
  have stays : ∃ value', s.obligations[key]? = some value' ∧
      identityMatches value.identity value'.identity = true ∧
      (value'.status = value.status ∨ value.status.Next value'.status) :=
    ⟨value, found, identityMatches_refl _, .inl rfl⟩
  cases change with
  | same => exact stays
  | fenced => exact stays
  | floored => exact stays
  | registered identity status valid fresh _ _ =>
    rw [Store.get_putObligation]
    split
    next same =>
      rw [same] at fresh
      nomatch fresh.symm.trans found
    · exact stays
  | moved old new valid there same next =>
    rw [Store.get_putObligation]
    split
    next here =>
      rw [here] at there
      cases there.symm.trans found
      exact ⟨new, rfl, same, .inr next⟩
    · exact stays

/-- A fence stays. -/
theorem closed (change : Change s s') {jobId : String} (closed : s.Closed jobId) :
    s'.Closed jobId := by
  cases change with
  | same => exact closed
  | registered => exact closed
  | moved => exact closed
  | floored => exact closed
  | fenced other now =>
    intro absent
    rw [Table.get_put] at absent
    split at absent
    · nomatch absent
    · exact closed absent

/-- A floor only rises. -/
theorem floor (change : Change s s') {tenant : String} {floor : Floor}
    (there : s.floors.get (floorKey tenant) = some floor) :
    ∃ floor', s'.floors.get (floorKey tenant) = some floor' ∧
      bigInt floor.revokedThrough ≤ bigInt floor'.revokedThrough := by
  cases change with
  | same => exact ⟨floor, there, Nat.le_refl _⟩
  | registered => exact ⟨floor, there, Nat.le_refl _⟩
  | moved => exact ⟨floor, there, Nat.le_refl _⟩
  | fenced => exact ⟨floor, there, Nat.le_refl _⟩
  | floored other through valid grows =>
    by_cases same : floorKey tenant = floorKey other
    · rw [same] at there ⊢
      exact ⟨_, Table.get_put_self _ _ _, Nat.le_of_lt (grows floor there)⟩
    · exact ⟨floor, (Table.get_put_of_ne same).trans there, Nat.le_refl _⟩

/-- What is covered stays covered. -/
theorem covered (change : Change s s') {identity : CredentialIdentity}
    (covered : s.Covered identity) : s'.Covered identity := by
  rcases covered with job | ⟨floor, there, reached⟩
  · exact .inl (change.closed job)
  · obtain ⟨floor', there', rises⟩ := change.floor there
    exact .inr ⟨floor', there', reached.trans rises⟩

end Change

theorem Status.Next.rank {a b : Status} (next : a.Next b) : a.rank < b.rank := by
  cases next with
  | requested => exact Nat.zero_lt_one
  | revoked => exact Nat.one_lt_two

namespace Store

variable {s : Store}

theorem run_kept (ops : List Op) {key : String} {value : Obligation}
    (found : s.obligations[key]? = some value) :
    ∃ value', (s.run ops).obligations[key]? = some value' ∧
      identityMatches value.identity value'.identity = true ∧
      value.status.rank ≤ value'.status.rank := by
  induction ops generalizing s value with
  | nil => exact ⟨value, found, identityMatches_refl _, Nat.le_refl _⟩
  | cons op rest ih =>
    obtain ⟨value1, found1, same1, status⟩ := (s.after_change op).kept found
    obtain ⟨value', found', same', ranks⟩ := ih found1
    refine ⟨value', found', identityMatches_trans same1 same', ?_⟩
    rcases status with still | next
    · exact still ▸ ranks
    · exact (Nat.le_of_lt next.rank).trans ranks

variable {identity : CredentialIdentity}

theorem run_covered (ops : List Op) (covered : s.Covered identity) :
    (s.run ops).Covered identity := by
  induction ops generalizing s with
  | nil => exact covered
  | cons op rest ih => exact ih ((s.after_change op).covered covered)

theorem run_floor (ops : List Op) {tenant : String} {floor : Floor}
    (there : s.floors.get (floorKey tenant) = some floor) :
    ∃ floor', (s.run ops).floors.get (floorKey tenant) = some floor' ∧
      bigInt floor.revokedThrough ≤ bigInt floor'.revokedThrough := by
  induction ops generalizing s floor with
  | nil => exact ⟨floor, there, Nat.le_refl _⟩
  | cons op rest ih =>
    obtain ⟨floor1, there1, rises1⟩ := (s.after_change op).floor there
    obtain ⟨floor', there', rises⟩ := ih there1
    exact ⟨floor', there', rises1.trans rises⟩

theorem register_closed {fence : Option Fence} {floor : Option Floor}
    (closed : (fence.isSome || covers floor identity) = true) :
    (s.register identity fence floor).1 ≠ .ok () := by
  unfold register
  simp only [closed, if_true]
  split
  · split
    · exact nofun
    split
    · exact nofun
    split
    · exact nofun
    · exact nofun
  · exact nofun

/-- **A covered credential is not registered.** -/
theorem registerCredential_covered (covered : s.Covered identity) :
    (s.registerCredential identity).1 ≠ .ok () := by
  unfold registerCredential
  split
  · exact nofun
  split
  · exact nofun
  next fence fenced =>
    split
    · exact nofun
    next floor floored =>
      exact register_closed ((closed_iff (fenceOf_ok fenced) (floorOf_ok floored)).mpr covered)

/-- A job whose close is answered is closed. -/
theorem closeJobCredentials_closed {jobId : String} {now : Int} {known : Bool}
    (answered : (s.closeJobCredentials jobId now).1 = .ok known) :
    (s.closeJobCredentials jobId now).2.Closed jobId := by
  revert answered
  unfold closeJobCredentials
  split
  · exact nofun
  split
  · exact nofun
  next fence fenced =>
    split
    · exact nofun
    cases fence with
    | some fence =>
      intro _ open_
      nomatch open_.symm.trans (fenceOf_ok fenced)
    | none =>
      intro _ open_
      rw [Table.get_put, if_pos rfl] at open_
      nomatch open_

/-- A tenant whose close is answered has its floor at the generation or above. -/
theorem closeTenantCredentials_reached {tenant through : String}
    (answered : (s.closeTenantCredentials tenant through).1 = .ok ()) :
    (s.closeTenantCredentials tenant through).2.Reached tenant (bigInt through) := by
  revert answered
  unfold closeTenantCredentials
  split
  · exact nofun
  split
  · exact nofun
  split
  · exact nofun
  next current floored =>
    split
    · exact fun _ => ⟨⟨tenant, through⟩, by rw [Table.get_put, if_pos rfl], Nat.le_refl _⟩
    next reached =>
      cases current with
      | none => exact absurd rfl reached
      | some floor =>
        simp only [Option.all_some, decide_eq_true_eq, Nat.not_lt] at reached
        exact fun _ => ⟨floor, floorOf_ok floored, reached⟩

end Store

/-! ## Listing -/

namespace Store

variable (s : Store)

def picks (selection : Selection) (requested : Option Status) (value : Obligation) : Bool :=
  let floor := s.floors.get (floorKey value.identity.tenant)
  let through := selection.through? <|> floor.map Floor.revokedThrough
  let covered := through.any fun g => decide (value.identity.number ≤ bigInt g)
  let fencedRegistered := decide (requested = some .revokeRequested) &&
    decide (value.status = .registered) &&
    ((s.fences.get (fenceKey value.identity.jobId)).isSome || covered)
  selection.matches_ value.identity && decide (value.status ≠ .revoked) &&
    (requested.all (fun status => decide (value.status = status)) || fencedRegistered)

end Store

namespace Sound

variable {s : Store}

theorem fenceOf (inv : Sound s) (jobId : String) :
    s.fenceOf jobId = .ok (s.fences.get (fenceKey jobId)) := by
  unfold Store.fenceOf
  split
  next absent => rw [absent]
  next fence found => rw [if_pos (fenceKey_inj (inv.fences _ fence found)).symm, found]

theorem floorOf (inv : Sound s) (tenant : String) :
    s.floorOf tenant = .ok (s.floors.get (floorKey tenant)) := by
  unfold Store.floorOf
  split
  next absent => rw [absent]
  next floor found =>
    obtain ⟨key, valid⟩ := inv.floors _ floor found
    rw [if_neg (not_not.mpr (floorKey_inj key).symm), found, Credentials.generation, if_pos valid]

variable {key : String} {value : Obligation}

theorem validateCredential (inv : Sound s) (found : s.obligations[key]? = some value) :
    validateCredential key value = .ok () := by
  obtain ⟨at_, valid⟩ := inv.obligations key value found
  rw [Credentials.validateCredential, valid]
  simp [at_]

theorem selected (inv : Sound s) (selection : Selection) (requested : Option Status)
    (found : s.obligations[key]? = some value) : s.selected selection requested (key, value) =
      .ok (if s.picks selection requested value then some value.identity else none) := by
  unfold Store.selected Store.picks
  dsimp only
  rw [inv.validateCredential found, inv.fenceOf, inv.floorOf]
  dsimp only
  split
  · rfl
  · rfl

theorem collect (inv : Sound s) (selection : Selection) (requested : Option Status)
    {entries : List (String × Obligation)}
    (stored : ∀ entry ∈ entries, s.obligations[entry.1]? = some entry.2) :
    s.collect selection requested entries = .ok
      ((entries.filter fun entry => s.picks selection requested entry.2).map (·.2.identity)) := by
  induction entries with
  | nil => rfl
  | cons entry rest ih =>
    have head := inv.selected selection requested (stored entry List.mem_cons_self)
    rw [Store.collect, head, ih fun e member => stored e (List.mem_cons_of_mem _ member)]
    by_cases picked : s.picks selection requested entry.2 = true
    · simp only [if_pos picked, List.filter_cons, List.map_cons, Option.toList_some,
        List.singleton_append]
    · simp only [if_neg picked, List.filter_cons, Option.toList_none, List.nil_append]

variable {selection : Selection}

theorem checkSelection (inv : Sound s) (valid : ∀ g ∈ selection.through?, isI64 g = true) :
    s.checkSelection selection = .ok () := by
  cases selection with
  | all => rfl
  | job => rfl
  | tenant t through =>
    unfold Store.checkSelection
    have checked : ∃ g, Credentials.generation through = .ok g := by
      cases through with
      | none => exact ⟨"0", rfl⟩
      | some g => exact ⟨g, if_pos (valid g rfl)⟩
    obtain ⟨g, ok⟩ := checked
    dsimp only
    rw [ok, inv.floorOf]

/-- **A page of a sound storage.** -/
theorem pendingCredentials (inv : Sound s) (valid : ∀ g ∈ selection.through?, isI64 g = true)
    (cursor : Option String) (requested : Option Status) :
    s.pendingCredentials selection cursor requested = .ok
      { records := ((s.entries cursor).filter fun entry => s.picks selection requested entry.2).map
          (·.2.identity)
        cursor := if (s.entries cursor).length < listLimit then none
          else (s.entries cursor).getLast?.map Prod.fst
        complete := decide ((s.entries cursor).length < listLimit) } := by
  have stored : ∀ entry ∈ s.entries cursor, s.obligations[entry.1]? = some entry.2 :=
    fun entry member => (OrdMap.get_of_mem_page member).1
  rw [Store.pendingCredentials, inv.checkSelection valid, inv.collect selection requested stored]
  dsimp only
  split
  next short => rw [decide_eq_true short]
  next full => rw [decide_eq_false full]

end Sound

/-! ## Scans -/

/-- A complete scan of the requested revocations, page by page, with any operations in between: what
it returns, and the storage when it ends. -/
inductive Scans : Store → Option String → List CredentialIdentity → Store → Prop
  | last {s : Store} {cursor : Option String} (page : CredentialPage)
      (listed : s.revocationRequestedCredentials cursor = .ok page)
      (complete : page.complete = true) :
      Scans s cursor page.records s
  | more {s s' : Store} {cursor : Option String} {rest : List CredentialIdentity}
      (page : CredentialPage)
      (next : String) (ops : List Op) (listed : s.revocationRequestedCredentials cursor = .ok page)
      (incomplete : page.complete = false) (left : page.cursor = some next)
      (scans : Scans (s.run ops) (some next) rest s') : Scans s cursor (page.records ++ rest) s'

theorem credentialKey_ne_empty (identity : CredentialIdentity) : credentialKey identity ≠ "" := by
  intro empty
  have parts := credentialKey_toList identity
  rw [empty] at parts
  nomatch parts

theorem all_through : ∀ g ∈ Selection.all.through?, isI64 g = true := by
  intro g named
  nomatch (named : none = some g)

theorem Store.picks_covered (covered : s.Covered value.identity)
    (unrevoked : value.status ≠ .revoked) : s.picks .all (some .revokeRequested) value = true := by
  have closed := (closed_iff rfl rfl).mpr covered
  cases status : value.status with
  | registered =>
    simpa [Store.picks, Selection.matches_, Selection.through?, status, covers, Option.any_map,
      Function.comp_def] using closed
  | revokeRequested => simp [Store.picks, Selection.matches_, status]
  | revoked => exact absurd status unrevoked

namespace Sound

variable {s : Store}

theorem entries_last (inv : Sound s) {cursor : Option String} {last : String × Obligation}
    (is_last : (s.entries cursor).getLast? = some last) :
    (some last.1).filter (· != "") = some last.1 := by
  obtain ⟨stored, -⟩ := OrdMap.get_of_mem_page (List.mem_of_getLast? is_last)
  rw [(inv.obligations _ _ stored).1]
  simpa using credentialKey_ne_empty _

end Sound

namespace Scans

variable {s s' : Store} {cursor : Option String} {records : List CredentialIdentity}

theorem reaches (scans : Scans s cursor records s') : ∃ ops, s' = s.run ops := by
  induction scans with
  | last => exact ⟨[], rfl⟩
  | more page next ops _ _ _ _ ih =>
    obtain ⟨later, same⟩ := ih
    exact ⟨ops ++ later, by rw [same, Store.run, Store.run, Store.run, List.foldl_append]⟩

/-- **A scan returns every covered obligation that is not revoked when it ends.** -/
theorem finds (scans : Scans s cursor records s') (inv : Sound s) {key : String}
    {value : Obligation} (found : s.obligations[key]? = some value)
    (later : OrdMap.isAfter (cursor.filter (· != "")) key = true)
    (covered : s.Covered value.identity)
    (unrevoked : ∀ value', s'.obligations[key]? = some value' → value'.status ≠ .revoked) :
    ∃ identity ∈ records, identityMatches value.identity identity = true := by
  induction scans generalizing value with
  | @last s cursor page listed complete =>
    rw [Store.revocationRequestedCredentials, inv.pendingCredentials all_through] at listed
    cases listed
    simp only [decide_eq_true_eq] at complete
    have member : (key, value) ∈ s.entries cursor := by
      rw [Store.entries, OrdMap.page_of_lt complete]
      exact OrdMap.mem_after.mpr ⟨found, later⟩
    have picked := Store.picks_covered covered (unrevoked value found)
    exact ⟨value.identity, List.mem_map.mpr ⟨_, List.mem_filter.mpr ⟨member, picked⟩, rfl⟩,
      identityMatches_refl _⟩
  | @more s s' cursor rest page next ops listed incomplete left scans ih =>
    rw [Store.revocationRequestedCredentials, inv.pendingCredentials all_through] at listed
    cases listed
    simp only [decide_eq_false_iff_not] at incomplete
    rw [if_neg incomplete] at left
    obtain ⟨last, is_last, rfl⟩ := Option.map_eq_some_iff.mp left
    obtain ⟨value1, found1, same1, ranks1⟩ := Store.run_kept ops found
    rcases OrdMap.mem_page_or_after is_last (Nat.le_of_not_lt incomplete) found later with
      here | beyond
    · -- the obligation is on this page, and was not revoked then
      obtain ⟨more, reached⟩ := scans.reaches
      obtain ⟨value', found', -, ranks'⟩ := Store.run_kept more found1
      have open_ : value.status ≠ .revoked := by
        intro revoked
        rw [revoked] at ranks1
        have ends : value'.status = .revoked := by
          cases status : value'.status with
          | revoked => rfl
          | registered =>
            rw [status] at ranks'
            exact absurd (ranks1.trans ranks') (by decide)
          | revokeRequested =>
            rw [status] at ranks'
            exact absurd (ranks1.trans ranks') (by decide)
        exact unrevoked value' (reached ▸ found') ends
      have picked := Store.picks_covered covered open_
      exact ⟨value.identity, List.mem_append_left _
        (List.mem_map.mpr ⟨_, List.mem_filter.mpr ⟨here, picked⟩, rfl⟩), identityMatches_refl _⟩
    · have after : OrdMap.isAfter ((some last.1).filter (· != "")) key = true := by
        rwa [inv.entries_last is_last]
      have covered1 := (Store.covered_congr same1).mp (Store.run_covered ops covered)
      obtain ⟨identity, member, matches_⟩ := ih (inv.run ops) found1 after covered1 unrevoked
      exact ⟨identity, List.mem_append_right _ member, identityMatches_trans same1 matches_⟩

theorem alone (inv : Sound s) (cursor : Option String) : ∃ records, Scans s cursor records s := by
  -- by induction on what is left to be listed
  induction size :
    (s.obligations.after (cursor.filter (· != ""))).length using Nat.strong_induction_on
    generalizing cursor with
  | h n ih =>
    have listed := inv.pendingCredentials all_through cursor (some .revokeRequested)
    by_cases short : (s.entries cursor).length < listLimit
    · exact ⟨_, .last _ listed (decide_eq_true short)⟩
    · obtain ⟨last, is_last⟩ : ∃ last, (s.entries cursor).getLast? = some last := by
        refine Option.ne_none_iff_exists'.mp fun none => short ?_
        rw [List.getLast?_eq_none_iff.mp none]
        exact Nat.succ_pos 100
      have enough : listLimit ≤ (s.obligations.after (cursor.filter (· != ""))).length :=
        (Nat.le_of_not_lt short).trans (List.length_take_le' _ _)
      have rest := OrdMap.after_last is_last enough
      have fewer : (s.obligations.after (some last.1)).length < n := by
        have limit : listLimit = 101 := rfl
        rw [rest, List.length_drop, size]
        omega
      obtain ⟨records, scans⟩ := ih _ fewer (some last.1) (by rw [inv.entries_last is_last])
      refine ⟨_, .more _ last.1 [] listed (decide_eq_false short) ?_ scans⟩
      rw [if_neg short, is_last]
      rfl

end Scans

/-- What a run of the authority promises from one of its states on. -/
structure StaysClosed (s : Store) (later : List Op) : Prop where
  /-- A close that is answered has closed the job, or raised the tenant's floor to its
  generation. -/
  closes : ∀ jobId now known, (s.closeJobCredentials jobId now).1 = .ok known →
    (s.closeJobCredentials jobId now).2.Closed jobId
  reaches : ∀ tenant through, (s.closeTenantCredentials tenant through).1 = .ok () →
    (s.closeTenantCredentials tenant through).2.Reached tenant (bigInt through)
  /-- An obligation stays the same obligation, and goes one step on at a time. -/
  moves : ∀ op (key : String) (value : Obligation), s.obligations[key]? = some value →
    ∃ value' : Obligation, (s.after op).obligations[key]? = some value' ∧
      identityMatches value.identity value'.identity = true ∧
      (value'.status = value.status ∨ value.status.Next value'.status)
  floor : ∀ tenant (floor : Floor), s.floors.get (floorKey tenant) = some floor →
    ∃ floor' : Floor, (s.run later).floors.get (floorKey tenant) = some floor' ∧
      bigInt floor.revokedThrough ≤ bigInt floor'.revokedThrough
  /-- No later registration for a closed job or a suspended generation resolves. -/
  closed : ∀ identity, s.Closed identity.jobId ∨ s.Reached identity.tenant identity.number →
    ((s.run later).registerCredential identity).1 ≠ .ok ()
  /-- A covered obligation is returned by every complete scan that it is not revoked before the end
  of. -/
  found : ∀ (key : String) (value : Obligation) records s',
    (s.run later).obligations[key]? = some value →
    s.Covered value.identity → Scans (s.run later) none records s' →
    (∀ value' : Obligation, s'.obligations[key]? = some value' → value'.status ≠ .revoked) →
    ∃ identity ∈ records, identityMatches value.identity identity = true
  scans : ∃ records, Scans (s.run later) none records (s.run later)

/-- **Closed jobs and suspended generations stay closed**, in every state that the operations
reach. -/
theorem credentials_stay_closed (before later : List Op) :
    StaysClosed (({} : Store).run before) later where
  closes _ _ _ := Store.closeJobCredentials_closed
  reaches _ _ := Store.closeTenantCredentials_reached
  moves op _ _ found := (Store.after_change op).kept found
  floor _ _ there := Store.run_floor later there
  closed _ covered := Store.registerCredential_covered (Store.run_covered later covered)
  found _ _ _ _ found covered scans unrevoked :=
    scans.finds ((Sound.empty.run before).run later) found rfl (Store.run_covered later covered)
      unrevoked
  scans := Scans.alone ((Sound.empty.run before).run later) none

end CorelinkRunners.Credentials
