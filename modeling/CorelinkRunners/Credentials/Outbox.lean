import CorelinkRunners.Credentials.Fences

/-!
# The revocation outbox

`revokeCompletedJob` closes a job and revokes what it still owes; `retryFailedRevocations` revokes
what was left over. Both page through the listing of the authority with a budget of pages, and the
listing walks all the obligations that were ever registered.

What is outside of the authority is an `Environment`: the revocation at the mint, the wipe of the
credential stash and the retry entries.
-/

namespace CorelinkRunners.Credentials

open Kit Store

/-! ## The outbox -/

structure Environment where
  mintAuthKey : Bool
  revokeRemote : CredentialIdentity → Except String Unit
  wipeStash : Option (CredentialIdentity → Except String Unit)
  /-- The deletion of a retry entry, if the store of them is bound. -/
  deleteRetry : Option (CredentialIdentity → Except String Unit)
  now : CredentialIdentity → Int

def maxListPages : Nat := 128

/-- The loop over the pages: the records so far, and the texts of its two errors. -/
def pageAll (fetch : Option String → Except String CredentialPage) (incomplete exceeded : String) :
    Nat → Option String → List CredentialIdentity → Except String (List CredentialIdentity)
  | 0, _, _ => .error exceeded
  | pages + 1, cursor, records =>
    match fetch cursor with
    | .error e => .error e
    | .ok page =>
      if page.complete then .ok (records ++ page.records)
      else match page.cursor with
        | none => .error incomplete
        | some next =>
          if next = "" ∨ cursor = some next then .error incomplete
          else pageAll fetch incomplete exceeded pages (some next) (records ++ page.records)

def pendingAll (s : Store) (selection : Selection) : Except String (List CredentialIdentity) :=
  pageAll (fun cursor => s.pendingCredentials selection cursor none)
    "incomplete credential authority page" "credential authority page bound exceeded" maxListPages
    none []

def requestedAll (s : Store) : Except String (List CredentialIdentity) :=
  pageAll s.revocationRequestedCredentials "incomplete credential authority retry page"
    "credential authority retry page bound exceeded" maxListPages none []

def cleanup (env : Environment) (identity : CredentialIdentity) : Except String Unit :=
  let remote := if env.mintAuthKey then env.revokeRemote identity
    else .error "missing mint auth key"
  let local_ : Except String Unit := match env.wipeStash with
    | none => .error "credential stash binding unavailable"
    | some wipe => wipe identity
  match remote, local_ with
  | .error e, _ => .error e
  | .ok (), .error e => .error e
  | .ok (), .ok () => .ok ()

def revokeOne (env : Environment) (s : Store) (identity : CredentialIdentity) : Bool × Store :=
  match s.requestCredentialRevocation identity with
  | (.error _, s1) => (false, s1)
  | (.ok (), s1) =>
    match cleanup env identity with
    | .error _ => (false, s1)
    | .ok () =>
      match s1.confirmCredentialRevoked identity (env.now identity) with
      | (.error _, s2) => (false, s2)
      | (.ok (), s2) =>
        match env.deleteRetry with
        | none => (true, s2)
        | some delete =>
          match delete identity with
          | .error _ => (false, s2)
          | .ok () => (true, s2)

def revokeEach (env : Environment) (s : Store) : List CredentialIdentity → Nat × Store
  | [] => (0, s)
  | identity :: rest =>
    let (done, s1) := revokeOne env s identity
    let (count, s2) := revokeEach env s1 rest
    (if done then count + 1 else count, s2)

def revokeCompletedJob (env : Environment) (s : Store) (jobId : String)
    (derivedTenant : Option String) (now : Int) : Except String Bool × Store :=
  match s.closeJobCredentials jobId now with
  | (.error e, s1) => (.error e, s1)
  | (.ok false, s1) =>
    (.error ("credential authority has no migrated obligation for job " ++ jobId), s1)
  | (.ok true, s1) =>
    match pendingAll s1 (.job jobId) with
    | .error e => (.error e, s1)
    | .ok identities =>
      if identities.isEmpty then (.ok true, s1)
      else if (derivedTenant.filter (· != "")).any fun tenant =>
          identities.any fun identity => identity.tenant != tenant then
        (.error "credential tenant attribution conflict", s1)
      else
        let (count, s2) := revokeEach env s1 identities
        if count < identities.length then
          (.error ("credential revoke pending for job " ++ jobId), s2)
        else (.ok (decide (0 < count)), s2)

def retryFailedRevocations (env : Environment) (s : Store) : Except String Nat × Store :=
  if !env.mintAuthKey then (.ok 0, s)
  else match requestedAll s with
    | .error e => (.error e, s)
    | .ok identities =>
      let (count, s') := revokeEach env s identities
      (.ok count, s')

/-! ## Collecting -/

section Collecting

variable {s : Store}

/-- The listing as a whole: the entries after a cursor that it has. -/
def Store.remaining (s : Store) (cursor : Option String) : List (String × Obligation) :=
  s.obligations.after (cursor.filter (· != ""))

theorem Store.entries_eq (s : Store) (cursor : Option String) :
    s.entries cursor = (s.remaining cursor).take listLimit := rfl

/-- **The loop collects the whole listing, if the pages of the budget are enough for it.** -/
theorem pageAll_eq (inv : Sound s) {selection : Selection}
    (valid : ∀ g ∈ selection.through?, isI64 g = true) (requested : Option Status)
    (incomplete exceeded : String) (pages : Nat) (cursor : Option String)
    (records : List CredentialIdentity) :
    pageAll (fun cursor => s.pendingCredentials selection cursor requested) incomplete
        exceeded pages cursor records =
      if (s.remaining cursor).length < pages * listLimit then
        .ok (records ++ ((s.remaining cursor).filter fun entry =>
          s.picks selection requested entry.2).map (·.2.identity))
      else .error exceeded := by
  induction pages generalizing cursor records with
  | zero => simp [pageAll]
  | succ pages ih =>
    have limit : listLimit = 101 := rfl
    rw [pageAll, inv.pendingCredentials valid]
    dsimp only
    by_cases short : (s.entries cursor).length < listLimit
    · have whole : s.entries cursor = s.remaining cursor := OrdMap.page_of_lt short
      rw [decide_eq_true short, if_pos rfl, if_pos, whole]
      rw [whole] at short
      rw [Nat.add_mul]
      omega
    · have enough : listLimit ≤ (s.remaining cursor).length :=
        (Nat.le_of_not_lt short).trans (List.length_take_le' _ _)
      obtain ⟨last, is_last⟩ : ∃ last, (s.entries cursor).getLast? = some last := by
        refine Option.ne_none_iff_exists'.mp fun none => short ?_
        rw [List.getLast?_eq_none_iff.mp none]
        exact Nat.succ_pos 100
      have cursor_ok := inv.entries_last is_last
      have rest : s.remaining (some last.1) = (s.remaining cursor).drop listLimit := by
        rw [remaining, cursor_ok]
        exact OrdMap.after_last is_last enough
      have moved : ¬(last.1 = "" ∨ cursor = some last.1) := by
        rintro (empty | rfl)
        · rw [empty] at cursor_ok
          nomatch cursor_ok
        · have beyond := (OrdMap.get_of_mem_page (List.mem_of_getLast? is_last)).2
          rw [cursor_ok] at beyond
          simp [OrdMap.isAfter] at beyond
      rw [decide_eq_false short, if_neg Bool.false_ne_true, if_neg short, is_last]
      simp only [Option.map_some]
      rw [if_neg moved, ih, rest, List.length_drop, s.entries_eq]
      have split : (s.remaining cursor).length - listLimit < pages * listLimit ↔
          (s.remaining cursor).length < (pages + 1) * listLimit := by
        rw [Nat.add_mul]
        omega
      by_cases room : (s.remaining cursor).length < (pages + 1) * listLimit
      · rw [if_pos (split.mpr room), if_pos room, List.append_assoc, ← List.map_append,
          ← List.filter_append, List.take_append_drop]
      · rw [if_neg (mt split.mp room), if_neg room]

end Collecting

/-! ## Revoking -/

structure Environment.Succeeds (env : Environment) : Prop where
  mint : env.mintAuthKey = true
  remote : ∀ identity, env.revokeRemote identity = .ok ()
  stash : ∃ wipe, env.wipeStash = some wipe ∧ ∀ identity, wipe identity = .ok ()
  retry : ∀ delete, env.deleteRetry = some delete → ∀ identity, delete identity = .ok ()

theorem Environment.Succeeds.cleanup {env : Environment} (good : env.Succeeds)
    (identity : CredentialIdentity) : cleanup env identity = .ok () := by
  obtain ⟨wipe, bound, wipes⟩ := good.stash
  simp only [Credentials.cleanup, good.mint, if_true, good.remote, bound, wipes]

theorem identityMatches_symm {a b : CredentialIdentity} (h : identityMatches a b = true) :
    identityMatches b a = true := by
  rw [identityMatches_iff] at h ⊢
  exact ⟨h.1.symm, h.2.1.symm, h.2.2.1.symm, h.2.2.2.symm⟩

structure Store.Owes (s : Store) (identity : CredentialIdentity) : Prop where
  valid : requireIdentity identity = .ok ()
  found : ∃ value, s.obligations[credentialKey identity]? = some value ∧
    identityMatches value.identity identity = true

def Store.Revoked (s : Store) (key : String) : Prop :=
  ∃ value, s.obligations[key]? = some value ∧ value.status = .revoked

theorem Status.eq_revoked_of_rank {status : Status} (h : Status.revoked.rank ≤ status.rank) :
    status = .revoked := by
  cases status with
  | revoked => rfl
  | registered => exact absurd h (by decide)
  | revokeRequested => exact absurd h (by decide)

section Revoking

variable {s : Store} {env : Environment} {identity : CredentialIdentity}

theorem Store.Owes.run (owes : s.Owes identity) (ops : List Op) : (s.run ops).Owes identity := by
  obtain ⟨value, found, same⟩ := owes.found
  obtain ⟨value', found', same', -⟩ := run_kept ops found
  exact ⟨owes.valid, value', found', identityMatches_trans (identityMatches_symm same') same⟩

theorem Store.Revoked.run {key : String} (revoked : s.Revoked key) (ops : List Op) :
    (s.run ops).Revoked key := by
  obtain ⟨value, found, is⟩ := revoked
  obtain ⟨value', found', -, ranks⟩ := run_kept ops found
  exact ⟨value', found', Status.eq_revoked_of_rank (is ▸ ranks)⟩

theorem Sound.lookup (inv : Sound s) {value : Obligation}
    (found : s.obligations[credentialKey identity]? = some value)
    (same : identityMatches value.identity identity = true) : s.lookup identity = .ok value := by
  unfold Store.lookup
  rw [found]
  dsimp only
  rw [inv.validateCredential found]
  rw [if_pos same]

theorem Sound.confirms (inv : Sound s) (owes : s.Owes identity)
    (requested : ∀ value, s.obligations[credentialKey identity]? = some value →
      value.status ≠ .registered) (now : Int) :
    (s.confirmCredentialRevoked identity now).1 = .ok () ∧
      (s.confirmCredentialRevoked identity now).2.Revoked (credentialKey identity) := by
  obtain ⟨value, found, same⟩ := owes.found
  have at_ := (inv.obligations _ _ found).1
  unfold confirmCredentialRevoked
  rw [owes.valid]
  rw [inv.lookup found same]
  dsimp only
  cases status : value.status with
  | registered => exact absurd status (requested value found)
  | revoked => exact ⟨rfl, value, found, status⟩
  | revokeRequested =>
    refine ⟨rfl, { value with status := .revoked, confirmedAtMs := some now }, ?_, rfl⟩
    rw [get_putObligation, if_pos at_.symm]

theorem Sound.requests (inv : Sound s) (owes : s.Owes identity) :
    (s.requestCredentialRevocation identity).1 = .ok () ∧
      ∀ value, (s.requestCredentialRevocation identity).2.obligations[credentialKey identity]? =
        some value → value.status ≠ .registered := by
  obtain ⟨value, found, same⟩ := owes.found
  have at_ := (inv.obligations _ _ found).1
  unfold requestCredentialRevocation
  rw [owes.valid]
  rw [inv.lookup found same]
  dsimp only
  cases status : value.status with
  | registered =>
    refine ⟨rfl, fun value' found' => ?_⟩
    rw [get_putObligation, if_pos at_.symm] at found'
    cases found'
    exact nofun
  | revokeRequested =>
    refine ⟨rfl, fun value' found' => ?_⟩
    cases found.symm.trans found'
    exact fun registered => nomatch status.symm.trans registered
  | revoked =>
    refine ⟨rfl, fun value' found' => ?_⟩
    cases found.symm.trans found'
    exact fun registered => nomatch status.symm.trans registered

theorem revokeOne_ok (good : env.Succeeds) (inv : Sound s) (owes : s.Owes identity) :
    (revokeOne env s identity).1 = true ∧
      (revokeOne env s identity).2 = s.run
      [.request identity, .confirm identity (env.now identity)] ∧
      (revokeOne env s identity).2.Revoked (credentialKey identity) := by
  obtain ⟨ok1, requested⟩ := inv.requests owes
  have inv1 : Sound (s.requestCredentialRevocation identity).2 :=
    inv.change (s.after_change (.request identity))
  have owes1 : (s.requestCredentialRevocation identity).2.Owes identity :=
    owes.run [.request identity]
  obtain ⟨ok2, revoked⟩ := inv1.confirms owes1 requested (env.now identity)
  have whole : revokeOne env s identity =
      (true, s.run [.request identity, .confirm identity (env.now identity)]) := by
    have first : s.requestCredentialRevocation identity =
        (.ok (), s.after (.request identity)) := Prod.ext ok1 rfl
    have second : (s.after (.request identity)).confirmCredentialRevoked identity
        (env.now identity) =
        (.ok (), s.run [.request identity, .confirm identity (env.now identity)]) :=
        Prod.ext ok2 rfl
    unfold revokeOne
    rw [first]
    rw [good.cleanup identity]
    dsimp only
    rw [second]
    cases bound : env.deleteRetry with
    | none => rfl
    | some delete =>
      dsimp only
      rw [good.retry delete bound identity]
  rw [whole]
  exact ⟨rfl, rfl, revoked⟩

theorem revokeEach_ok (good : env.Succeeds) {identities : List CredentialIdentity} (inv : Sound s)
    (owes : ∀ identity ∈ identities, s.Owes identity) :
    (revokeEach env s identities).1 = identities.length ∧
      (∃ ops, (revokeEach env s identities).2 = s.run ops) ∧
      ∀ identity ∈ identities, (revokeEach env s identities).2.Revoked
        (credentialKey identity) := by
  induction identities generalizing s with
  | nil => exact ⟨rfl, ⟨[], rfl⟩, nofun⟩
  | cons identity rest ih =>
    obtain ⟨done, after, revoked⟩ := revokeOne_ok good inv (owes identity List.mem_cons_self)
    have inv1 : Sound (revokeOne env s identity).2 := after ▸ inv.run _
    obtain ⟨count, ⟨ops, later⟩, each⟩ := ih inv1 fun other member =>
      after ▸ (owes other (List.mem_cons_of_mem _ member)).run _
    refine ⟨?_, ⟨[.request identity, .confirm identity (env.now identity)] ++ ops, ?_⟩, ?_⟩
    · simp only [revokeEach, done, if_true, count, List.length_cons]
    · change (revokeEach env (revokeOne env s identity).2 rest).2 = _
      rw [later, after, run, run, run, List.foldl_append]
    · intro other member
      change (revokeEach env (revokeOne env s identity).2 rest).2.Revoked _
      rcases List.mem_cons.mp member with rfl | member
      · rw [later]
        exact revoked.run ops
      · exact each other member

end Revoking

/-! ## The outbox within its budget -/

section Budget

variable {s : Store} {env : Environment} {pick : Obligation → Bool}

theorem Sound.owes_of_mem (inv : Sound s) {identity : CredentialIdentity}
    (member : identity ∈ ((s.remaining none).filter fun entry => pick entry.2).map (·.2.identity)) :
    s.Owes identity := by
  obtain ⟨⟨key, value⟩, there, rfl⟩ := List.mem_map.mp member
  obtain ⟨found, -⟩ := OrdMap.mem_after.mp (List.mem_filter.mp there).1
  obtain ⟨rfl, valid⟩ := inv.obligations _ _ found
  refine ⟨?_, value, found, identityMatches_refl _⟩
  rw [requireIdentity, valid]

variable {key : String} {value : Obligation}

theorem Store.mem_listing (found : s.obligations[key]? = some value) (picked : pick value = true) :
    value.identity ∈ ((s.remaining none).filter fun entry => pick entry.2).map (·.2.identity) :=
  List.mem_map.mpr ⟨(key, value),
    List.mem_filter.mpr ⟨OrdMap.mem_after.mpr ⟨found, rfl⟩, picked⟩, rfl⟩

theorem length_remaining (s : Store) : (s.remaining none).length = s.obligations.size := by
  change (s.obligations.after none).length = _
  rw [OrdMap.after_none, Std.ExtTreeMap.length_toList]

variable {jobId : String}

theorem picks_job :
    s.picks (.job jobId) none value = true ↔ value.identity.jobId = jobId ∧
    value.status ≠ .revoked := by
  simp [picks, Selection.matches_]

theorem picks_requested : s.picks .all (some .revokeRequested) value = true ↔
    value.status = .revokeRequested ∨ value.status = .registered ∧ s.Covered value.identity := by
  have closed : ((s.fences.get (fenceKey value.identity.jobId)).isSome ||
      covers (s.floors.get (floorKey value.identity.tenant)) value.identity) = true ↔
        s.Covered value.identity := closed_iff rfl rfl
  constructor
  · intro picked
    cases status : value.status with
    | revokeRequested => exact .inl rfl
    | revoked => simp [picks, status] at picked
    | registered =>
      refine .inr ⟨rfl, closed.mp ?_⟩
      simpa [picks, Selection.matches_, Selection.through?, status, covers, Option.any_map,
        Function.comp_def] using picked
  · rintro (requested | ⟨registered, covered⟩)
    · simp [picks, Selection.matches_, requested]
    · exact picks_covered covered (by rw [registered]; decide)

theorem closeJobCredentials_known (inv : Sound s) (found : s.obligations[key]? = some value)
    (about : value.identity.jobId = jobId) (now : Int) :
    ∃ s1, s.closeJobCredentials jobId now = (.ok true, s1) ∧ s1.obligations = s.obligations := by
  obtain ⟨at_, valid⟩ := inv.obligations key value found
  have named : jobId ≠ "" := by
    rintro rfl
    rw [validIdentity, if_pos (.inl about)] at valid
    nomatch valid
  have listed : (key, value) ∈ s.obligations.toList.filter fun entry =>
      (jobPrefix jobId).toList.isPrefixOf entry.1.toList := by
    refine List.mem_filter.mpr ⟨Std.ExtTreeMap.mem_toList_iff_getElem?_eq_some.mpr found, ?_⟩
    rw [List.isPrefixOf_iff_prefix, at_, jobPrefix_isPrefix]
    exact about
  have passes : (s.jobPage jobId).findSome? (listedError jobId) = none := by
    refine List.findSome?_eq_none_iff.mpr fun entry member => ?_
    obtain ⟨there, is_prefix⟩ := List.mem_filter.mp (List.mem_of_mem_take member)
    have stored := Std.ExtTreeMap.mem_toList_iff_getElem?_eq_some.mp there
    rw [List.isPrefixOf_iff_prefix, (inv.obligations _ _ stored).1, jobPrefix_isPrefix] at is_prefix
    rw [listedError, inv.validateCredential stored]
    exact if_neg (not_not.mpr is_prefix)
  have known : (s.jobPage jobId).isEmpty = false := by
    rw [jobPage, List.isEmpty_eq_false_iff]
    intro none
    rcases List.take_eq_nil_iff.mp none with absurd_ | empty
    · nomatch absurd_
    · rw [empty] at listed
      nomatch listed
  unfold closeJobCredentials
  rw [if_neg named, inv.fenceOf]
  rw [passes]
  rw [known]
  cases s.fences.get (fenceKey jobId) with
  | some fence => exact ⟨s, rfl, rfl⟩
  | none => exact ⟨_, rfl, rfl⟩

theorem revokeCompletedJob_ok (good : env.Succeeds) (inv : Sound s)
    (few : s.obligations.size < maxListPages * listLimit) (found : s.obligations[key]? = some value)
    (about : value.identity.jobId = jobId) (derivedTenant : Option String) (now : Int)
    (attributed : ∀ tenant, derivedTenant = some tenant → tenant ≠ "" →
      ∀ (key : String) (value : Obligation), s.obligations[key]? = some value →
        value.identity.jobId = jobId → value.status ≠ .revoked → value.identity.tenant = tenant) :
    ∃ answer s', revokeCompletedJob env s jobId derivedTenant now = (.ok answer, s') ∧
      ∀ (key : String) (value : Obligation), s.obligations[key]? = some value →
        value.identity.jobId = jobId → s'.Revoked key := by
  obtain ⟨s1, closes, same⟩ := closeJobCredentials_known inv found about now
  have inv1 : Sound s1 := by
    have after := inv.change (s.after_change (.closeJob jobId now))
    rwa [Store.after, closes] at after
  have through : ∀ g ∈ (Selection.job jobId).through?, isI64 g = true := by
    intro g named
    nomatch (named : none = some g)
  have collects : pendingAll s1 (.job jobId) = .ok (((s1.remaining none).filter fun entry =>
      s1.picks (.job jobId) none entry.2).map (·.2.identity)) := by
    rw [pendingAll, pageAll_eq inv1 through, if_pos, List.nil_append]
    rwa [length_remaining, same]
  obtain ⟨count, ⟨ops, after⟩, each⟩ := revokeEach_ok good inv1 fun _ => inv1.owes_of_mem
  generalize listed : ((s1.remaining none).filter fun entry =>
    s1.picks (.job jobId) none entry.2).map (·.2.identity) = identities at collects count after each
  -- what is not listed is revoked already
  have ends (s' : Store) (revoked : ∀ identity ∈ identities, s'.Revoked (credentialKey identity))
      (kept : ∀ key, s1.Revoked key → s'.Revoked key) (key : String) (value : Obligation)
      (there : s.obligations[key]? = some value) (of_job : value.identity.jobId = jobId) :
      s'.Revoked key := by
    rw [← same] at there
    by_cases open_ : value.status = .revoked
    · exact kept key ⟨value, there, open_⟩
    · have picked : s1.picks (.job jobId) none value = true := picks_job.mpr ⟨of_job, open_⟩
      have member := mem_listing there picked
      rw [listed] at member
      rw [(inv1.obligations key value there).1]
      exact revoked _ member
  unfold revokeCompletedJob
  rw [closes]
  dsimp only
  rw [collects]
  dsimp only
  split
  next none =>
    refine ⟨true, s1, rfl, ends s1 (fun identity member => ?_) fun _ revoked => revoked⟩
    rw [List.isEmpty_iff.mp none] at member
    nomatch member
  next some_ =>
    have agrees : ((derivedTenant.filter (· != "")).any fun tenant =>
        identities.any fun identity => identity.tenant != tenant) = false := by
      rw [Option.any_eq_false]
      intro tenant derived
      obtain ⟨derived, named⟩ := Option.filter_eq_some_iff.mp derived
      rw [List.any_eq_false]
      intro identity member
      rw [← listed] at member
      obtain ⟨⟨key, value⟩, there, rfl⟩ := List.mem_map.mp member
      obtain ⟨inside, picked⟩ := List.mem_filter.mp there
      obtain ⟨of_job, open_⟩ := picks_job.mp picked
      have stored := (OrdMap.mem_after.mp inside).1
      rw [same] at stored
      simpa using attributed tenant derived (by simpa using named) key value stored of_job open_
    rw [agrees, if_neg Bool.false_ne_true, if_neg (by rw [count]; exact lt_irrefl _)]
    exact ⟨_, _, rfl, ends _ each fun key revoked => after ▸ revoked.run ops⟩

theorem retryFailedRevocations_ok (good : env.Succeeds) (inv : Sound s)
    (few : s.obligations.size < maxListPages * listLimit) :
    ∃ count s', retryFailedRevocations env s = (.ok count, s') ∧
      ∀ (key : String) (value : Obligation), s.obligations[key]? = some value →
        value.status = .revokeRequested ∨ value.status = .registered ∧ s.Covered value.identity →
        s'.Revoked key := by
  have collects : requestedAll s = .ok (((s.remaining none).filter fun entry =>
      s.picks .all (some .revokeRequested) entry.2).map (·.2.identity)) := by
    have pages := pageAll_eq inv all_through (some .revokeRequested)
      "incomplete credential authority retry page" "credential authority retry page bound exceeded"
      maxListPages none []
    rw [if_pos (by rwa [length_remaining]), List.nil_append] at pages
    exact pages
  obtain ⟨-, -, each⟩ := revokeEach_ok good inv fun _ => inv.owes_of_mem
  unfold retryFailedRevocations
  rw [good.mint, Bool.not_true, if_neg Bool.false_ne_true, collects]
  refine ⟨_, _, rfl, fun key value found asked => ?_⟩
  rw [(inv.obligations key value found).1]
  exact each _ (mem_listing found (picks_requested.mpr asked))

end Budget

/-- **Revocation keeps working within the budget of pages.** In every state that the operations
reach and that has fewer obligations than the pages of the budget list, with everything outside of
the authority succeeding: a job with obligations is revoked, unless the tenant that the caller
derived is not theirs, and what is left over is revoked. -/
theorem revocation_within_budget (ops : List Op) (env : Environment) (good : env.Succeeds)
    (s : Store)
    (reached : s = ({} : Store).run ops) (few : s.obligations.size < maxListPages * listLimit) :
    (∀ jobId derivedTenant now,
      (∃ (key : String) (value : Obligation), s.obligations[key]? = some value ∧
        value.identity.jobId = jobId) → (∀ tenant, derivedTenant = some tenant → tenant ≠ "" →
        ∀ (key : String) (value : Obligation), s.obligations[key]? = some value →
          value.identity.jobId = jobId → value.status ≠ .revoked → value.identity.tenant = tenant) →
      ∃ answer s', revokeCompletedJob env s jobId derivedTenant now = (.ok answer, s') ∧
        ∀ (key : String) (value : Obligation), s.obligations[key]? = some value →
          value.identity.jobId = jobId → s'.Revoked key) ∧
    ∃ count s', retryFailedRevocations env s = (.ok count, s') ∧
      ∀ (key : String) (value : Obligation), s.obligations[key]? = some value →
        value.status = .revokeRequested ∨ value.status = .registered ∧ s.Covered value.identity →
        s'.Revoked key := by
  have inv : Sound s := reached ▸ Sound.empty.run ops
  refine ⟨?_, retryFailedRevocations_ok good inv few⟩
  rintro jobId derivedTenant now ⟨key, value, found, about⟩ attributed
  exact revokeCompletedJob_ok good inv few found about derivedTenant now attributed

def calmEnvironment : Environment where
  mintAuthKey := true
  revokeRemote _ := .ok ()
  wipeStash := some fun _ => .ok ()
  deleteRetry := none
  now _ := 0

theorem calmEnvironment_succeeds : calmEnvironment.Succeeds :=
  ⟨rfl, fun _ => rfl, ⟨_, rfl, fun _ => rfl⟩, nofun⟩

def jobCredential (n : Nat) : CredentialIdentity where
  jobId := "job"
  tenant := "tenant"
  patId := .ofList (List.replicate (n + 1) 'p')
  lifecycleGeneration := none

def registrations (n : Nat) : List Op := (List.range n).map fun i => .register (jobCredential i)

theorem revocation_within_budget_two : (({} : Store).run (registrations 2)).obligations.size = 2 ∧
    ∃ answer s', revokeCompletedJob calmEnvironment (({} : Store).run (registrations 2)) "job"
      none 5 = (.ok answer, s') ∧ s'.Revoked (credentialKey (jobCredential 1)) := by
  refine ⟨by decide +kernel, ?_⟩
  have there : (({} : Store).run (registrations 2)).obligations[credentialKey (jobCredential 1)]? =
      some ⟨jobCredential 1, .registered, none⟩ := by decide +kernel
  obtain ⟨answer, s', returns, revoked⟩ :=
    (revocation_within_budget (registrations 2) calmEnvironment
    calmEnvironment_succeeds _ rfl (by decide +kernel)).1 "job" none 5 ⟨_, _, there, rfl⟩ nofun
  exact ⟨answer, s', returns, revoked _ _ there rfl⟩

/-! ## Beyond the budget -/

theorem jobCredential_key_inj {i j : Nat} (h : credentialKey (jobCredential i) =
    credentialKey (jobCredential j)) : i = j := by
  have pats := congrArg String.toList (credentialKey_inj h).2.2
  simp only [jobCredential, String.toList_ofList] at pats
  simpa using congrArg List.length pats

theorem requireIdentity_jobCredential (n : Nat) : requireIdentity (jobCredential n) = .ok () := by
  have named : (jobCredential n).patId ≠ "" := by
    intro empty
    have chars := congrArg String.toList empty
    simp only [jobCredential, String.toList_ofList, List.replicate_succ] at chars
    nomatch chars
  have valid : validIdentity (jobCredential n) = .ok true := by
    have job : (jobCredential n).jobId ≠ "" := show "job" ≠ "" by decide
    have tenant : (jobCredential n).tenant ≠ "" := show "tenant" ≠ "" by decide
    rw [validIdentity, if_neg (not_or.mpr ⟨job, not_or.mpr ⟨tenant, named⟩⟩)]
    rfl
  rw [requireIdentity, valid]

/-- Registrations of different credentials all stay: nothing is ever forgotten. -/
theorem run_registrations (n : Nat) : ∃ s : Store, ({} : Store).run (registrations n) = s ∧
    s.fences = ∅ ∧ s.floors = ∅ ∧ s.obligations.size = n ∧
    ∀ (key : String), s.obligations[key]? = none ∨ ∃ i < n,
      key = credentialKey (jobCredential i) := by
  induction n with
  | zero => exact ⟨{}, rfl, rfl, rfl, rfl, fun key => .inl (by simp)⟩
  | succ n ih =>
    obtain ⟨s, reached, fences, floors, size, keys⟩ := ih
    have fresh : s.obligations[credentialKey (jobCredential n)]? = none := by
      rcases keys (credentialKey (jobCredential n)) with absent | ⟨i, less, same⟩
      · exact absent
      · exact absurd (jobCredential_key_inj same) (Nat.ne_of_gt less)
    have next : s.after (.register (jobCredential n)) =
        s.putObligation ⟨jobCredential n, .registered, none⟩ := by
      rw [after, registerCredential, requireIdentity_jobCredential]
      simp only [fenceOf, floorOf, fences, floors, register, fresh]
      rfl
    refine ⟨s.after (.register (jobCredential n)), ?_, ?_, ?_, ?_, fun key => ?_⟩
    · rw [registrations, List.range_succ, List.map_append, run, List.foldl_append]
      change List.foldl after ((({} : Store).run (registrations n))) _ = _
      rw [reached]
      rfl
    · rw [next]
      exact fences
    · rw [next]
      exact floors
    · rw [next]
      change (s.obligations.insert _ _).size = n + 1
      rw [Std.ExtTreeMap.size_insert, if_neg, size]
      rw [(OrdMap.contains_eq_false_iff_get _ _).mpr fresh]
      exact Bool.false_ne_true
    · rw [next, get_putObligation]
      split
      next same => exact .inr ⟨n, Nat.lt_succ_self n, same.symm⟩
      rcases keys key with absent | ⟨i, less, same⟩
      · exact .inl absent
      · exact .inr ⟨i, Nat.lt_succ_of_lt less, same⟩

/-- **The listing walks all obligations that were ever registered**, so a job whose history is
longer than the budget of pages is not revoked. -/
theorem long_history_refused : ¬∀ (ops : List Op) (env : Environment) (jobId : String) (now : Int),
    env.Succeeds →
    (∃ (key : String) (value : Obligation), (({} : Store).run ops).obligations[key]? = some value ∧
      value.identity.jobId = jobId) →
    ∃ answer s', revokeCompletedJob env (({} : Store).run ops) jobId none now =
      (.ok answer, s') := by
  intro claim
  obtain ⟨s, reached, -, -, size, keys⟩ := run_registrations (maxListPages * listLimit)
  have inv : Sound s := reached ▸ Sound.empty.run _
  -- there is an obligation, since the storage is not empty
  obtain ⟨⟨key, value⟩, there⟩ : ∃ entry, entry ∈ s.obligations.toList := by
    refine List.exists_mem_of_length_pos ?_
    rw [Std.ExtTreeMap.length_toList, size]
    decide
  have found := Std.ExtTreeMap.mem_toList_iff_getElem?_eq_some.mp there
  have about : value.identity.jobId = "job" := by
    rcases keys key with absent | ⟨i, -, same⟩
    · nomatch absent.symm.trans found
    · exact (credentialKey_inj ((inv.obligations key value found).1.symm.trans same)).1
  obtain ⟨answer, s', returns⟩ :=
    claim (registrations (maxListPages * listLimit)) calmEnvironment "job" 0
    calmEnvironment_succeeds (reached ▸ ⟨key, value, found, about⟩)
  obtain ⟨s1, closes, same⟩ := closeJobCredentials_known inv found about 0
  have inv1 : Sound s1 := by
    have after := inv.change (s.after_change (.closeJob "job" 0))
    rwa [Store.after, closes] at after
  have through : ∀ g ∈ (Selection.job "job").through?, isI64 g = true := by
    intro g named
    nomatch (named : none = some g)
  have stops : pendingAll s1 (.job "job") = .error "credential authority page bound exceeded" := by
    rw [pendingAll, pageAll_eq inv1 through, if_neg]
    rw [length_remaining, same, size]
    exact lt_irrefl _
  rw [reached, revokeCompletedJob, closes] at returns
  dsimp only at returns
  rw [stops] at returns
  nomatch returns

end CorelinkRunners.Credentials
