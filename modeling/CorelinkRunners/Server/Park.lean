import CorelinkRunners.Contracts
import CorelinkRunners.Kit.Run

/-!
# The park permits of a tenant

A queued acquire takes a permit of its tenant's park semaphore before it parks, and gives it back
when it is answered. The semaphore is looked up (or created) in a map, and its permit is taken in a
second step; a request that has given its permit back prunes the map entry if nobody seems to use
it. All of it interleaves.

A semaphore that is pruned lives on in the hands of the requests that looked it up before, while the
next look-up creates another one with a full budget (`parked_over_cap`).
-/

namespace CorelinkRunners.Server.Park

open Kit

/-- A request that holds a reference to a semaphore. -/
structure Waiter where
  tenant : TenantId
  sem : Nat
deriving DecidableEq

/-- The park permits of an `AdmissionQueue`, and where the `acquire_queued` calls stand. -/
structure AdmissionQueue where
  parkCap : Nat
  /-- The semaphores created so far; a reference is a number below. -/
  created : Nat := 0
  availablePermits : Nat → Nat := fun _ => 0
  parkPermits : OrdMap TenantId Nat := ∅
  /-- Between `park_semaphore` and `try_acquire_owned`. -/
  looking : List Waiter := []
  parked : List Waiter := []
  /-- Between the release of the permit and `maybe_prune_park_semaphore`. -/
  leaving : List TenantId := []

namespace AdmissionQueue

variable (self : AdmissionQueue)

/-- A queue without requests; a cap of 0 is coerced to 1. -/
def withParkCap (parkCap : Nat) : AdmissionQueue := { parkCap := max parkCap 1 }

def parkSemaphore (tenant : TenantId) : Nat × AdmissionQueue :=
  match self.parkPermits[tenant]? with
  | some sem => (sem, self)
  | none => (self.created,
      { self with
        created := self.created + 1
        availablePermits := Function.update self.availablePermits self.created self.parkCap
        parkPermits := self.parkPermits.insert tenant self.created })

/-- Does the prune of a tenant remove its entry? `pending` is the queued work it reads first. -/
def prunes (tenant : TenantId) (pending : Nat) : Bool :=
  pending = 0 && (self.parkPermits[tenant]?).any fun sem => self.parkCap ≤ self.availablePermits sem

def maybePruneParkSemaphore (tenant : TenantId) (pending : Nat) : AdmissionQueue :=
  if self.prunes tenant pending then { self with parkPermits := self.parkPermits.erase tenant }
  else self

inductive Step
  | lookUp (tenant : TenantId)
  /-- Without a permit left the request is shed. -/
  | tryAcquire (request : Waiter)
  | release (request : Waiter)
  | prune (tenant : TenantId) (pending : Nat)

def step : Step → AdmissionQueue
  | .lookUp tenant =>
    let (sem, self) := self.parkSemaphore tenant
    { self with looking := ⟨tenant, sem⟩ :: self.looking }
  | .tryAcquire request =>
    if request ∈ self.looking then
      let self := { self with looking := self.looking.erase request }
      if 0 < self.availablePermits request.sem then
        { self with
          availablePermits :=
            Function.update self.availablePermits request.sem
              (self.availablePermits request.sem - 1)
          parked := request :: self.parked }
      else self
    else self
  | .release request =>
    if request ∈ self.parked then
      { self with
        availablePermits :=
          Function.update self.availablePermits request.sem (self.availablePermits request.sem + 1)
        parked := self.parked.erase request
        leaving := request.tenant :: self.leaving }
    else self
  | .prune tenant pending =>
    if tenant ∈ self.leaving then
      { self with leaving := self.leaving.erase tenant }.maybePruneParkSemaphore tenant pending
    else self

def parkedBy (tenant : TenantId) : Nat := self.parked.countP fun request => request.tenant = tenant

/-- No request stands between the look-up and the acquire of an entry that is pruned. -/
def Meets : Step → Prop
  | .prune tenant pending =>
    self.prunes tenant pending = true → ∀ request ∈ self.looking, request.tenant ≠ tenant
  | _ => True

instance (event : Step) : Decidable (self.Meets event) := by
  cases event <;> dsimp only [Meets] <;> infer_instance

def holders (parked : List Waiter) (sem : Nat) : Nat :=
  parked.countP fun request => request.sem = sem

/-- **The permits are accounted for**, and every reference is to the semaphore in the map. -/
structure Sound (queue : AdmissionQueue) : Prop where
  budget : ∀ sem < queue.created, queue.availablePermits sem + holders queue.parked sem =
    queue.parkCap
  known : ∀ (tenant : TenantId) (sem : Nat), queue.parkPermits[tenant]? = some sem →
    sem < queue.created
  looking : ∀ request ∈ queue.looking, queue.parkPermits[request.tenant]? = some request.sem
  parked : ∀ request ∈ queue.parked, queue.parkPermits[request.tenant]? = some request.sem

variable {self}

theorem holders_cons (request : Waiter) (parked : List Waiter) (sem : Nat) :
    holders (request :: parked) sem = holders parked sem + if sem = request.sem then 1 else 0 := by
  simp [holders, List.countP_cons, eq_comm]

theorem holders_erase {request : Waiter} {parked : List Waiter} (holds : request ∈ parked)
    (sem : Nat) : holders parked sem =
      holders (parked.erase request) sem + if sem = request.sem then 1 else 0 := by
  rw [← holders_cons]
  exact (List.perm_cons_erase holds).countP_eq _

theorem Sound.parkedBy_le (sound : self.Sound) (tenant : TenantId) :
    self.parkedBy tenant ≤ self.parkCap := by
  by_cases any : ∃ request ∈ self.parked, request.tenant = tenant
  · obtain ⟨first, holds, rfl⟩ := any
    have entry := sound.parked first holds
    have same : self.parkedBy first.tenant ≤ holders self.parked first.sem := by
      refine List.countP_mono_left fun request holds' other => ?_
      have tenant_eq : request.tenant = first.tenant := of_decide_eq_true other
      have entry' := sound.parked request holds'
      rw [tenant_eq, entry] at entry'
      exact decide_eq_true (Option.some.inj entry').symm
    have budget := sound.budget first.sem (sound.known _ _ entry)
    omega
  · have none_parked : self.parkedBy tenant = 0 :=
      List.countP_eq_zero.mpr fun request holds same =>
        any ⟨request, holds, of_decide_eq_true same⟩
    omega

theorem Sound.lookUp (sound : self.Sound) (tenant : TenantId) :
    (self.step (.lookUp tenant)).Sound := by
  cases entry : self.parkPermits[tenant]? with
  | some sem =>
    simp only [step, parkSemaphore, entry]
    exact ⟨sound.budget, sound.known, List.forall_mem_cons.mpr ⟨entry, sound.looking⟩, sound.parked⟩
  | none =>
    simp only [step, parkSemaphore, entry]
    -- nobody else refers to a semaphore of the tenant, as there is none in the map
    have other {request : Waiter} (known : self.parkPermits[request.tenant]? = some request.sem) :
        (self.parkPermits.insert tenant self.created)[request.tenant]? = some request.sem := by
      rw [OrdMap.get_insert, if_neg, known]
      rintro rfl
      nomatch entry.symm.trans known
    have unused : holders self.parked self.created = 0 := by
      refine List.countP_eq_zero.mpr fun request holds same => ?_
      have below := sound.known _ _ (sound.parked request holds)
      have : request.sem = self.created := of_decide_eq_true same
      omega
    refine ⟨fun sem below => ?_, fun name sem at_name => ?_, ?_, fun request holds =>
      other (sound.parked request holds)⟩
    · dsimp only at below ⊢
      by_cases fresh : sem = self.created
      · rw [fresh, Function.update_self, unused, Nat.add_zero]
      · rw [Function.update_of_ne fresh]
        exact sound.budget sem (by omega)
    · rw [OrdMap.get_insert] at at_name
      split at at_name
      · cases at_name
        exact Nat.lt_succ_self _
      · exact Nat.lt_succ_of_lt (sound.known name sem at_name)
    · refine List.forall_mem_cons.mpr ⟨OrdMap.get_insert_self _ _ _, fun request looks => ?_⟩
      exact other (sound.looking request looks)

theorem Sound.tryAcquire (sound : self.Sound) (request : Waiter) :
    (self.step (.tryAcquire request)).Sound := by
  simp only [step]
  split
  next looks =>
    have entry := sound.looking request looks
    have rest : ∀ other ∈ self.looking.erase request,
        self.parkPermits[other.tenant]? = some other.sem :=
      fun other member => sound.looking other (List.mem_of_mem_erase member)
    split
    next free =>
      refine ⟨fun sem below => ?_, sound.known, rest,
        List.forall_mem_cons.mpr ⟨entry, sound.parked⟩⟩
      have budget := sound.budget sem below
      dsimp only
      rw [holders_cons, Function.update_apply]
      by_cases same : sem = request.sem
      · rw [if_pos same, if_pos same]
        rw [same] at budget ⊢
        omega
      · rw [if_neg same, if_neg same]
        omega
    · exact ⟨sound.budget, sound.known, rest, sound.parked⟩
  · exact sound

theorem Sound.release (sound : self.Sound) (request : Waiter) :
    (self.step (.release request)).Sound := by
  simp only [step]
  split
  next holds =>
    refine ⟨fun sem below => ?_, sound.known, sound.looking, fun other member =>
      sound.parked other (List.mem_of_mem_erase member)⟩
    have budget := sound.budget sem below
    dsimp only
    rw [holders_erase holds] at budget
    rw [Function.update_apply]
    by_cases same : sem = request.sem
    · rw [if_pos same] at budget ⊢
      rw [same] at budget ⊢
      omega
    · rw [if_neg same] at budget ⊢
      omega
  · exact sound

/-- An entry with all permits left has no holder, so only a request that looks it up still refers to
it. -/
theorem Sound.prune (sound : self.Sound) {tenant : TenantId} {pending : Nat}
    (meets : self.Meets (.prune tenant pending)) : (self.step (.prune tenant pending)).Sound := by
  simp only [step, maybePruneParkSemaphore]
  split
  · split
    next prunes =>
      have kept {request : Waiter} (apart : request.tenant ≠ tenant)
          (known : self.parkPermits[request.tenant]? = some request.sem) :
          (self.parkPermits.erase tenant)[request.tenant]? = some request.sem := by
        rw [OrdMap.get_erase, if_neg (Ne.symm apart), known]
      refine ⟨sound.budget, fun name sem at_name => ?_, fun request looks => ?_,
        fun request holds => ?_⟩
      · rw [OrdMap.get_erase] at at_name
        split at at_name
        · nomatch at_name
        · exact sound.known name sem at_name
      · exact kept (meets prunes request looks) (sound.looking request looks)
      · refine kept ?_ (sound.parked request holds)
        rintro rfl
        have entry := sound.parked request holds
        have budget := sound.budget _ (sound.known _ _ entry)
        have full : self.parkCap ≤ self.availablePermits request.sem := by
          simpa [prunes, entry] using (Bool.and_eq_true_iff.mp prunes).2
        have holder : 0 < holders self.parked request.sem :=
          List.countP_pos_iff.mpr ⟨request, holds, decide_eq_true rfl⟩
        omega
    · exact ⟨sound.budget, sound.known, sound.looking, sound.parked⟩
  · exact sound

/-- **One step keeps the account.** -/
theorem Sound.step (sound : self.Sound) {event : Step} (meets : self.Meets event) :
    (self.step event).Sound := by
  cases event with
  | lookUp tenant => exact sound.lookUp tenant
  | tryAcquire request => exact sound.tryAcquire request
  | release request => exact sound.release request
  | prune tenant pending => exact sound.prune meets

theorem step_parkCap (event : Step) : (self.step event).parkCap = self.parkCap := by
  cases event with
  | lookUp tenant =>
    simp only [AdmissionQueue.step, parkSemaphore]
    split <;> rfl
  | tryAcquire request =>
    simp only [AdmissionQueue.step]
    split
    · split <;> rfl
    · rfl
  | release request =>
    simp only [AdmissionQueue.step]
    split <;> rfl
  | prune tenant pending =>
    simp only [AdmissionQueue.step, maybePruneParkSemaphore]
    split
    · split <;> rfl
    · rfl

/-- **The parked-waiter budget**, in every run in which no entry is pruned between a look-up and the
acquire that follows it. -/
theorem parked_within_cap (parkCap : Nat) (events : List Step)
    (along : Along step Meets (withParkCap parkCap) events) (tenant : TenantId) :
    (events.foldl step (withParkCap parkCap)).parkedBy tenant ≤ max parkCap 1 := by
  have fresh : (withParkCap parkCap).Sound :=
    ⟨nofun, fun _ _ found => by simp [withParkCap] at found, nofun, nofun⟩
  obtain ⟨sound, cap⟩ := along.invariant
    (fun queue => queue.Sound ∧ queue.parkCap = max parkCap 1)
    (fun inv meets => ⟨inv.1.step meets, (step_parkCap _).trans inv.2⟩) ⟨fresh, rfl⟩
  exact cap ▸ sound.parkedBy_le tenant

theorem tenantA_nonEmpty : "a" ≠ "" := by decide

theorem tenantA_shaped : "a".toList.all tenantChar = true := by decide

def tenantA : TenantId := ⟨"a", tenantA_nonEmpty, tenantA_shaped⟩

/-- Two requests park under a budget of two and a third one is shed. The first to leave finds the
other still parked and prunes nothing; the second removes the entry; a fourth request creates the
next semaphore and parks on it. -/
def recycledPermits : List Step :=
  [.lookUp tenantA, .lookUp tenantA, .tryAcquire ⟨tenantA, 0⟩, .tryAcquire ⟨tenantA, 0⟩,
    .lookUp tenantA, .tryAcquire ⟨tenantA, 0⟩, .release ⟨tenantA, 0⟩, .prune tenantA 0,
    .release ⟨tenantA, 0⟩, .prune tenantA 0, .lookUp tenantA, .tryAcquire ⟨tenantA, 1⟩]

theorem parked_within_cap_recycled :
    ((recycledPermits.take 6).foldl step (withParkCap 2)).parkedBy tenantA = 2 ∧
    ((recycledPermits.take 9).foldl step (withParkCap 2)).prunes tenantA 0 = true ∧
    (recycledPermits.foldl step (withParkCap 2)).parked = [⟨tenantA, 1⟩] ∧
    (recycledPermits.foldl step (withParkCap 2)).parkedBy tenantA ≤ max 2 1 :=
  ⟨by decide +kernel, by decide +kernel, by decide +kernel,
    parked_within_cap 2 recycledPermits (by decide +kernel) tenantA⟩

/-- **Two holders for a budget of one.** The second request has the semaphore of the first in hand
when the first is answered and prunes it; the third creates another one. -/
theorem parked_over_cap :
    ([Step.lookUp tenantA, .tryAcquire ⟨tenantA, 0⟩, .lookUp tenantA, .release ⟨tenantA, 0⟩,
      .prune tenantA 0, .lookUp tenantA, .tryAcquire ⟨tenantA, 1⟩,
      .tryAcquire ⟨tenantA, 0⟩].foldl step (withParkCap 1)).parkedBy tenantA = 2 := by
  decide +kernel

end AdmissionQueue

end CorelinkRunners.Server.Park
