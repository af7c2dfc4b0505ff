import CorelinkRunners.Contracts

/-!
# Per-tenant work queues

`TenantQueues` keeps one first-in first-out queue per tenant. That no queue is longer than
`maxTenantQueueDepth`, and that a tenant's queue holds only that tenant's items, are fields, so no
other queue set can be built. The lemmas give every operation by what it does to `queue`, the queue
of one tenant, and leave the map behind.
-/

namespace CorelinkRunners

open Kit

def maxTenantQueueDepth : Nat := 4096

/-- One unit of pending work, queued per tenant until dispatched. -/
structure WorkItem where
  id : String
  tenant : TenantId
  enqueuedAtMs : Nat
deriving DecidableEq

/-- What a tenant's queue may hold: its own items, and no more than the admission bound. -/
structure QueueOf (tenant : TenantId) (queue : List WorkItem) : Prop where
  bounded : queue.length ≤ maxTenantQueueDepth
  owned : ∀ item ∈ queue, item.tenant = tenant

namespace QueueOf

theorem append {tenant : TenantId} {queue : List WorkItem} {item : WorkItem}
    (h : QueueOf tenant queue) (room : ¬ maxTenantQueueDepth ≤ queue.length)
    (owned : item.tenant = tenant) : QueueOf tenant (queue ++ [item]) := by
  refine ⟨?_, ?_⟩
  · rw [List.length_append, List.length_singleton]
    omega
  · intro found hf
    rcases List.mem_append.mp hf with old | new
    · exact h.owned found old
    · rw [List.mem_singleton.mp new]
      exact owned

theorem tail {tenant : TenantId} {queue : List WorkItem} (h : QueueOf tenant queue) :
    QueueOf tenant queue.tail where
  bounded := by
    have := h.bounded
    rw [List.length_tail]
    omega
  owned item hi := h.owned item (List.mem_of_mem_tail hi)

end QueueOf

structure TenantQueues where
  queues : OrdMap TenantId (List WorkItem)
  valid : ∀ (tenant : TenantId) queue, queues[tenant]? = some queue → QueueOf tenant queue

namespace TenantQueues

variable (self : TenantQueues)

def new : TenantQueues := ⟨∅, fun tenant queue h => by simp at h⟩

def queue (tenant : TenantId) : List WorkItem := self.queues[tenant]?.getD []

variable (tenant : TenantId)

theorem queue_valid : QueueOf tenant (self.queue tenant) := by
  unfold queue
  cases h : self.queues[tenant]? with
  | none => exact ⟨Nat.zero_le _, by simp⟩
  | some queue => exact self.valid tenant queue h

def put (tenant : TenantId) (queue : List WorkItem) (fits : QueueOf tenant queue) :
    TenantQueues where
  queues := self.queues.insert tenant queue
  valid other found h := by
    rw [OrdMap.get_insert] at h
    split at h
    next same =>
      cases h
      exact same ▸ fits
    · exact self.valid other found h

def remove (tenant : TenantId) : TenantQueues where
  queues := self.queues.erase tenant
  valid other found h := by
    rw [OrdMap.get_erase] at h
    split at h
    · cases h
    · exact self.valid other found h

/-- Tries to append an item to the back of its tenant's queue; over the bound the item comes back
and the queue stays as it was. -/
def tryEnqueue (item : WorkItem) : Except WorkItem Unit × TenantQueues :=
  let queue := self.queue item.tenant
  if full : maxTenantQueueDepth ≤ queue.length then
    -- the entry made by the lookup is not left behind for a tenant without work
    (.error item, if queue.isEmpty then self.remove item.tenant else self)
  else
    (.ok (), self.put item.tenant (queue ++ [item])
      ((self.queue_valid item.tenant).append full rfl))

def pending (tenant : TenantId) : Nat := (self.queue tenant).length

def tenantsWithWork : List TenantId :=
  (self.queues.toList.filter fun entry => !entry.2.isEmpty).map Prod.fst

def front (tenant : TenantId) : Option WorkItem := self.queues[tenant]?.bind List.head?

def popFront (tenant : TenantId) : Option WorkItem × TenantQueues :=
  match h : self.queues[tenant]? with
  | none => (none, self)
  | some queue =>
    (queue.head?,
      if queue.tail.isEmpty then self.remove tenant
      else self.put tenant queue.tail (self.valid tenant queue h).tail)

/-! ## Queue by queue -/

variable {self}

@[simp] theorem queue_new : new.queue tenant = [] := by simp [queue, new]

variable (other : TenantId)

@[simp] theorem queue_put (queue : List WorkItem) (fits : QueueOf tenant queue) :
    (self.put tenant queue fits).queue other =
      if tenant = other then queue else self.queue other := by
  unfold TenantQueues.queue put
  rw [OrdMap.get_insert]
  split <;> rfl

@[simp] theorem queue_remove :
    (self.remove tenant).queue other = if tenant = other then [] else self.queue other := by
  unfold queue remove
  rw [OrdMap.get_erase]
  split <;> rfl

theorem front_eq : self.front tenant = (self.queue tenant).head? := by
  unfold front queue
  cases self.queues[tenant]? <;> rfl

theorem tryEnqueue_ok {item : WorkItem}
    (room : (self.queue item.tenant).length < maxTenantQueueDepth) :
    (self.tryEnqueue item).1 = .ok () ∧ ∀ tenant, (self.tryEnqueue item).2.queue tenant =
      if item.tenant = tenant then self.queue tenant ++ [item] else self.queue tenant := by
  unfold tryEnqueue
  rw [dif_neg (Nat.not_le.mpr room)]
  refine ⟨rfl, fun tenant => ?_⟩
  rw [queue_put]
  split
  next same => rw [same]
  · rfl

theorem tryEnqueue_error {item : WorkItem}
    (full : maxTenantQueueDepth ≤ (self.queue item.tenant).length) :
    self.tryEnqueue item = (.error item, self) := by
  unfold tryEnqueue
  have some_work : (self.queue item.tenant).isEmpty = false := by
    rw [List.isEmpty_eq_false_iff, ← List.length_pos_iff]
    unfold maxTenantQueueDepth at full
    omega
  simp only [dif_pos full, some_work, Bool.false_eq_true, if_false]

theorem queue_popFront : (self.popFront tenant).2.queue other =
    if tenant = other then (self.queue tenant).tail else self.queue other := by
  unfold popFront
  split
  next h =>
    have none_left : self.queue tenant = [] := by rw [queue, h]; rfl
    rw [none_left, List.tail_nil]
    split
    next same => rw [← same]; exact none_left
    · rfl
  next entry h =>
    have held : self.queue tenant = entry := by rw [queue, h]; rfl
    rw [held]
    by_cases drained : entry.tail.isEmpty = true
    · rw [if_pos drained, queue_remove, List.isEmpty_iff.mp drained]
    · rw [if_neg drained, queue_put]

theorem mem_tenantsWithWork {tenant : TenantId} :
    tenant ∈ self.tenantsWithWork ↔ self.queue tenant ≠ [] := by
  unfold tenantsWithWork queue
  rw [List.mem_map]
  constructor
  · rintro ⟨⟨key, entry⟩, listed, rfl⟩
    obtain ⟨present, busy⟩ := List.mem_filter.mp listed
    rw [Std.ExtTreeMap.mem_toList_iff_getElem?_eq_some.mp present]
    simpa using busy
  · intro busy
    cases h : self.queues[tenant]? with
    | none => exact absurd (by rw [h]; rfl) busy
    | some entry =>
      rw [h] at busy
      refine ⟨(tenant, entry), List.mem_filter.mpr ⟨?_, by simpa using busy⟩, rfl⟩
      exact Std.ExtTreeMap.mem_toList_iff_getElem?_eq_some.mpr h

theorem tenantsWithWork_sorted : self.tenantsWithWork.Pairwise (· < ·) := by
  unfold tenantsWithWork
  rw [List.pairwise_map]
  refine (Std.ExtTreeMap.ordered_keys_toList.filter _).imp ?_
  intro a b h
  exact compare_lt_iff_lt.mp h

end TenantQueues

end CorelinkRunners
