import Mathlib

/-!
# The shard of a lease

The edge and the fabric route a lease by one hash of its id, FNV-1a over the UTF-8 bytes: the fabric
computes it in wrapping words, the edge in JavaScript numbers, whose bit operations go through
signed words. They agree, and an id that the fabric mints for a shard is routed to it by both.
-/

namespace CorelinkRunners.Shard

/-! ## The fabric -/

def fnvOffsetBasis : UInt32 := 2166136261

def fnvPrime : UInt32 := 16777619

def fnv1a32 (bytes : List UInt8) : UInt32 :=
  bytes.foldl (fun hash b => (hash ^^^ b.toUInt32) * fnvPrime) fnvOffsetBasis

def shardOf (leaseId : String) (numShards : UInt32) : UInt32 :=
  fnv1a32 leaseId.toUTF8.toList % max numShards 1

/-- The rest of the loop: the id that is returned, and how often the generator was called. -/
def mintMore (gen : Nat → String) (n target : UInt32) : Nat → Nat → String → String × Nat
  | 0, calls, last => (last, calls)
  | tries + 1, calls, _ =>
    let id := gen calls
    if shardOf id n = target then (id, calls + 1) else mintMore gen n target tries (calls + 1) id

/-- The generator is given by what its calls return, one after the other. -/
def mintLeaseIdForShard (targetShard numShards maxTries : UInt32) (gen : Nat → String) :
    String × Nat :=
  let n := max numShards 1
  let target := targetShard % n
  let last := gen 0
  if n = 1 ∨ shardOf last n = target then (last, 1)
  else mintMore gen n target ((max maxTries 1).toNat - 1) 1 last

/-! ## The edge -/

namespace Edge

def toInt32 (x : Int) : BitVec 32 := .ofInt 32 x

def bitOr (a b : Int) : Int := (toInt32 a ||| toInt32 b).toInt

def bitXor (a b : Int) : Int := (toInt32 a ^^^ toInt32 b).toInt

/-- `Math.imul` -/
def imul (a b : Int) : Int := (toInt32 a * toInt32 b).toInt

/-- `>>> 0` -/
def unsigned (a : Int) : Int := (toInt32 a).toNat

def fnv1a32 (s : String) : Int :=
  unsigned (s.toUTF8.toList.foldl (fun h b => imul (bitXor h b.toNat) 0x01000193)
    (bitOr 0x811c9dc5 0))

/-- The number of shards is an integer here, and so its own `Math.trunc`. -/
def shardOf (leaseId : String) (numShards : Int) : Int :=
  fnv1a32 leaseId % max 1 (if numShards = 0 then 1 else numShards)

end Edge

/-! ## Agreement -/

theorem edge_step (hash : UInt32) (b : UInt8) :
    Edge.imul (Edge.bitXor hash.toBitVec.toInt b.toNat) 0x01000193 =
      ((hash ^^^ b.toUInt32) * fnvPrime).toBitVec.toInt := by
  have byte : BitVec.ofNat 32 b.toNat = b.toUInt32.toBitVec := by
    rw [← UInt8.toUInt32_toNat, ← UInt32.toNat_toBitVec, BitVec.ofNat_toNat, BitVec.setWidth_eq]
  simp only [Edge.imul, Edge.bitXor, Edge.toInt32, BitVec.ofInt_toInt, BitVec.ofInt_natCast, byte,
    UInt32.toBitVec_mul, UInt32.toBitVec_xor]
  rfl

theorem edge_fnv1a32 (s : String) : Edge.fnv1a32 s = (fnv1a32 s.toUTF8.toList).toNat := by
  have folds (bytes : List UInt8) (hash : UInt32) :
      bytes.foldl (fun h b => Edge.imul (Edge.bitXor h b.toNat) 0x01000193) hash.toBitVec.toInt =
        (bytes.foldl (fun hash b => (hash ^^^ b.toUInt32) * fnvPrime) hash).toBitVec.toInt := by
    induction bytes generalizing hash with
    | nil => rfl
    | cons b bytes ih => rw [List.foldl_cons, edge_step, ih, List.foldl_cons]
  have start : Edge.bitOr 0x811c9dc5 0 = fnvOffsetBasis.toBitVec.toInt := by decide
  rw [Edge.fnv1a32, start, folds, Edge.unsigned, Edge.toInt32, BitVec.ofInt_toInt,
    UInt32.toNat_toBitVec, fnv1a32]

theorem toNat_max (n : UInt32) : (max n 1).toNat = max 1 n.toNat := by
  change (if n ≤ 1 then 1 else n).toNat = _
  split
  next le =>
    have := UInt32.le_iff_toNat_le.mp le
    rw [UInt32.toNat_one] at this ⊢
    omega
  next not_le =>
    rw [UInt32.le_iff_toNat_le, UInt32.toNat_one] at not_le
    omega

theorem shardOf_toNat (leaseId : String) (n : UInt32) :
    (shardOf leaseId n).toNat = (fnv1a32 leaseId.toUTF8.toList).toNat % max 1 n.toNat := by
  rw [shardOf, UInt32.toNat_mod, toNat_max]

theorem edge_shardOf (leaseId : String) (n : UInt32) :
    Edge.shardOf leaseId n.toNat = (shardOf leaseId n).toNat := by
  rw [shardOf_toNat, Edge.shardOf, edge_fnv1a32]
  split
  · grind
  · grind

/-! ## Minting -/

def Routes (numShards targetShard : UInt32) (id : String) : Prop :=
  Edge.shardOf id numShards.toNat = targetShard.toNat % max 1 numShards.toNat ∧
    (shardOf id numShards).toNat = targetShard.toNat % max 1 numShards.toNat

/-- What was minted is the first of the ids that is good, or the last of them if there is none; and
no id after it was asked for. -/
def Mints (good : String → Prop) (gen : Nat → String) (tries : Nat) (minted : String × Nat) :
    Prop :=
  ∃ i < tries, minted = (gen i, i + 1) ∧ (∀ j < i, ¬good (gen j)) ∧ (good (gen i) ∨ i + 1 = tries)

variable {n target : UInt32}

theorem mintMore_mints {good : String → Prop} {gen : Nat → String}
    (good_iff : ∀ id, shardOf id n = target ↔ good id) (tries calls : Nat)
    (before : ∀ j < calls + 1, ¬good (gen j)) :
    Mints good gen (calls + 1 + tries) (mintMore gen n target tries (calls + 1) (gen calls)) := by
  induction tries generalizing calls with
  | zero => exact ⟨calls, by omega, rfl, fun j less => before j (by omega), .inr rfl⟩
  | succ tries ih =>
    simp only [mintMore]
    split
    next found => exact ⟨calls + 1, by omega, rfl, before, .inl ((good_iff _).mp found)⟩
    next missed =>
      rw [show calls + 1 + (tries + 1) = calls + 1 + 1 + tries by omega]
      refine ih (calls + 1) fun j less => ?_
      rcases Nat.lt_succ_iff_lt_or_eq.mp less with less | rfl
      · exact before j less
      · exact fun h => missed ((good_iff _).mpr h)

theorem routes_iff (id : String) : shardOf id (max n 1) = target % max n 1 ↔
    Routes n target id := by
  rw [Routes, edge_shardOf, ← UInt32.toNat_inj, UInt32.toNat_mod, toNat_max, shardOf_toNat,
    shardOf_toNat, toNat_max]
  norm_cast
  simp

/-- **The edge and the fabric agree on the shard of a lease**, which is one of the shards; and an id
is minted for a shard by both. -/
theorem shards_agree :
    (∀ leaseId (n : UInt32), Edge.shardOf leaseId n.toNat = (shardOf leaseId n).toNat ∧
      (shardOf leaseId n).toNat < max 1 n.toNat) ∧
    ∀ target n maxTries gen, Mints (Routes n target) gen (max 1 maxTries.toNat)
      (mintLeaseIdForShard target n maxTries gen) := by
  refine ⟨fun leaseId n => ⟨edge_shardOf leaseId n, ?_⟩, fun target n maxTries gen => ?_⟩
  · rw [shardOf_toNat]
    exact Nat.mod_lt _ (by omega)
  · unfold mintLeaseIdForShard
    dsimp only
    split
    next accepted =>
      refine ⟨0, by omega, rfl, nofun, .inl ((routes_iff _).mp ?_)⟩
      rcases accepted with single | routed
      · rw [single, ← UInt32.toNat_inj, shardOf_toNat, UInt32.toNat_mod, UInt32.toNat_one, max_self,
          Nat.mod_one, Nat.mod_one]
      · exact routed
    next refused =>
      have first (j : Nat) (less : j < 0 + 1) : ¬Routes n target (gen j) := by
        obtain rfl : j = 0 := by omega
        exact fun routed => refused (.inr ((routes_iff _).mpr routed))
      have more := mintMore_mints routes_iff ((max maxTries 1).toNat - 1) 0 first
      rw [toNat_max] at more ⊢
      rwa [show 0 + 1 + (max 1 maxTries.toNat - 1) = max 1 maxTries.toNat by omega] at more

end CorelinkRunners.Shard
