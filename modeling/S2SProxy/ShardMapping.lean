import Mathlib.Data.Int.CardIntervalMod

/- Least-common-multiple mode: the proxy presents the least common multiple of the two shard
   counts, and remaps a proxy shard id to a shard of the target cluster. The numbers are the
   32-bit ones of the source: the product wraps, and division truncates. -/
namespace ShardMapping

def euclid (a b : Int32) : Int32 :=
  if b = 0 then a else euclid b (a % b)
termination_by b.toInt.natAbs
decreasing_by
  have nonzero : b.toInt ≠ 0 := by
    intro zero
    exact absurd (Int32.toInt_inj.mp (zero.trans Int32.toInt_zero.symm)) (by assumption)
  rw [Int32.toInt_mod, Int.natAbs_tmod]
  exact Nat.mod_lt _ (Int.natAbs_pos.mpr nonzero)

def gcd (a b : Int32) : Int32 :=
  if a = 0 ∨ b = 0 then 0
  else if b < a then euclid b a
  else euclid a b

def lcm (a b : Int32) : Int32 :=
  if a = 0 ∨ b = 0 then 0
  else a * b / gcd a b

inductive ShardCountMode where
  | default
  | lcm
  | routing
  deriving DecidableEq

structure ShardCountConfig where
  mode : ShardCountMode
  localShardCount : Int32
  remoteShardCount : Int32

structure LCMParameters where
  lcm : Int32 := 0
  targetShardCount : Int32 := 0
  deriving DecidableEq

def getLCMParameters (shardCountConfig : ShardCountConfig) (inverse : Bool) : LCMParameters :=
  if shardCountConfig.mode ≠ .lcm then {}
  else if inverse then
    { lcm := lcm shardCountConfig.localShardCount shardCountConfig.remoteShardCount
      targetShardCount := shardCountConfig.localShardCount }
  else
    { lcm := lcm shardCountConfig.localShardCount shardCountConfig.remoteShardCount
      targetShardCount := shardCountConfig.remoteShardCount }

section Streams
-- The server's own mapping: source count, target count and source shard to target shards.
variable (mapShardID : Int32 → Int32 → Int32 → List Int32)

/-- No result is the panic on anything but one shard. -/
def mapShardIDUnique (sourceShardCount targetShardCount sourceShardID : Int32) : Option Int32 :=
  match mapShardID sourceShardCount targetShardCount sourceShardID with
  | [targetShardID] => some targetShardID
  | _ => none

structure ClusterShardID where
  clusterID : Int32
  shardID : Int32
  deriving DecidableEq

/-- The client and the server shard named in the metadata of the stream to the target
cluster. The client's shard is the proxy's own. -/
def lcmStreamShards (lcmParameters : LCMParameters)
    (sourceClusterShardID targetClusterShardID : ClusterShardID) :
    Option (ClusterShardID × ClusterShardID) :=
  let newTargetShardID : ClusterShardID :=
    { clusterID := targetClusterShardID.clusterID, shardID := sourceClusterShardID.shardID }
  (mapShardIDUnique mapShardID lcmParameters.lcm lcmParameters.targetShardCount
      sourceClusterShardID.shardID).map fun shardID =>
    (newTargetShardID, { clusterID := sourceClusterShardID.clusterID, shardID := shardID })

end Streams

/-- The server's mapping onto a divisor of the source count. -/
def MapsByRemainder (mapShardID : Int32 → Int32 → Int32 → List Int32) : Prop :=
  ∀ source target id : Int32, 0 < target → source % target = 0 → 1 ≤ id → id ≤ source →
    mapShardID source target id = [(id - 1) % target + 1]

def workflowIDToHistoryShard (hash : String → String → UInt32) (namespaceID workflowID : String)
    (numberOfShards : Int32) : Int32 :=
  Int32.ofNat ((hash namespaceID workflowID).toNat % numberOfShards.toNatClampNeg) + 1

def shardIDs (count : Int32) : List Int32 :=
  (List.range count.toNatClampNeg).map fun k => Int32.ofNat (k + 1)

def proxyShards (mapShardID : Int32 → Int32 → Int32 → List Int32) (lcm count target : Int32) :
    List Int32 :=
  (shardIDs lcm).filter fun id => mapShardIDUnique mapShardID lcm count id = some target

structure RoutesTo (mapShardID : Int32 → Int32 → Int32 → List Int32)
    (hash : String → String → UInt32) (lcm count : Int32) : Prop where
  mapped : ∀ p, 1 ≤ p ∧ p ≤ lcm →
    ∃ q, (1 ≤ q ∧ q ≤ count) ∧ mapShardIDUnique mapShardID lcm count p = some q
  share : ∀ q, 1 ≤ q ∧ q ≤ count →
    ((proxyShards mapShardID lcm count q).length : Int) = lcm.toInt / count.toInt
  partitioned : ∀ p, 1 ≤ p ∧ p ≤ lcm →
    ∃! q, (1 ≤ q ∧ q ≤ count) ∧ p ∈ proxyShards mapShardID lcm count q
  workflow : ∀ namespaceID workflowID,
    mapShardIDUnique mapShardID lcm count
        (workflowIDToHistoryShard hash namespaceID workflowID lcm) =
      some (workflowIDToHistoryShard hash namespaceID workflowID count)

section Numbers
variable {n m : Nat}

theorem ofNat_inj (small : n < 2 ^ 31) (small' : m < 2 ^ 31) :
    Int32.ofNat n = Int32.ofNat m ↔ n = m := by
  refine ⟨fun same => ?_, fun same => by rw [same]⟩
  have ints : (n : Int) = m := by
    rw [← Int32.toInt_ofNat_of_lt small, ← Int32.toInt_ofNat_of_lt small', same]
  exact_mod_cast ints

theorem ofNat_eq_zero (small : n < 2 ^ 31) : Int32.ofNat n = 0 ↔ n = 0 :=
  ofNat_inj small (by decide)

theorem ofNat_succ (n : Nat) : Int32.ofNat (n + 1) = Int32.ofNat n + 1 :=
  Int32.ofNat_add n 1

theorem positive_ofNat {x : Int32} (positive : 0 < x) :
    ∃ k : Nat, 0 < k ∧ k < 2 ^ 31 ∧ x = Int32.ofNat k := by
  have value : 0 < x.toInt := Int32.lt_iff_toInt_lt.mp positive
  have bound : x.toInt < 2 ^ 31 := x.toInt_lt
  refine ⟨x.toInt.toNat, by omega, by omega, ?_⟩
  rw [← Int32.toInt_inj, Int32.toInt_ofNat_of_lt (by omega)]
  omega

theorem euclid_ofNat (small : n < 2 ^ 31) (small' : m < 2 ^ 31) :
    euclid (Int32.ofNat n) (Int32.ofNat m) = Int32.ofNat (Nat.gcd n m) := by
  induction m using Nat.strongRecOn generalizing n with
  | ind m ih =>
    rw [euclid]
    rcases Nat.eq_zero_or_pos m with rfl | positive
    · rw [if_pos ((ofNat_eq_zero small').mpr rfl), Nat.gcd_zero_right]
    · have nonzero : Int32.ofNat m ≠ 0 := by
        rw [Ne, ofNat_eq_zero small']
        omega
      have less : n % m < m := Nat.mod_lt n positive
      rw [if_neg nonzero, ← Int32.ofNat_mod small small',
        ih (n % m) less small' (by omega), Nat.gcd_comm m, ← Nat.gcd_rec, Nat.gcd_comm]

theorem gcd_ofNat (positive : 0 < n) (positive' : 0 < m) (small : n < 2 ^ 31)
    (small' : m < 2 ^ 31) : gcd (Int32.ofNat n) (Int32.ofNat m) = Int32.ofNat (Nat.gcd n m) := by
  have nonzero : ¬(Int32.ofNat n = 0 ∨ Int32.ofNat m = 0) := by
    rw [ofNat_eq_zero small, ofNat_eq_zero small']
    omega
  rw [gcd, if_neg nonzero]
  split
  · rw [euclid_ofNat small' small, Nat.gcd_comm]
  · exact euclid_ofNat small small'

theorem lcm_ofNat (positive : 0 < n) (positive' : 0 < m) (fits : n * m < 2 ^ 31) :
    lcm (Int32.ofNat n) (Int32.ofNat m) = Int32.ofNat (Nat.lcm n m) := by
  have small : n < 2 ^ 31 := (Nat.le_mul_of_pos_right n positive').trans_lt fits
  have small' : m < 2 ^ 31 := (Nat.le_mul_of_pos_left m positive).trans_lt fits
  have divisor : Nat.gcd n m < 2 ^ 31 := (Nat.gcd_le_left m positive).trans_lt small
  have nonzero : ¬(Int32.ofNat n = 0 ∨ Int32.ofNat m = 0) := by
    rw [ofNat_eq_zero small, ofNat_eq_zero small']
    omega
  rw [lcm, if_neg nonzero, gcd_ofNat positive positive' small small', ← Int32.ofNat_mul,
    ← Int32.ofNat_div fits divisor]
  rfl

/- The quotient is taken of the product as it has wrapped. -/
theorem lcm_toInt (positive : 0 < n) (positive' : 0 < m) (small : n < 2 ^ 31)
    (small' : m < 2 ^ 31) :
    (lcm (Int32.ofNat n) (Int32.ofNat m)).toInt =
      (((n * m : Nat) : Int).bmod (2 ^ 32)).tdiv (Nat.gcd n m) := by
  have divisor : Nat.gcd n m < 2 ^ 31 := (Nat.gcd_le_left m positive).trans_lt small
  have nonzero : ¬(Int32.ofNat n = 0 ∨ Int32.ofNat m = 0) := by
    rw [ofNat_eq_zero small, ofNat_eq_zero small']
    omega
  have value : (Int32.ofNat (Nat.gcd n m)).toInt = Nat.gcd n m := Int32.toInt_ofNat_of_lt divisor
  have notMinusOne : Int32.ofNat (Nat.gcd n m) ≠ -1 := by
    intro same
    rw [same] at value
    have negative : (-1 : Int32).toInt = -1 := by decide
    omega
  rw [lcm, if_neg nonzero, gcd_ofNat positive positive' small small',
    Int32.toInt_div_of_ne_right _ _ notMinusOne, value, Int32.toInt_mul,
    Int32.toInt_ofNat_of_lt small, Int32.toInt_ofNat_of_lt small', Nat.cast_mul]

/- A product that has wrapped is less than the true one, and so is every quotient of it. -/
theorem lcm_too_small (positive : 0 < n) (positive' : 0 < m) (small : n < 2 ^ 31)
    (small' : m < 2 ^ 31) (wraps : 2 ^ 31 ≤ n * m) :
    (lcm (Int32.ofNat n) (Int32.ofNat m)).toInt < Nat.lcm n m := by
  have product : (Nat.gcd n m : Int) * Nat.lcm n m = (n * m : Nat) := by
    exact_mod_cast Nat.gcd_mul_lcm n m
  have wrapped : ((n * m : Nat) : Int).bmod (2 ^ 32) < (n * m : Nat) := by
    have bound : ((n * m : Nat) : Int).bmod (2 ^ 32) < ((2 ^ 32 : Nat) + 1) / 2 :=
      Int.bmod_lt (by decide)
    omega
  rw [lcm_toInt positive positive' small small']
  apply Int.lt_of_mul_lt_mul_left _ (Int.natCast_nonneg (Nat.gcd n m))
  rw [product]
  rcases Int.le_total 0 (((n * m : Nat) : Int).bmod (2 ^ 32)) with positiveRest | negative
  · exact (Int.mul_tdiv_self_le positiveRest).trans_lt wrapped
  · have quotient : (((n * m : Nat) : Int).bmod (2 ^ 32)).tdiv (Nat.gcd n m) ≤ 0 := by
      have opposite := Int.tdiv_nonneg (Int.neg_nonneg_of_nonpos negative)
        (Int.natCast_nonneg (Nat.gcd n m))
      rw [Int.neg_tdiv] at opposite
      omega
    have above : (0 : Int) < (n * m : Nat) := by
      exact_mod_cast Nat.mul_pos positive positive'
    exact (Int.mul_nonpos_of_nonneg_of_nonpos (by omega) quotient).trans_lt above

end Numbers

theorem lcm_exact_iff_product_fits (a b : Int32) (positive : 0 < a) (positive' : 0 < b) :
    (gcd a b).toInt = Int.gcd a.toInt b.toInt ∧
      ((lcm a b).toInt = Int.lcm a.toInt b.toInt ↔ a.toInt * b.toInt ≤ 2 ^ 31 - 1) := by
  obtain ⟨n, positiveN, small, rfl⟩ := positive_ofNat positive
  obtain ⟨m, positiveM, small', rfl⟩ := positive_ofNat positive'
  have divisor : Nat.gcd n m < 2 ^ 31 := (Nat.gcd_le_left m positiveN).trans_lt small
  rw [Int32.toInt_ofNat_of_lt small, Int32.toInt_ofNat_of_lt small', Int.gcd_natCast_natCast,
    Int.lcm_natCast_natCast]
  constructor
  · rw [gcd_ofNat positiveN positiveM small small', Int32.toInt_ofNat_of_lt divisor]
  · have product : (n : Int) * m = (n * m : Nat) := (Nat.cast_mul n m).symm
    rw [product]
    constructor
    · intro exact
      by_contra wraps
      have less := lcm_too_small positiveN positiveM small small' (by omega)
      omega
    · intro fits
      have multiple : Nat.lcm n m < 2 ^ 31 :=
        (Nat.lcm_le_mul positiveN positiveM).trans_lt (by omega)
      rw [lcm_ofNat positiveN positiveM (by omega), Int32.toInt_ofNat_of_lt multiple]

theorem lcm_exact_four_and_six :
    (gcd 4 6).toInt = Int.gcd 4 6 ∧ (lcm 4 6).toInt = Int.lcm 4 6 := by
  obtain ⟨divisor, multiple⟩ := lcm_exact_iff_product_fits 4 6 (by decide) (by decide)
  exact ⟨divisor, multiple.mpr (by decide)⟩

/- Two equal shard counts whose product is the modulus. -/
theorem lcm_of_equal_counts_wraps :
    (0 : Int32) < 65536 ∧ (Int.lcm (65536 : Int32).toInt (65536 : Int32).toInt : Int) = 65536 ∧
      (65536 : Int) ≤ 2 ^ 31 - 1 ∧ (lcm 65536 65536).toInt = 0 := by
  have product : (65536 : Int32) * 65536 = 0 := by decide
  constructor
  · decide
  constructor
  · decide
  constructor
  · decide
  · rw [lcm, if_neg (by decide), product, Int32.zero_div]
    rfl

theorem mem_shardIDs {count id : Int32} : id ∈ shardIDs count ↔ 1 ≤ id ∧ id ≤ count := by
  have bound : count.toInt < 2 ^ 31 := count.toInt_lt
  have clamp : count.toNatClampNeg = count.toInt.toNat := rfl
  have one : (1 : Int32).toInt = 1 := Int32.toInt_one
  simp only [shardIDs, List.mem_map, List.mem_range, Int32.le_iff_toInt_le, one]
  constructor
  · rintro ⟨k, below, rfl⟩
    rw [Int32.toInt_ofNat_of_lt (by omega)]
    omega
  · rintro ⟨positive, upto⟩
    refine ⟨id.toInt.toNat - 1, by omega, ?_⟩
    rw [← Int32.toInt_inj, Int32.toInt_ofNat_of_lt (by omega)]
    omega

section Divisor
variable {mapShardID : Int32 → Int32 → Int32 → List Int32}
variable {hash : String → String → UInt32} {l c : Nat}

theorem listed_ofNat (small : l < 2 ^ 31) {id : Int32} :
    1 ≤ id ∧ id ≤ Int32.ofNat l ↔ ∃ k < l, id = Int32.ofNat (k + 1) := by
  simp only [← mem_shardIDs, shardIDs, Int32.toNatClampNeg_ofNat_of_lt small, List.mem_map,
    List.mem_range, eq_comm]

/- Shard k+1 of the multiple goes to shard k mod c, counted from one. -/
theorem mapShardIDUnique_ofNat (maps : MapsByRemainder mapShardID) (small : l < 2 ^ 31)
    (positive : 0 < c) (divides : c ∣ l) {k : Nat} (below : k < l) :
    mapShardIDUnique mapShardID (Int32.ofNat l) (Int32.ofNat c) (Int32.ofNat (k + 1)) =
      some (Int32.ofNat (k % c + 1)) := by
  have small' : c < 2 ^ 31 := (Nat.le_of_dvd (by omega) divides).trans_lt small
  have even : Int32.ofNat l % Int32.ofNat c = 0 := by
    rw [← Int32.ofNat_mod small small', Nat.mod_eq_zero_of_dvd divides]
    rfl
  have counted : (0 : Int32) < Int32.ofNat c :=
    (Int32.ofNat_lt_iff_lt (by decide) small').mpr positive
  have first : Int32.ofNat 1 ≤ Int32.ofNat (k + 1) :=
    (Int32.ofNat_le_iff_le (by decide) (by omega)).mpr (by omega)
  have last : Int32.ofNat (k + 1) ≤ Int32.ofNat l :=
    (Int32.ofNat_le_iff_le (by omega) small).mpr below
  have result : (Int32.ofNat (k + 1) - 1) % Int32.ofNat c + 1 = Int32.ofNat (k % c + 1) := by
    have offset : Int32.ofNat (k + 1) - 1 = Int32.ofNat k := by
      rw [ofNat_succ, Int32.add_sub_cancel]
    rw [offset, ← Int32.ofNat_mod (by omega) small', ofNat_succ]
  rw [mapShardIDUnique, maps _ _ _ counted even first last, result]

theorem proxyShards_length (maps : MapsByRemainder mapShardID) (small : l < 2 ^ 31)
    (nonempty : 0 < l) (positive : 0 < c) (divides : c ∣ l) {j : Nat} (target : j < c) :
    (proxyShards mapShardID (Int32.ofNat l) (Int32.ofNat c) (Int32.ofNat (j + 1))).length =
      l / c := by
  have small' : c < 2 ^ 31 := (Nat.le_of_dvd nonempty divides).trans_lt small
  have residue : ∀ k ∈ List.range l,
      decide (mapShardIDUnique mapShardID (Int32.ofNat l) (Int32.ofNat c)
        (Int32.ofNat (k + 1)) = some (Int32.ofNat (j + 1))) = true ↔
      decide (k ≡ j [MOD c]) = true := by
    intro k member
    have below := List.mem_range.mp member
    have remainder : k % c < c := Nat.mod_lt k positive
    rw [decide_eq_true_iff, decide_eq_true_iff,
      mapShardIDUnique_ofNat maps small positive divides below, Option.some_inj,
      ofNat_inj (by omega) (by omega), Nat.ModEq, Nat.mod_eq_of_lt target]
    omega
  calc (proxyShards mapShardID (Int32.ofNat l) (Int32.ofNat c) (Int32.ofNat (j + 1))).length
      = (List.range l).countP fun k => decide (k ≡ j [MOD c]) := by
        rw [proxyShards, shardIDs, Int32.toNatClampNeg_ofNat_of_lt small,
          ← List.countP_eq_length_filter, List.countP_map]
        exact List.countP_congr residue
    _ = Nat.count (· ≡ j [MOD c]) l := by
        rw [Nat.count_eq_card_filter_range, List.countP_eq_length_filter]
        rfl
    _ = l / c := by
        rw [Nat.count_modEq_card l positive, Nat.mod_eq_zero_of_dvd divides, if_neg (by omega),
          Nat.add_zero]

theorem routesTo_divisor (maps : MapsByRemainder mapShardID) (small : l < 2 ^ 31)
    (nonempty : 0 < l) (positive : 0 < c) (divides : c ∣ l) :
    RoutesTo mapShardID hash (Int32.ofNat l) (Int32.ofNat c) := by
  have small' : c < 2 ^ 31 := (Nat.le_of_dvd nonempty divides).trans_lt small
  have reached : ∀ p, 1 ≤ p ∧ p ≤ Int32.ofNat l → ∃ q, (1 ≤ q ∧ q ≤ Int32.ofNat c) ∧
      mapShardIDUnique mapShardID (Int32.ofNat l) (Int32.ofNat c) p = some q := by
    intro p listed
    obtain ⟨k, below, rfl⟩ := (listed_ofNat small).mp listed
    refine ⟨Int32.ofNat (k % c + 1), ?_, mapShardIDUnique_ofNat maps small positive divides below⟩
    exact (listed_ofNat small').mpr ⟨k % c, Nat.mod_lt k positive, rfl⟩
  constructor
  · exact reached
  · intro q listed
    obtain ⟨j, below, rfl⟩ := (listed_ofNat small').mp listed
    rw [proxyShards_length maps small nonempty positive divides below, Int32.toInt_ofNat_of_lt small,
      Int32.toInt_ofNat_of_lt small', Int.natCast_ediv]
  · intro p listed
    obtain ⟨q, listed', result⟩ := reached p listed
    have inShare : p ∈ proxyShards mapShardID (Int32.ofNat l) (Int32.ofNat c) q :=
      List.mem_filter.mpr ⟨mem_shardIDs.mpr listed, decide_eq_true result⟩
    refine ⟨q, ⟨listed', inShare⟩, ?_⟩
    rintro q' ⟨-, inOther⟩
    have result' := of_decide_eq_true (List.mem_filter.mp inOther).2
    exact Option.some.inj (result'.symm.trans result)
  · intro namespaceID workflowID
    -- The remainder by the multiple, taken by the divisor, is the remainder by the divisor.
    have below := Nat.mod_lt (hash namespaceID workflowID).toNat nonempty
    have mapped := mapShardIDUnique_ofNat maps small positive divides below
    rw [Nat.mod_mod_of_dvd _ divides] at mapped
    simpa only [workflowIDToHistoryShard, Int32.toNatClampNeg_ofNat_of_lt small,
      Int32.toNatClampNeg_ofNat_of_lt small', ofNat_succ] using mapped

end Divisor

/- Either count divides the multiple. -/
theorem lcm_routes {mapShardID : Int32 → Int32 → Int32 → List Int32} (maps : MapsByRemainder mapShardID)
    (hash : String → String → UInt32) {N T : Int32} (positive : 0 < N) (positive' : 0 < T)
    (fits : N.toInt * T.toInt ≤ 2 ^ 31 - 1) :
    RoutesTo mapShardID hash (lcm N T) N ∧ RoutesTo mapShardID hash (lcm N T) T := by
  obtain ⟨n, positiveN, small, rfl⟩ := positive_ofNat positive
  obtain ⟨t, positiveT, small', rfl⟩ := positive_ofNat positive'
  have product : n * t < 2 ^ 31 := by
    rw [Int32.toInt_ofNat_of_lt small, Int32.toInt_ofNat_of_lt small'] at fits
    have bound : ((n * t : Nat) : Int) ≤ 2 ^ 31 - 1 := by exact_mod_cast fits
    omega
  have multiple : Nat.lcm n t < 2 ^ 31 := (Nat.lcm_le_mul positiveN positiveT).trans_lt product
  have nonempty : 0 < Nat.lcm n t := Nat.lcm_pos positiveN positiveT
  rw [lcm_ofNat positiveN positiveT product]
  constructor
  · exact routesTo_divisor maps multiple nonempty positiveN (Nat.dvd_lcm_left n t)
  · exact routesTo_divisor maps multiple nonempty positiveT (Nat.dvd_lcm_right n t)

theorem lcm_mode_routes_workflows (mapShardID : Int32 → Int32 → Int32 → List Int32)
    (maps : MapsByRemainder mapShardID) (hash : String → String → UInt32) (N T : Int32)
    (positive : 0 < N) (positive' : 0 < T) (fits : N.toInt * T.toInt ≤ 2 ^ 31 - 1)
    (inverse : Bool) :
    let count := if inverse then N else T
    getLCMParameters ⟨.lcm, N, T⟩ inverse = ⟨lcm N T, count⟩ ∧
      RoutesTo mapShardID hash (lcm N T) count := by
  obtain ⟨routes, routes'⟩ := lcm_routes maps hash positive positive' fits
  cases inverse with
  | false => exact ⟨rfl, routes'⟩
  | true => exact ⟨rfl, routes⟩

def mapDivisor (source target id : Int32) : List Int32 :=
  if source % target = 0 then [(id - 1) % target + 1] else []

theorem mapDivisor_maps : MapsByRemainder mapDivisor := by
  intro source target id _ divides _ _
  exact if_pos divides

def lengthHash (namespaceID workflowID : String) : UInt32 :=
  UInt32.ofNat (31 * namespaceID.length + workflowID.length)

theorem lcm_mode_routes_four_and_six :
    MapsByRemainder mapDivisor ∧ (0 : Int32) < 4 ∧ (0 : Int32) < 6 ∧
      (4 : Int32).toInt * (6 : Int32).toInt ≤ 2 ^ 31 - 1 ∧
      RoutesTo mapDivisor lengthHash (lcm 4 6) 6 :=
  ⟨mapDivisor_maps, by decide, by decide, by decide,
    (lcm_mode_routes_workflows mapDivisor mapDivisor_maps lengthHash 4 6 (by decide)
      (by decide) (by decide) false).2⟩

theorem stream_follows_route {mapShardID : Int32 → Int32 → Int32 → List Int32}
    {hash : String → String → UInt32} {params : LCMParameters}
    (routes : RoutesTo mapShardID hash params.lcm params.targetShardCount)
    {namespaceID workflowID : String} {source : ClusterShardID} (target : ClusterShardID)
    (proxyShard : source.shardID = workflowIDToHistoryShard hash namespaceID workflowID params.lcm) :
    lcmStreamShards mapShardID params source target =
      some (⟨target.clusterID, source.shardID⟩,
        ⟨source.clusterID,
          workflowIDToHistoryShard hash namespaceID workflowID params.targetShardCount⟩) := by
  rw [lcmStreamShards, proxyShard, routes.workflow]
  rfl

/-- A stream for the proxy shard of a workflow is opened at the workflow's own shard, whichever of the
    two clusters has it. -/
theorem stream_reaches_workflow_shard (mapShardID : Int32 → Int32 → Int32 → List Int32)
    (maps : MapsByRemainder mapShardID) (hash : String → String → UInt32) (N T : Int32)
    (positive : 0 < N) (positive' : 0 < T) (fits : N.toInt * T.toInt ≤ 2 ^ 31 - 1)
    (inverse : Bool) (namespaceID workflowID : String) (source target : ClusterShardID)
    (proxyShard : source.shardID = workflowIDToHistoryShard hash namespaceID workflowID (lcm N T)) :
    lcmStreamShards mapShardID (getLCMParameters ⟨.lcm, N, T⟩ inverse) source target =
      some (⟨target.clusterID, source.shardID⟩,
        ⟨source.clusterID,
          workflowIDToHistoryShard hash namespaceID workflowID (if inverse then N else T)⟩) := by
  obtain ⟨routes, routes'⟩ := lcm_routes maps hash positive positive' fits
  cases inverse with
  | false => exact stream_follows_route routes' target proxyShard
  | true => exact stream_follows_route routes target proxyShard

theorem stream_of_workflow_with_four_and_six :
    lcmStreamShards mapDivisor (getLCMParameters ⟨.lcm, 4, 6⟩ false)
        ⟨1, workflowIDToHistoryShard lengthHash "ns" "order-17" (lcm 4 6)⟩ ⟨2, 3⟩ =
      some (⟨2, workflowIDToHistoryShard lengthHash "ns" "order-17" (lcm 4 6)⟩,
        ⟨1, workflowIDToHistoryShard lengthHash "ns" "order-17" 6⟩) :=
  stream_reaches_workflow_shard mapDivisor mapDivisor_maps lengthHash 4 6 (by decide) (by decide)
    (by decide) false "ns" "order-17" ⟨1, _⟩ ⟨2, 3⟩ rfl

end ShardMapping
