import S2SProxy.RingBuffer
import S2SProxy.Lib.GuardedRuns

/- Appending with ids that skip. The ids held are one range, from the oldest one held to the last
   one appended, and the skipped ids in it have the empty mapping. Append makes room once at its
   start and before each hole that it fills, but not between the last hole and the mapping. -/
namespace ProxyIDRing
open ShardData CircularWindow GuardedRuns

inductive Call where
  | append (proxyID : Int) (sourceShard : ClusterShardID) (sourceTask : Int)
  | discard (count : Int)

def Call.apply (b : ProxyIDRingBuffer) : Call → ProxyIDRingBuffer
  | .append proxyID sourceShard sourceTask => ProxyIDRing.append b proxyID sourceShard sourceTask
  -- A count that is not positive discards nothing.
  | .discard count => ProxyIDRing.discard b count.toNat

def Call.appendedID : Call → Option Int
  | .append proxyID _ _ => some proxyID
  | .discard _ => none

/-- What the ring stands for: everything appended so far, and the range of the ids held. -/
structure Held where
  appended : List (Int × ProxyIDMapping)
  oldest : Int
  next : Int

def Held.empty : Held := ⟨[], 0, 0⟩

def idRange (first : Int) (count : Nat) : List Int := (List.range count).map fun i : Nat => first + (i : Int)

def Held.mappingAt (h : Held) (id : Int) : ProxyIDMapping := (h.appended.lookup id).getD default

def Held.ids (h : Held) : List Int := idRange h.oldest (h.next - h.oldest).toNat

def Held.mappings (h : Held) : List ProxyIDMapping := h.ids.map h.mappingAt

/-- The mappings of the ids held up to a watermark. -/
def Held.upTo (h : Held) (watermark : Int) : List ProxyIDMapping :=
  (h.ids.filter fun id => decide (id ≤ watermark)).map h.mappingAt

def Held.append (h : Held) (id : Int) (m : ProxyIDMapping) : Held where
  appended := h.appended ++ [(id, m)]
  oldest := if h.oldest = h.next then id else h.oldest
  next := id + 1

def Held.discard (h : Held) (count : Int) : Held :=
  { h with oldest := min (h.oldest + max count 0) h.next }

def Held.apply (h : Held) : Call → Held
  | .append id shard task => h.append id ⟨shard, task⟩
  | .discard count => h.discard count

structure Tracked where
  ring : ProxyIDRingBuffer
  held : Held

def Tracked.new (capacity : Int) : Tracked := ⟨newProxyIDRingBuffer capacity, .empty⟩

/-- A call in its turn: an id is above all those appended before. -/
def Tracked.step (s : Tracked) (c : Call) : Option Tracked :=
  if ∀ id ∈ c.appendedID, ∀ e ∈ s.held.appended, e.1 < id then
    some ⟨c.apply s.ring, s.held.apply c⟩
  else none

/-- The ring holds what it stands for, within its cells, and aggregates it. -/
structure Exact (b : ProxyIDRingBuffer) (h : Held) : Prop where
  within : b.size ≤ b.entries.length
  contents_eq : contents b = h.mappings
  start : h.oldest < h.next → b.startProxyID = h.oldest
  aggregated : ∀ watermark,
    aggregateUpTo b watermark = (aggregate (h.upTo watermark), (h.upTo watermark).length)

/-- The distance of the id from the oldest one held is not the number of cells doubled any number
    of times. -/
def Fits (b : ProxyIDRingBuffer) : Call → Prop
  | .append proxyID _ _ => 0 < b.size →
    ∀ k : Nat, proxyID - b.startProxyID ≠ (ensureCapacity b).entries.length * 2 ^ k
  | .discard _ => True

section Ranges

theorem idRange_length (first : Int) (count : Nat) : (idRange first count).length = count := by
  simp [idRange]

theorem mem_idRange {first id : Int} {count : Nat} :
    id ∈ idRange first count ↔ first ≤ id ∧ id < first + count := by
  simp only [idRange, List.mem_map, List.mem_range]
  constructor
  · intro found
    obtain ⟨i, below, rfl⟩ := found
    omega
  · intro bounds
    exact ⟨(id - first).toNat, by omega, by omega⟩

theorem idRange_add (first : Int) (m n : Nat) :
    idRange first (m + n) = idRange first m ++ idRange (first + m) n := by
  simp [idRange, List.range_add, Function.comp_def, Int.add_assoc]

theorem idRange_one (first : Int) : idRange first 1 = [first] := by
  simp [idRange]

theorem idRange_drop (first : Int) {count k : Nat} (bound : k ≤ count) :
    (idRange first count).drop k = idRange (first + k) (count - k) := by
  have split : count = k + (count - k) := by omega
  rw [split, idRange_add, Nat.add_sub_cancel_left]
  apply List.drop_left'
  exact idRange_length first k

theorem idRange_filter (first watermark : Int) (count : Nat) :
    (idRange first count).filter (fun id => decide (id ≤ watermark)) =
      (idRange first count).take (watermark - first + 1).toNat := by
  induction count with
  | zero => simp [idRange]
  | succ n ih =>
    rw [idRange_add, List.filter_append, ih, List.take_append, idRange_length, idRange_one]
    by_cases inside : first + n ≤ watermark
    · have one : 0 < (watermark - first + 1).toNat - n := by omega
      simp [inside, List.take_of_length_le (show [first + (n : Int)].length ≤ _ from one)]
    · have none : (watermark - first + 1).toNat - n = 0 := by omega
      simp [inside, none]

end Ranges

section Holes
variable {b : ProxyIDRingBuffer}

theorem ensureCapacity_wellFormed (wf : WellFormed b) : WellFormed (ensureCapacity b) := by
  constructor
  · exact ensureCapacity_head_lt wf
  · exact (ensureCapacity_room wf).le

theorem hole_wellFormed (wf : WellFormed b) : WellFormed (write (ensureCapacity b) default) :=
  write_wellFormed (ensureCapacity_head_lt wf) (ensureCapacity_room wf) default

theorem hole_contents (wf : WellFormed b) :
    contents (write (ensureCapacity b) default) = contents b ++ [default] := by
  rw [write_contents (ensureCapacity_room wf), ensureCapacity_contents wf]

theorem fillHoles_wellFormed (wf : WellFormed b) (missing : Nat) :
    WellFormed (fillHoles missing b) := by
  induction missing generalizing b with
  | zero => exact wf
  | succ n ih => exact ih (hole_wellFormed wf)

theorem fillHoles_contents (wf : WellFormed b) (missing : Nat) :
    contents (fillHoles missing b) = contents b ++ List.replicate missing default := by
  induction missing generalizing b with
  | zero => simp [fillHoles]
  | succ n ih =>
    rw [fillHoles, ih (hole_wellFormed wf), hole_contents wf, List.append_assoc,
      List.replicate_succ, List.singleton_append]

theorem fillHoles_size (wf : WellFormed b) (missing : Nat) :
    (fillHoles missing b).size = b.size + missing := by
  have lengths := congrArg List.length (fillHoles_contents wf missing)
  simpa using lengths

theorem fillHoles_startProxyID (b : ProxyIDRingBuffer) (missing : Nat) :
    (fillHoles missing b).startProxyID = b.startProxyID := by
  induction missing generalizing b with
  | zero => rfl
  | succ n ih =>
    rw [fillHoles, ih]
    simp [write]

theorem ensureCapacity_length (wf : WellFormed b) :
    (ensureCapacity b).entries.length = b.entries.length ∨
      b.size = b.entries.length ∧ (ensureCapacity b).entries.length = b.entries.length * 2 := by
  have head := wf.head_lt
  have size := wf.size_le
  unfold ensureCapacity
  split
  · exact .inl rfl
  · right
    constructor
    · omega
    · rw [relocate_length, if_neg (by omega)]

/- The cells are doubled only while they are too few. -/
theorem fillHoles_length (wf : WellFormed b) (missing : Nat) :
    ∃ j : Nat, (fillHoles missing b).entries.length = b.entries.length * 2 ^ j ∧
      ∀ i < j, b.entries.length * 2 ^ i < b.size + missing := by
  induction missing generalizing b with
  | zero => exact ⟨0, by simp [fillHoles], by omega⟩
  | succ n ih =>
    obtain ⟨j, length, doubled⟩ := ih (hole_wellFormed wf)
    have cells : (write (ensureCapacity b) default).entries.length =
        (ensureCapacity b).entries.length := by simp [write]
    have size : (write (ensureCapacity b) default).size = b.size + 1 := by simp [write]
    rw [cells] at length doubled
    rw [size] at doubled
    rcases ensureCapacity_length wf with same | ⟨full, twice⟩
    · rw [same] at length doubled
      refine ⟨j, length, fun i below => ?_⟩
      have := doubled i below
      omega
    · rw [twice] at length doubled
      refine ⟨j + 1, ?_, fun i below => ?_⟩
      · rw [fillHoles, length, Nat.pow_succ, Nat.mul_assoc, Nat.mul_comm 2]
      · cases i with
        | zero => omega
        | succ i =>
          have := doubled i (by omega)
          rw [Nat.pow_succ, Nat.mul_comm (2 ^ i), ← Nat.mul_assoc]
          omega

/- After the last hole the cells are all taken exactly at the doublings of their number. -/
theorem fillHoles_full (wf : WellFormed b) (missing : Nat) :
    (fillHoles missing b).size = (fillHoles missing b).entries.length ↔
      ∃ k : Nat, b.size + missing = b.entries.length * 2 ^ k := by
  have head := wf.head_lt
  have bound := (fillHoles_wellFormed wf missing).size_le
  obtain ⟨j, length, doubled⟩ := fillHoles_length wf missing
  rw [fillHoles_size wf, length] at bound ⊢
  constructor
  · intro full
    exact ⟨j, full⟩
  · intro found
    obtain ⟨k, full⟩ := found
    have notLess : ¬ k < j := fun less => by
      have := doubled k less
      omega
    have exponent : 2 ^ k ≤ 2 ^ j := by
      rw [full] at bound
      exact Nat.le_of_mul_le_mul_left bound (by omega)
    have notMore : k ≤ j := (Nat.pow_le_pow_iff_right (by omega)).mp exponent
    have same : k = j := by omega
    rw [full, same]

end Holes

structure Ordered (h : Held) : Prop where
  range : h.oldest ≤ h.next
  bounded : ∀ e ∈ h.appended, e.1 < h.next
  last : h.oldest < h.next → ∃ e ∈ h.appended, e.1 + 1 = h.next

section Ids
variable {h : Held} {id : Int} {m : ProxyIDMapping}

theorem lookup_absent {appended : List (Int × ProxyIDMapping)}
    (absent : ∀ e ∈ appended, e.1 ≠ id) : appended.lookup id = none := by
  rw [List.lookup_eq_none_iff]
  intro e member
  simpa using (absent e member).symm

theorem mappingAt_append_other {j : Int} (other : j ≠ id) :
    (h.append id m).mappingAt j = h.mappingAt j := by
  have differs : (j == id) = false := by simpa using other
  simp [Held.mappingAt, Held.append, List.lookup_append, List.lookup, differs]

theorem mappingAt_append_same (fresh : ∀ e ∈ h.appended, e.1 < id) :
    (h.append id m).mappingAt id = m := by
  have absent : h.appended.lookup id = none := lookup_absent fun e member => (fresh e member).ne
  simp [Held.mappingAt, Held.append, List.lookup_append, List.lookup, absent]

theorem mappingAt_skipped (ordered : Ordered h) {j : Int} (skipped : h.next ≤ j) :
    h.mappingAt j = default := by
  have absent : h.appended.lookup j = none := by
    apply lookup_absent
    intro e member
    have := ordered.bounded e member
    omega
  simp [Held.mappingAt, absent]

theorem mappings_length (ordered : Ordered h) : (h.mappings.length : Int) = h.next - h.oldest := by
  have range := ordered.range
  simp only [Held.mappings, Held.ids, List.length_map, idRange_length]
  omega

/- A new id is not before the next one, as long as something is held. -/
theorem Ordered.next_le (ordered : Ordered h) (fresh : ∀ e ∈ h.appended, e.1 < id)
    (occupied : h.oldest < h.next) : h.next ≤ id := by
  obtain ⟨e, member, last⟩ := ordered.last occupied
  have := fresh e member
  omega

theorem mappings_append_empty (fresh : ∀ e ∈ h.appended, e.1 < id) (empty : h.oldest = h.next) :
    (h.append id m).mappings = [m] := by
  have ids : (h.append id m).ids = [id] := by
    simp [Held.ids, Held.append, empty, idRange_one]
  simp [Held.mappings, ids, mappingAt_append_same fresh]

theorem ids_append (occupied : h.oldest < h.next) (beyond : h.next ≤ id) :
    (h.append id m).ids = h.ids ++ idRange h.next (id - h.next).toNat ++ [id] := by
  have count : (id + 1 - h.oldest).toNat =
      (h.next - h.oldest).toNat + (id - h.next).toNat + 1 := by omega
  have middle : h.oldest + ((h.next - h.oldest).toNat : Int) = h.next := by omega
  have final : h.oldest + (((h.next - h.oldest).toNat + (id - h.next).toNat : Nat) : Int) = id := by
    omega
  simp only [Held.ids, Held.append, if_neg occupied.ne, count]
  rw [idRange_add, idRange_add, middle, final, idRange_one]

theorem mappings_append (ordered : Ordered h) (fresh : ∀ e ∈ h.appended, e.1 < id)
    (occupied : h.oldest < h.next) :
    (h.append id m).mappings =
      h.mappings ++ List.replicate (id - h.next).toNat default ++ [m] := by
  have beyond := ordered.next_le fresh occupied
  have kept : h.ids.map (h.append id m).mappingAt = h.mappings := by
    apply List.map_congr_left
    intro j member
    have bounds := mem_idRange.mp member
    exact mappingAt_append_other (by omega)
  have skipped : (idRange h.next (id - h.next).toNat).map (h.append id m).mappingAt =
      List.replicate (id - h.next).toNat default := by
    rw [List.eq_replicate_iff, List.length_map, idRange_length]
    refine ⟨rfl, ?_⟩
    intro found member
    obtain ⟨j, listed, rfl⟩ := List.mem_map.mp member
    have bounds := mem_idRange.mp listed
    rw [mappingAt_append_other (by omega), mappingAt_skipped ordered bounds.1]
  rw [Held.mappings, ids_append occupied beyond, List.map_append, List.map_append, kept, skipped,
    List.map_singleton, mappingAt_append_same fresh]

theorem ids_discard (ordered : Ordered h) (count : Int) :
    (h.discard count).ids = h.ids.drop count.toNat := by
  have range := ordered.range
  by_cases inside : count.toNat ≤ (h.next - h.oldest).toNat
  · have oldest : min (h.oldest + max count 0) h.next = h.oldest + (count.toNat : Int) := by omega
    have left : (h.next - (h.oldest + (count.toNat : Int))).toNat =
        (h.next - h.oldest).toNat - count.toNat := by omega
    simp only [Held.ids, Held.discard, oldest, left]
    rw [idRange_drop h.oldest inside]
  · have oldest : min (h.oldest + max count 0) h.next = h.next := by omega
    have nothing : h.ids.drop count.toNat = [] := by
      apply List.drop_eq_nil_of_le
      simp only [Held.ids, idRange_length]
      omega
    rw [nothing]
    simp [Held.ids, Held.discard, oldest, idRange]

theorem mappings_discard (ordered : Ordered h) (count : Int) :
    (h.discard count).mappings = h.mappings.drop count.toNat := by
  rw [Held.mappings, ids_discard ordered, Held.mappings, List.map_drop]
  rfl

theorem append_ordered (fresh : ∀ e ∈ h.appended, e.1 < id) (ordered : Ordered h) :
    Ordered (h.append id m) := by
  constructor
  · simp only [Held.append]
    split
    · omega
    · next occupied =>
      have range := ordered.range
      have := ordered.next_le fresh (by omega)
      omega
  · intro e member
    simp only [Held.append, List.mem_append, List.mem_singleton] at member ⊢
    rcases member with earlier | rfl
    · have := fresh e earlier
      omega
    · dsimp only
      omega
  · intro _
    exact ⟨(id, m), by simp [Held.append], rfl⟩

theorem discard_ordered (ordered : Ordered h) (count : Int) : Ordered (h.discard count) := by
  have range := ordered.range
  constructor
  · simp only [Held.discard]
    omega
  · exact ordered.bounded
  · intro occupied
    apply ordered.last
    simp only [Held.discard] at occupied
    omega

end Ids

section Steps
variable {b : ProxyIDRingBuffer} {h : Held}

theorem upTo_eq_take (h : Held) (watermark : Int) :
    h.upTo watermark = h.mappings.take (watermark - h.oldest + 1).toNat := by
  rw [Held.upTo, Held.mappings, Held.ids, idRange_filter, List.map_take]

theorem size_of_contents (held : contents b = h.mappings) (ordered : Ordered h) :
    (b.size : Int) = h.next - h.oldest := by
  rw [← mappings_length ordered, ← held, contents_length]

/- The aggregation reads a prefix of the contents, so it is exact where they are. -/
theorem exact_of_contents (within : b.size ≤ b.entries.length) (held : contents b = h.mappings)
    (start : h.oldest < h.next → b.startProxyID = h.oldest) (ordered : Ordered h) : Exact b h := by
  have size := size_of_contents held ordered
  refine ⟨within, held, start, fun watermark => ?_⟩
  rw [aggregateUpTo_eq, upTo_eq_take, held, List.length_take, ← held, contents_length]
  rcases lt_or_ge h.oldest h.next with occupied | empty
  · rw [start occupied]
  · have none : b.size = 0 := by omega
    simp [contents_of_empty none, none]

theorem append_occupied (proxyID : Int) (shard : ClusterShardID) (task : Int)
    (occupied : 0 < b.size) :
    append b proxyID shard task =
      write (fillHoles (proxyID - (b.startProxyID + b.size)).toNat (ensureCapacity b))
        ⟨shard, task⟩ := by
  have filled : ¬ b.size = 0 := by omega
  by_cases aligned : proxyID = b.startProxyID + b.size
  · simp [append, filled, aligned, fillHoles]
  · simp [append, filled, aligned]

theorem discard_drops (b : ProxyIDRingBuffer) (count : Nat) :
    contents (discard b count) = (contents b).drop count := by
  rcases Nat.le_total count b.size with inside | beyond
  · exact discard_contents b inside
  · have size : (discard b count).size = 0 := by
      unfold discard
      split
      · omega
      · dsimp only
        split <;> omega
    rw [List.drop_eq_nil_of_le (by simpa using beyond)]
    exact contents_of_empty size

theorem discard_exact (wf : WellFormed b) (ordered : Ordered h) (exact : Exact b h) (count : Int) :
    Exact (discard b count.toNat) (h.discard count) := by
  have size := size_of_contents exact.contents_eq ordered
  apply exact_of_contents
  · exact (discard_wellFormed wf count.toNat).size_le
  · rw [discard_drops, exact.contents_eq, mappings_discard ordered]
  · intro occupied
    simp only [Held.discard] at occupied ⊢
    rw [discard_startProxyID b (by omega), exact.start (by omega)]
    omega
  · exact discard_ordered ordered count

theorem append_wellFormed_of_within (wf : WellFormed b) (proxyID : Int) (shard : ClusterShardID)
    (task : Int)
    (within : (append b proxyID shard task).size ≤ (append b proxyID shard task).entries.length) :
    WellFormed (append b proxyID shard task) := by
  refine ⟨?_, within⟩
  rcases Nat.eq_zero_or_pos b.size with empty | occupied
  · exact (append_wellFormed wf proxyID shard task (by omega)).head_lt
  · rw [append_occupied proxyID shard task occupied]
    simpa [write] using (fillHoles_wellFormed (ensureCapacity_wellFormed wf) _).head_lt

section Append
variable {id : Int}

/- Nothing is skipped before the first id held. -/
theorem append_exact_empty (wf : WellFormed b) (ordered : Ordered h) (exact : Exact b h)
    (fresh : ∀ e ∈ h.appended, e.1 < id) (shard : ClusterShardID) (task : Int)
    (empty : b.size = 0) : Exact (append b id shard task) (h.append id ⟨shard, task⟩) := by
  have size := size_of_contents exact.contents_eq ordered
  apply exact_of_contents
  · exact (append_wellFormed wf id shard task (by omega)).size_le
  · rw [append_contents wf id shard task (by omega), contents_of_empty empty,
      mappings_append_empty fresh (by omega), List.nil_append]
  · intro _
    rw [append_startProxyID b id shard task (by omega), if_pos empty]
    simp only [Held.append]
    rw [if_pos (by omega)]
  · exact append_ordered fresh ordered

/- The distance to the oldest id held is what is taken once the holes are filled. -/
theorem fits_iff_not_full (wf : WellFormed b) {next : Int} (occupied : 0 < b.size)
    (expected : b.startProxyID + b.size = next) (beyond : next ≤ id) (shard : ClusterShardID)
    (task : Int) :
    Fits b (.append id shard task) ↔
      (fillHoles (id - next).toNat (ensureCapacity b)).size ≠
        (fillHoles (id - next).toNat (ensureCapacity b)).entries.length := by
  have taken : ∀ k : Nat, (ensureCapacity b).size + (id - next).toNat =
      (ensureCapacity b).entries.length * 2 ^ k ↔
      id - b.startProxyID = (ensureCapacity b).entries.length * 2 ^ k := by
    intro k
    rw [ensureCapacity_size, ← Int.natCast_inj]
    push_cast
    omega
  rw [Ne, fillHoles_full (ensureCapacity_wellFormed wf), not_exists]
  simp only [taken]
  exact ⟨fun fits => fits occupied, fun fits _ => fits⟩

theorem append_exact_occupied (wf : WellFormed b) (ordered : Ordered h) (exact : Exact b h)
    (fresh : ∀ e ∈ h.appended, e.1 < id) (shard : ClusterShardID) (task : Int)
    (occupied : 0 < b.size) :
    Exact (append b id shard task) (h.append id ⟨shard, task⟩) ↔ Fits b (.append id shard task) := by
  have size := size_of_contents exact.contents_eq ordered
  have start : b.startProxyID = h.oldest := exact.start (by omega)
  have expected : b.startProxyID + b.size = h.next := by omega
  have wf' : WellFormed (ensureCapacity b) := ensureCapacity_wellFormed wf
  have filled := fillHoles_wellFormed wf' (id - h.next).toNat
  rw [fits_iff_not_full wf occupied expected (ordered.next_le fresh (by omega)),
    append_occupied id shard task occupied, expected]
  constructor
  · intro good
    have within := good.within
    simp only [write, List.length_set] at within
    omega
  · intro notFull
    have room := lt_of_le_of_ne filled.size_le notFull
    apply exact_of_contents
    · exact (write_wellFormed filled.head_lt room _).size_le
    · rw [write_contents room, fillHoles_contents wf', ensureCapacity_contents wf,
        exact.contents_eq, mappings_append ordered fresh (by omega)]
    · intro _
      simp only [Held.append]
      rw [if_neg (by omega)]
      simp [write, fillHoles_startProxyID, start]
    · exact append_ordered fresh ordered

theorem append_exact_iff (wf : WellFormed b) (ordered : Ordered h) (exact : Exact b h)
    (fresh : ∀ e ∈ h.appended, e.1 < id) (shard : ClusterShardID) (task : Int) :
    Exact (append b id shard task) (h.append id ⟨shard, task⟩) ↔ Fits b (.append id shard task) := by
  rcases Nat.eq_zero_or_pos b.size with empty | occupied
  · constructor
    · intro _ filled
      omega
    · intro _
      exact append_exact_empty wf ordered exact fresh shard task empty
  · exact append_exact_occupied wf ordered exact fresh shard task occupied

end Append

end Steps

theorem empty_ordered : Ordered .empty := by
  constructor
  · exact Int.le_refl 0
  · exact fun _ member => absurd member List.not_mem_nil
  · exact fun occupied => absurd occupied (Int.lt_irrefl 0)

theorem new_exact (capacity : Int) : Exact (newProxyIDRingBuffer capacity) .empty := by
  apply exact_of_contents
  · exact (new_wellFormed capacity).size_le
  · rfl
  · exact fun occupied => absurd occupied (Int.lt_irrefl 0)
  · exact empty_ordered

theorem step_inv {s t : Tracked} {c : Call} (h : s.step c = some t) :
    (∀ id ∈ c.appendedID, ∀ e ∈ s.held.appended, e.1 < id) ∧
      t = ⟨c.apply s.ring, s.held.apply c⟩ := by
  simp only [Tracked.step] at h
  split at h
  · next fresh => exact ⟨fresh, (Option.some.inj h).symm⟩
  · cases h

theorem step_ordered {s t : Tracked} {c : Call} (ordered : Ordered s.held)
    (h : s.step c = some t) : Ordered t.held := by
  obtain ⟨fresh, rfl⟩ := step_inv h
  cases c with
  | append id shard task => exact append_ordered (fresh id rfl) ordered
  | discard count => exact discard_ordered ordered count

theorem step_wellFormed {s t : Tracked} {c : Call} (wf : WellFormed s.ring)
    (h : s.step c = some t) (exact : Exact t.ring t.held) : WellFormed t.ring := by
  obtain ⟨_, rfl⟩ := step_inv h
  cases c with
  | append id shard task => exact append_wellFormed_of_within wf id shard task exact.within
  | discard count => exact discard_wellFormed wf count.toNat

theorem step_exact {s t : Tracked} {c : Call} (ordered : Ordered s.held) (wf : WellFormed s.ring)
    (exact : Exact s.ring s.held) (h : s.step c = some t) :
    Exact t.ring t.held ↔ Fits s.ring c := by
  obtain ⟨fresh, rfl⟩ := step_inv h
  cases c with
  | append id shard task => exact append_exact_iff wf ordered exact (fresh id rfl) shard task
  | discard count => exact ⟨fun _ => trivial, fun _ => discard_exact wf ordered exact count⟩

/- Calls with increasing ids are all in their turn. -/
theorem runs_of_increasing {calls : List Call} {s : Tracked}
    (increasing : (calls.filterMap Call.appendedID).Pairwise (· < ·))
    (fresh : ∀ id ∈ calls.filterMap Call.appendedID, ∀ e ∈ s.held.appended, e.1 < id) :
    ∃ t, run Tracked.step s calls = some t := by
  induction calls generalizing s with
  | nil => exact ⟨s, rfl⟩
  | cons c rest ih =>
    have turn : s.step c = some ⟨c.apply s.ring, s.held.apply c⟩ := by
      apply if_pos
      intro id appended
      apply fresh id
      exact List.mem_filterMap.mpr ⟨c, List.mem_cons_self, appended⟩
    simp only [run, turn]
    cases c with
    | append id shard task =>
      simp only [List.filterMap_cons, Call.appendedID, List.pairwise_cons, List.mem_cons,
        forall_eq_or_imp] at increasing fresh
      apply ih increasing.2
      intro later member e appended
      simp only [Held.apply, Held.append, List.mem_append, List.mem_singleton] at appended
      rcases appended with earlier | rfl
      · exact fresh.2 later member e earlier
      · exact increasing.1 later member
    | discard count =>
      simp only [List.filterMap_cons, Call.appendedID] at increasing fresh
      exact ih increasing fresh

theorem gaps_filled_iff_fits (capacity : Int) (calls : List Call)
    (increasing : (calls.filterMap Call.appendedID).Pairwise (· < ·)) :
    Always Tracked.step (fun s => Exact s.ring s.held) (.new capacity) calls ↔
      Meets Tracked.step (fun s c => Fits s.ring c) (.new capacity) calls := by
  have fresh : ∀ id ∈ calls.filterMap Call.appendedID,
      ∀ e ∈ (Tracked.new capacity).held.appended, e.1 < id := by
    simp [Tracked.new, Held.empty]
  obtain ⟨t, runs⟩ := runs_of_increasing increasing fresh
  refine @always_iff_meets_carried _ _ _ _ (fun s => Exact s.ring s.held)
    (fun s => WellFormed s.ring ∧ Exact s.ring s.held) (fun s => Ordered s.held) ?_ ?_ ?_ _ _ _
    empty_ordered ⟨new_wellFormed capacity, new_exact capacity⟩ (new_exact capacity) runs
  · intro s c t ordered h
    exact step_ordered ordered h
  · intro s c t _ carried h exact
    exact ⟨step_wellFormed carried.1 h exact, exact⟩
  · intro s c t ordered carried h
    exact step_exact ordered carried.1 carried.2 h

def shardA : ClusterShardID := ⟨1, 1⟩
def shardB : ClusterShardID := ⟨1, 2⟩

def oneSkipped : List Call := [.append 1 shardA 10, .append 3 shardB 30, .discard 1]

theorem one_skipped_in_four :
    (oneSkipped.filterMap Call.appendedID).Pairwise (· < ·) ∧
      Always Tracked.step (fun s => Exact s.ring s.held) (.new 4) oneSkipped := by
  have increasing : (oneSkipped.filterMap Call.appendedID).Pairwise (· < ·) := by decide
  refine ⟨increasing, (gaps_filled_iff_fits 4 oneSkipped increasing).mpr ?_⟩
  refine ⟨fun occupied => absurd occupied (by decide), fun _ k => ?_, trivial, trivial⟩
  change (3 : Int) - 1 ≠ ((4 : Nat) : Int) * 2 ^ k
  have positive : (1 : Int) ≤ 2 ^ k := one_le_pow₀ (by decide)
  omega

/- With two cells the second mapping is written over the first one, which is then aggregated in
   its place. -/
theorem one_skipped_in_two :
    (oneSkipped.filterMap Call.appendedID).Pairwise (· < ·) ∧
      ¬ Always Tracked.step (fun s => Exact s.ring s.held) (.new 2) oneSkipped ∧
      ∃ s, run Tracked.step (.new 2) [.append 1 shardA 10, .append 3 shardB 30] = some s ∧
        s.held.mappings = [⟨shardA, 10⟩, default, ⟨shardB, 30⟩] ∧
        contents s.ring = [⟨shardB, 30⟩, default, ⟨shardB, 30⟩] ∧
        s.ring.size = 3 ∧ s.ring.entries.length = 2 ∧
        (aggregateUpTo s.ring 1).1.lookup shardA = none ∧
        (aggregateUpTo s.ring 1).1.lookup shardB = some 30 := by
  refine ⟨by decide, fun always => ?_, _, rfl, by decide, by decide, by decide, by decide,
    by decide, by decide⟩
  have within := always.2.2.1.within
  exact absurd within (by decide)

end ProxyIDRing
