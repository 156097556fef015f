import S2SProxy.Lib.CircularWindow
import S2SProxy.Lib.NumberedQueue
import S2SProxy.ShardData

/- The ring buffer in which a stream sender remembers the source task behind each proxy
   task id it hands out. Proxy ids are unbounded here; in the program they are 64-bit. -/
namespace ProxyIDRing
open ShardData CircularWindow

structure ProxyIDMapping where
  sourceShard : ClusterShardID
  sourceTask : Int
  deriving DecidableEq, Repr, Inhabited

structure ProxyIDRingBuffer where
  entries : List ProxyIDMapping
  head : Nat
  size : Nat
  maxSize : Nat
  /-- Of 64 bits, like every proxy ID; they are not taken to wrap around. -/
  startProxyID : Int
  deriving DecidableEq, Repr

def newProxyIDRingBuffer (capacity : Int) : ProxyIDRingBuffer :=
  let capacity := if capacity < 1 then 1 else capacity
  ⟨List.replicate capacity.toNat default, 0, 0, 0, 0⟩

def ensureCapacity (b : ProxyIDRingBuffer) : ProxyIDRingBuffer :=
  if b.size < b.entries.length then b
  else
    let newCap := if b.entries.length * 2 = 0 then 1 else b.entries.length * 2
    { b with entries := relocate b.entries b.head b.size newCap, head := 0 }

def write (b : ProxyIDRingBuffer) (m : ProxyIDMapping) : ProxyIDRingBuffer :=
  let size := b.size + 1
  { b with
    entries := b.entries.set (slot b.entries.length b.head b.size) m
    size := size
    maxSize := if size > b.maxSize then size else b.maxSize }

/-- The hole-filling loop of Append: empty mappings until the ids are aligned. -/
def fillHoles : Nat → ProxyIDRingBuffer → ProxyIDRingBuffer
  | 0, b => b
  | missing + 1, b => fillHoles missing (write (ensureCapacity b) default)

def append (b : ProxyIDRingBuffer) (proxyID : Int) (sourceShard : ClusterShardID)
    (sourceTask : Int) : ProxyIDRingBuffer :=
  let b := ensureCapacity b
  let b :=
    if b.size = 0 then { b with startProxyID := proxyID }
    else
      let expected := b.startProxyID + b.size
      if proxyID ≠ expected then fillHoles (proxyID - expected).toNat b else b
  write b ⟨sourceShard, sourceTask⟩

/-- One round of the aggregation loop. The mapping {0, 0} marks a hole and is skipped. -/
def absorb (result : ShardMap) (m : ProxyIDMapping) : ShardMap :=
  if m.sourceShard.clusterID = 0 ∧ m.sourceShard.shardID = 0 then result
  else
    match result.lookup m.sourceShard with
    | none => result.insert m.sourceShard m.sourceTask
    | some current =>
      if m.sourceTask > current then result.insert m.sourceShard m.sourceTask else result

def aggregateUpTo (b : ProxyIDRingBuffer) (watermark : Int) : ShardMap × Nat :=
  if b.size = 0 then (∅, 0)
  else if watermark < b.startProxyID then (∅, 0)
  else
    let count64 := watermark - b.startProxyID + 1
    if count64 ≤ 0 then (∅, 0)
    else
      let count := if count64.toNat > b.size then b.size else count64.toNat
      ((List.range count).foldl
        (fun result i =>
          absorb result (b.entries.getD (slot b.entries.length b.head i) default)) ∅, count)

def discard (b : ProxyIDRingBuffer) (count : Nat) : ProxyIDRingBuffer :=
  if count = 0 then b
  else
    let count := if count > b.size then b.size else count
    { b with
      head := slot b.entries.length b.head count
      size := b.size - count
      startProxyID := b.startProxyID + count }

/-- The mappings held, read from the head in order. -/
def contents (b : ProxyIDRingBuffer) : List ProxyIDMapping := window b.entries b.head b.size

/-- What the index arithmetic needs: the head is a cell and the occupied cells fit. -/
structure WellFormed (b : ProxyIDRingBuffer) : Prop where
  head_lt : b.head < b.entries.length
  size_le : b.size ≤ b.entries.length

@[simp] theorem contents_length (b : ProxyIDRingBuffer) : (contents b).length = b.size := by
  simp [contents]

theorem contents_of_empty {b : ProxyIDRingBuffer} (empty : b.size = 0) : contents b = [] := by
  rw [← List.length_eq_zero_iff, contents_length, empty]

theorem new_wellFormed (capacity : Int) : WellFormed (newProxyIDRingBuffer capacity) := by
  constructor
  · simp only [newProxyIDRingBuffer, List.length_replicate]
    split <;> omega
  · simp [newProxyIDRingBuffer]

@[simp] theorem ensureCapacity_size (b : ProxyIDRingBuffer) : (ensureCapacity b).size = b.size := by
  unfold ensureCapacity
  split <;> rfl

@[simp] theorem ensureCapacity_startProxyID (b : ProxyIDRingBuffer) :
    (ensureCapacity b).startProxyID = b.startProxyID := by
  unfold ensureCapacity
  split <;> rfl

theorem ensureCapacity_head_lt {b : ProxyIDRingBuffer} (wf : WellFormed b) :
    (ensureCapacity b).head < (ensureCapacity b).entries.length := by
  have head := wf.head_lt
  unfold ensureCapacity
  split
  · exact head
  · simp only [relocate_length]
    split <;> omega

theorem ensureCapacity_room {b : ProxyIDRingBuffer} (wf : WellFormed b) :
    (ensureCapacity b).size < (ensureCapacity b).entries.length := by
  have head := wf.head_lt
  have size := wf.size_le
  unfold ensureCapacity
  split
  · assumption
  · simp only [relocate_length]
    split <;> omega

theorem ensureCapacity_contents {b : ProxyIDRingBuffer} (wf : WellFormed b) :
    contents (ensureCapacity b) = contents b := by
  have size := wf.size_le
  unfold ensureCapacity
  split
  · rfl
  · simp only [contents]
    apply window_relocate
    split <;> omega

theorem write_contents {b : ProxyIDRingBuffer} (room : b.size < b.entries.length)
    (m : ProxyIDMapping) : contents (write b m) = contents b ++ [m] := by
  simp only [contents, write]
  exact window_write room m

theorem write_wellFormed {b : ProxyIDRingBuffer} (head : b.head < b.entries.length)
    (room : b.size < b.entries.length) (m : ProxyIDMapping) : WellFormed (write b m) := by
  constructor
  · simpa [write] using head
  · simp only [write, List.length_set]
    omega

def restart (b : ProxyIDRingBuffer) (proxyID : Int) : ProxyIDRingBuffer :=
  { b with startProxyID := if b.size = 0 then proxyID else b.startProxyID }

theorem restart_contents (b : ProxyIDRingBuffer) (proxyID : Int) :
    contents (restart b proxyID) = contents b := rfl

theorem append_expected (b : ProxyIDRingBuffer) (proxyID : Int) (shard : ClusterShardID)
    (task : Int) (expected : 0 < b.size → proxyID = b.startProxyID + b.size) :
    append b proxyID shard task = write (restart (ensureCapacity b) proxyID) ⟨shard, task⟩ := by
  by_cases empty : b.size = 0
  · simp [append, restart, empty]
  · have aligned := expected (by omega)
    have occupied : ¬ (ensureCapacity b).size = 0 := by simpa using empty
    have same : restart (ensureCapacity b) proxyID = ensureCapacity b := by
      simp only [restart, if_neg occupied]
    rw [same]
    simp [append, empty, aligned]

theorem append_wellFormed {b : ProxyIDRingBuffer} (wf : WellFormed b) (proxyID : Int)
    (shard : ClusterShardID) (task : Int)
    (expected : 0 < b.size → proxyID = b.startProxyID + b.size) :
    WellFormed (append b proxyID shard task) := by
  rw [append_expected b proxyID shard task expected]
  exact write_wellFormed (b := restart (ensureCapacity b) proxyID)
    (ensureCapacity_head_lt wf) (ensureCapacity_room wf) _

theorem append_contents {b : ProxyIDRingBuffer} (wf : WellFormed b) (proxyID : Int)
    (shard : ClusterShardID) (task : Int)
    (expected : 0 < b.size → proxyID = b.startProxyID + b.size) :
    contents (append b proxyID shard task) = contents b ++ [⟨shard, task⟩] := by
  have room : (restart (ensureCapacity b) proxyID).size <
      (restart (ensureCapacity b) proxyID).entries.length := ensureCapacity_room wf
  rw [append_expected b proxyID shard task expected, write_contents room, restart_contents,
    ensureCapacity_contents wf]

theorem append_startProxyID (b : ProxyIDRingBuffer) (proxyID : Int) (shard : ClusterShardID)
    (task : Int) (expected : 0 < b.size → proxyID = b.startProxyID + b.size) :
    (append b proxyID shard task).startProxyID =
      if b.size = 0 then proxyID else b.startProxyID := by
  rw [append_expected b proxyID shard task expected]
  simp [write, restart]

theorem discard_wellFormed {b : ProxyIDRingBuffer} (wf : WellFormed b) (count : Nat) :
    WellFormed (discard b count) := by
  have head := wf.head_lt
  have size := wf.size_le
  unfold discard
  split
  · exact wf
  · exact ⟨slot_lt b.head _ (by omega), by dsimp only; omega⟩

theorem discard_contents (b : ProxyIDRingBuffer) {count : Nat} (bound : count ≤ b.size) :
    contents (discard b count) = (contents b).drop count := by
  unfold discard
  split
  · next none => simp [none]
  · have clamp : (if count > b.size then b.size else count) = count := if_neg (by omega)
    simp only [contents, clamp]
    exact window_advance bound

theorem discard_startProxyID (b : ProxyIDRingBuffer) {count : Nat} (bound : count ≤ b.size) :
    (discard b count).startProxyID = b.startProxyID + count := by
  unfold discard
  split
  · next none => simp [none]
  · have clamp : (if count > b.size then b.size else count) = count := if_neg (by omega)
    simp [clamp]

def aggregate (ms : List ProxyIDMapping) : ShardMap := ms.foldl absorb ∅

theorem aggregate_concat (ms : List ProxyIDMapping) (m : ProxyIDMapping) :
    aggregate (ms ++ [m]) = absorb (aggregate ms) m := by
  simp [aggregate]

/-- The mapping that marks a hole; no source shard may use it. -/
def hole : ClusterShardID := ⟨0, 0⟩

theorem absorb_hole (result : ShardMap) {m : ProxyIDMapping} (h : m.sourceShard = hole) :
    absorb result m = result := by
  simp [absorb, h, hole]

theorem absorb_some (result : ShardMap) {m : ProxyIDMapping} (h : m.sourceShard ≠ hole) :
    absorb result m =
      match result.lookup m.sourceShard with
      | none => result.insert m.sourceShard m.sourceTask
      | some current =>
        if m.sourceTask > current then result.insert m.sourceShard m.sourceTask else result := by
  have apart : ¬ (m.sourceShard.clusterID = 0 ∧ m.sourceShard.shardID = 0) := by
    rintro ⟨c, s⟩
    exact h (by cases hm : m.sourceShard; simp_all [hole])
  simp only [absorb, if_neg apart]

theorem absorb_lookup_other (result : ShardMap) {m : ProxyIDMapping} {X : ClusterShardID}
    (other : X ≠ m.sourceShard) : (absorb result m).lookup X = result.lookup X := by
  by_cases h : m.sourceShard = hole
  · rw [absorb_hole result h]
  · rw [absorb_some result h]
    split
    · exact AList.lookup_insert_ne other
    · split
      · exact AList.lookup_insert_ne other
      · rfl

/-- The tasks a list of mappings records for one source shard. -/
def tasksOf (X : ClusterShardID) (ms : List ProxyIDMapping) : Set Int :=
  {t | (⟨X, t⟩ : ProxyIDMapping) ∈ ms}

/-- What AggregateUpTo keeps for a source shard: nothing when the mappings record no task
    of it, and otherwise the greatest one. -/
def Aggregated (X : ClusterShardID) (ms : List ProxyIDMapping) : Option Int → Prop
  | none => tasksOf X ms = ∅
  | some t => IsGreatest (tasksOf X ms) t

theorem tasksOf_concat_other {X : ClusterShardID} {m : ProxyIDMapping} (ms : List ProxyIDMapping)
    (other : X ≠ m.sourceShard) : tasksOf X (ms ++ [m]) = tasksOf X ms := by
  ext t
  have apart : (⟨X, t⟩ : ProxyIDMapping) ≠ m := fun h => other (by rw [← h])
  simp [tasksOf, apart]

theorem tasksOf_concat_same (ms : List ProxyIDMapping) (m : ProxyIDMapping) :
    tasksOf m.sourceShard (ms ++ [m]) = insert m.sourceTask (tasksOf m.sourceShard ms) := by
  ext t
  have same : (⟨m.sourceShard, t⟩ : ProxyIDMapping) = m ↔ t = m.sourceTask := by
    cases m
    simp
  simp [tasksOf, same, or_comm]

theorem aggregate_lookup {X : ClusterShardID} (ordinary : X ≠ hole) (ms : List ProxyIDMapping) :
    Aggregated X ms ((aggregate ms).lookup X) := by
  induction ms using List.reverseRecOn with
  | nil => simp [aggregate, Aggregated, tasksOf]
  | append_singleton ms m ih =>
    rw [aggregate_concat]
    by_cases other : X ≠ m.sourceShard
    · rw [absorb_lookup_other _ other]
      simpa only [Aggregated, tasksOf_concat_other ms other] using ih
    · have same : m.sourceShard = X := by simpa using (not_not.mp other).symm
      subst same
      rw [absorb_some _ ordinary]
      cases found : (aggregate ms).lookup m.sourceShard with
      | none =>
        rw [found] at ih
        simp only [Aggregated] at ih
        simp [Aggregated, tasksOf_concat_same, ih]
      | some current =>
        rw [found] at ih
        simp only [Aggregated] at ih
        dsimp only
        split
        · next larger =>
          rw [AList.lookup_insert]
          simp only [Aggregated, tasksOf_concat_same]
          have greatest := ih.insert m.sourceTask
          rwa [max_eq_left (by omega)] at greatest
        · next notLarger =>
          rw [found]
          simp only [Aggregated, tasksOf_concat_same]
          have greatest := ih.insert m.sourceTask
          rwa [max_eq_right (by omega)] at greatest

theorem aggregate_lookup_hole (ms : List ProxyIDMapping) : (aggregate ms).lookup hole = none := by
  induction ms using List.reverseRecOn with
  | nil => simp [aggregate]
  | append_singleton ms m ih =>
    rw [aggregate_concat]
    by_cases h : m.sourceShard = hole
    · rw [absorb_hole _ h, ih]
    · rw [absorb_lookup_other _ (Ne.symm h), ih]

theorem window_take_fold (b : ProxyIDRingBuffer) {count : Nat} (bound : count ≤ b.size) :
    (List.range count).foldl
      (fun result i =>
        absorb result (b.entries.getD (slot b.entries.length b.head i) default)) ∅ =
      aggregate ((contents b).take count) := by
  simp only [aggregate, contents, window, ← List.map_take, List.take_range, Nat.min_eq_left bound,
    List.foldl_map]

/-- AggregateUpTo without its index arithmetic: the aggregation of a prefix of the contents
    and the length of that prefix. -/
theorem aggregateUpTo_eq (b : ProxyIDRingBuffer) (watermark : Int) :
    aggregateUpTo b watermark =
      (aggregate ((contents b).take (watermark - b.startProxyID + 1).toNat),
        min (watermark - b.startProxyID + 1).toNat b.size) := by
  unfold aggregateUpTo
  split
  · next empty =>
    simp [contents_of_empty empty, aggregate, empty]
  · split
    · next early =>
      have none : (watermark - b.startProxyID + 1).toNat = 0 := by omega
      simp [none, aggregate]
    · dsimp only
      rw [if_neg (by omega)]
      split
      · next beyond =>
        rw [window_take_fold b (Nat.le_refl _), Nat.min_eq_right (by omega)]
        rw [List.take_of_length_le (by simp), List.take_of_length_le (by simp; omega)]
      · next within =>
        rw [window_take_fold b (by omega), Nat.min_eq_left (by omega)]

/-- The ring represents a numbered queue of mappings. -/
structure Represents (b : ProxyIDRingBuffer) (q : NumberedQueue ProxyIDMapping) : Prop where
  wellFormed : WellFormed b
  contents_eq : contents b = q.held
  start : 0 < q.allocated.length → b.startProxyID = q.discarded + 1

theorem represents_size {b : ProxyIDRingBuffer} {q : NumberedQueue ProxyIDMapping}
    (r : Represents b q) : b.size + q.discarded = q.allocated.length := by
  have len := congrArg List.length r.contents_eq
  have total := q.held_length
  simp only [contents_length] at len
  omega

theorem new_represents (capacity : Int) :
    Represents (newProxyIDRingBuffer capacity) NumberedQueue.empty := by
  refine ⟨new_wellFormed capacity, ?_, ?_⟩
  · simp [contents, newProxyIDRingBuffer, NumberedQueue.empty, NumberedQueue.held]
  · simp [NumberedQueue.empty]

theorem append_represents {b : ProxyIDRingBuffer} {q : NumberedQueue ProxyIDMapping}
    (r : Represents b q) (shard : ClusterShardID) (task : Int) :
    Represents (append b (q.allocated.length + 1) shard task) (q.push ⟨shard, task⟩) := by
  have count := represents_size r
  have expected : 0 < b.size → ((q.allocated.length : Int) + 1) = b.startProxyID + b.size := by
    intro occupied
    have start := r.start (by omega)
    omega
  refine ⟨append_wellFormed r.wellFormed _ shard task expected, ?_, ?_⟩
  · rw [append_contents r.wellFormed _ shard task expected, r.contents_eq, q.push_held]
  · intro _
    rw [append_startProxyID b _ shard task expected, NumberedQueue.push_discarded]
    split
    · next empty => omega
    · next occupied => exact r.start (by omega)

theorem discard_represents {b : ProxyIDRingBuffer} {q : NumberedQueue ProxyIDMapping}
    (r : Represents b q) (count : Nat) (fits : count ≤ q.held.length) :
    Represents (discard b count) (q.drop count fits) := by
  have bound : count ≤ b.size := by
    have len := congrArg List.length r.contents_eq
    simp only [contents_length] at len
    omega
  refine ⟨discard_wellFormed r.wellFormed count, ?_, ?_⟩
  · rw [discard_contents b bound, r.contents_eq, q.drop_held]
  · intro used
    rw [discard_startProxyID b bound, r.start used, NumberedQueue.drop_discarded]
    push_cast
    ring

/-- On a represented ring AggregateUpTo aggregates exactly the held ids up to w. -/
theorem aggregateUpTo_represents {b : ProxyIDRingBuffer} {q : NumberedQueue ProxyIDMapping}
    (r : Represents b q) (w : Int) :
    aggregateUpTo b w = (aggregate ((q.upTo w).map Prod.fst), (q.upTo w).length) := by
  have len := congrArg List.length r.contents_eq
  simp only [contents_length] at len
  rw [aggregateUpTo_eq, q.upTo_items, q.upTo_length, r.contents_eq]
  by_cases occupied : 0 < b.size
  · have start := r.start (by have := represents_size r; omega)
    have same : (w - b.startProxyID + 1).toNat = (w - q.discarded).toNat := by omega
    rw [same, len]
  · have empty : q.held = [] := List.length_eq_zero_iff.mp (by omega)
    have none : b.size = 0 := by omega
    simp [empty, none]

end ProxyIDRing
