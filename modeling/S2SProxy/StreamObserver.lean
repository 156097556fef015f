import S2SProxy.Lib.GrowingSlice

/- The counts of active streams by stream index. The slice of counters grows when a greater index is
   reported; the new length is computed from the index in 32-bit arithmetic. -/
namespace StreamObserver
open GrowingSlice

structure ReplicationStreamObserver where
  streamActive : Slice Int32
  growLocked : Bool
  warnings : List String

def newReplicationStreamObserver : ReplicationStreamObserver := ⟨make 0 1024, false, []⟩

/-- How a call ends. One that finds the lock held waits for it. -/
inductive Outcome where
  | returned (s : ReplicationStreamObserver)
  | panicked (panic : Panic) (s : ReplicationStreamObserver)
  | waits (s : ReplicationStreamObserver)

def negativeIndexWarning : String :=
  "ReplicationStreamObserver NotifyConnect called with negative streamIndex"

def maxInt32 : Int := 2147483647

/-- The product is an int32 before it is widened. -/
def newSize (idx : Int32) : Int := (min ((idx + 1) * 9).toInt maxInt32).tdiv 8

section Report
-- By how much the allocator rounds up.
variable (rounding : Nat → Nat → Nat)

/-- The slice with the index in it, if the slice has to grow. -/
def grown (streamActive : Slice Int32) (idx : Int32) : Except Panic (Slice Int32) :=
  if Int32.ofNat streamActive.len ≤ idx then do
    let larger ← grow 0 rounding streamActive (newSize idx)
    reslice larger (newSize idx)
  else .ok streamActive

def reportStreamValue (s : ReplicationStreamObserver) (idx value : Int32) : Outcome :=
  if idx < 0 then .returned { s with warnings := s.warnings ++ [negativeIndexWarning] }
  else if s.growLocked then .waits s
  else
    match grown rounding s.streamActive idx with
    | .error panic => .panicked panic { s with growLocked := true }
    | .ok streamActive =>
      match modify streamActive idx.toInt.toNat (· + value) with
      -- The lock is released only on the way out.
      | .error panic => .panicked panic { s with streamActive := streamActive, growLocked := true }
      | .ok counted => .returned { s with streamActive := counted, growLocked := false }

def reportAll (s : ReplicationStreamObserver) : List (Int32 × Int32) → Outcome
  | [] => .returned s
  | (idx, value) :: rest =>
    match reportStreamValue rounding s idx value with
    | .returned t => reportAll t rest
    | .panicked panic t => .panicked panic t
    | .waits t => .waits t

end Report

/-- No result is a wait for the lock. -/
def printActiveStreams (s : ReplicationStreamObserver) : Option String :=
  if s.growLocked then none
  else
    let active := (List.range s.streamActive.len).filter fun i => s.streamActive.element 0 i != 0
    some ("[" ++ String.join (active.map fun i => toString i ++ ",") ++ "]")

/-- An index that has no counter yet counts nothing. -/
def counter (s : ReplicationStreamObserver) (i : Nat) : Int32 := s.streamActive.element 0 i

def total (i : Nat) (calls : List (Int32 × Int32)) : Int32 :=
  calls.foldl (fun sum call => if call.1.toInt = (i : Int) then sum + call.2 else sum) 0

/-- The length of the slice after calls for these indices: an eighth more than the last index that
    was beyond it. -/
def lengthAfter (calls : List (Int32 × Int32)) : Int :=
  calls.foldl
    (fun length call => if call.1.toInt < length then length else (call.1.toInt + 1) * 9 / 8) 1024

/-- Each index reported has its counter, no counter holds anything but what was reported for it, and
    the lock is free. -/
structure Counts (s : ReplicationStreamObserver) (calls : List (Int32 × Int32)) : Prop where
  free : s.growLocked = false
  counted : ∀ call ∈ calls, call.1.toInt < s.streamActive.len
  sums : ∀ i, counter s i = total i calls

structure Represents (s : ReplicationStreamObserver) (calls : List (Int32 × Int32)) : Prop where
  counts : Counts s calls
  length : (s.streamActive.len : Int) = lengthAfter calls
  bounded : s.streamActive.len < 2 ^ 31
  unwritten : Unwritten 0 s.streamActive

section Sizes
variable {idx : Int32}

theorem product_toInt (idx : Int32) :
    ∃ k : Int, ((idx + 1) * 9).toInt = (idx.toInt + 1) * 9 - 2 ^ 32 * k := by
  have one : (1 : Int32).toInt = 1 := by decide
  have nine : (9 : Int32).toInt = 9 := by decide
  rw [Int32.toInt_mul, Int32.toInt_add, one, nine, Int.bmod_eq_self_sub_mul_bdiv,
    Int.bmod_eq_self_sub_mul_bdiv]
  refine ⟨(idx.toInt + 1).bdiv (2 ^ 32) * 9 +
    ((idx.toInt + 1 - (2 ^ 32 : Nat) * (idx.toInt + 1).bdiv (2 ^ 32)) * 9).bdiv (2 ^ 32), ?_⟩
  push_cast
  ring

theorem newSize_fits (nonneg : 0 ≤ idx.toInt) (fits : (idx.toInt + 1) * 9 ≤ maxInt32) :
    newSize idx = (idx.toInt + 1) * 9 / 8 := by
  have low := ((idx + 1) * 9).le_toInt
  have high := ((idx + 1) * 9).toInt_lt
  obtain ⟨k, product⟩ := product_toInt idx
  simp only [maxInt32] at fits
  have exact : ((idx + 1) * 9).toInt = (idx.toInt + 1) * 9 := by omega
  rw [newSize, exact, min_eq_left (by simpa [maxInt32] using fits),
    Int.tdiv_eq_ediv_of_nonneg (by omega)]

/- A product that wraps gives a length that leaves the index out. -/
theorem newSize_wraps (wraps : maxInt32 < (idx.toInt + 1) * 9) :
    newSize idx ≤ idx.toInt := by
  have low := ((idx + 1) * 9).le_toInt
  have high := ((idx + 1) * 9).toInt_lt
  obtain ⟨k, product⟩ := product_toInt idx
  simp only [maxInt32] at wraps
  rw [newSize, min_eq_left (by simp only [maxInt32]; omega)]
  rcases Int.le_total 0 ((idx + 1) * 9).toInt with positive | negative
  · have wrapped : 1 ≤ k := by omega
    rw [Int.tdiv_eq_ediv_of_nonneg positive]
    omega
  · have opposite := Int.tdiv_nonneg (Int.neg_nonneg_of_nonpos negative) (by decide : (0 : Int) ≤ 8)
    rw [Int.neg_tdiv] at opposite
    omega

end Sizes

section Steps
variable {rounding : Nat → Nat → Nat} {s : ReplicationStreamObserver} {calls : List (Int32 × Int32)}
variable {idx : Int32}

theorem total_concat (i : Nat) (calls : List (Int32 × Int32)) (idx value : Int32) :
    total i (calls ++ [(idx, value)]) =
      if idx.toInt = i then total i calls + value else total i calls := by
  simp [total]

theorem lengthAfter_concat (calls : List (Int32 × Int32)) (idx value : Int32) :
    lengthAfter (calls ++ [(idx, value)]) =
      if idx.toInt < lengthAfter calls then lengthAfter calls else (idx.toInt + 1) * 9 / 8 := by
  rw [lengthAfter, List.foldl_append]
  rfl

theorem new_represents : Represents newReplicationStreamObserver [] := by
  have length : newReplicationStreamObserver.streamActive.len = 1024 := make_len 0 1024
  constructor
  · constructor
    · rfl
    · intro call member
      cases member
    · exact make_element 0 1024
  · rw [length]
    rfl
  · omega
  · exact make_unwritten 0 1024

/-- The slice with the index in it: the counters there were, and zeros behind them. -/
structure Grown (before after : Slice Int32) (calls : List (Int32 × Int32)) (idx : Int32) : Prop where
  kept : ∀ i, after.element 0 i = before.element 0 i
  longer : before.len ≤ after.len
  inside : idx.toInt < after.len
  length : (after.len : Int) =
    if idx.toInt < lengthAfter calls then lengthAfter calls else (idx.toInt + 1) * 9 / 8
  bounded : after.len < 2 ^ 31
  unwritten : Unwritten 0 after

theorem beyond_iff (represents : Represents s calls) :
    Int32.ofNat s.streamActive.len ≤ idx ↔ lengthAfter calls ≤ idx.toInt := by
  rw [Int32.le_iff_toInt_le, Int32.toInt_ofNat_of_lt represents.bounded, represents.length]

theorem grown_inside (represents : Represents s calls) (inside : idx.toInt < lengthAfter calls) :
    ∃ t, grown rounding s.streamActive idx = .ok t ∧ Grown s.streamActive t calls idx := by
  have short : ¬ Int32.ofNat s.streamActive.len ≤ idx := by
    rw [beyond_iff represents]
    omega
  refine ⟨s.streamActive, if_neg short, ?_⟩
  constructor
  · intro i
    rfl
  · exact Nat.le_refl _
  · rw [represents.length]
    exact inside
  · rw [if_pos inside, represents.length]
  · exact represents.bounded
  · exact represents.unwritten

theorem grown_fits (represents : Represents s calls) (nonneg : 0 ≤ idx.toInt)
    (beyond : lengthAfter calls ≤ idx.toInt) (fits : (idx.toInt + 1) * 9 ≤ maxInt32) :
    ∃ t, grown rounding s.streamActive idx = .ok t ∧ Grown s.streamActive t calls idx := by
  have before := represents.length
  have size := newSize_fits nonneg fits
  obtain ⟨n, natural⟩ := Int.eq_ofNat_of_zero_le (show 0 ≤ newSize idx by omega)
  obtain ⟨larger, grows, elements, room, zeros⟩ :=
    grow_spec rounding n represents.unwritten
  have same : larger.len = s.streamActive.len := congrArg List.length elements
  have within : n ≤ larger.cap := by
    simp only [Slice.cap]
    omega
  obtain ⟨t, slices, length, kept, unwritten⟩ := reslice_spec zeros (n := n) (by omega) within
  refine ⟨t, ?_, ?_⟩
  · rw [grown, if_pos ((beyond_iff represents).mpr beyond), natural, grows]
    exact slices
  · constructor
    · intro i
      rw [kept i, Slice.element, elements, Slice.element]
    · omega
    · omega
    · rw [if_neg (by omega)]
      omega
    · simp only [maxInt32] at fits
      omega
    · exact unwritten

/- A product that wraps leaves the index out of the slice, if there is one at all. -/
theorem grown_wraps (represents : Represents s calls) (beyond : lengthAfter calls ≤ idx.toInt)
    (wraps : maxInt32 < (idx.toInt + 1) * 9) {t : Slice Int32}
    (ok : grown rounding s.streamActive idx = .ok t) : (t.len : Int) ≤ idx.toInt := by
  rw [grown, if_pos ((beyond_iff represents).mpr beyond)] at ok
  cases grows : grow 0 rounding s.streamActive (newSize idx) with
  | error panic =>
    rw [grows] at ok
    cases ok
  | ok larger =>
    rw [grows] at ok
    rw [reslice_len ok]
    exact newSize_wraps wraps

theorem modify_grown (represents : Represents s calls) {t : Slice Int32}
    (grown : Grown s.streamActive t calls idx) (nonneg : 0 ≤ idx.toInt) (value : Int32)
    (warnings : List String) :
    ∃ counted, modify t idx.toInt.toNat (· + value) = .ok counted ∧
      Represents ⟨counted, false, warnings⟩ (calls ++ [(idx, value)]) := by
  have inside := grown.inside
  have longer := grown.longer
  obtain ⟨counted, ok, length, spare, elements⟩ :=
    modify_spec (i := idx.toInt.toNat) (0 : Int32) (· + value) (show _ < t.len by omega)
  refine ⟨counted, ok, ?_⟩
  constructor
  · constructor
    · rfl
    · intro call member
      rw [length]
      rcases List.mem_append.mp member with earlier | last
      · have := represents.counts.counted call earlier
        omega
      · rw [List.mem_singleton.mp last]
        exact inside
    · intro i
      have position : idx.toInt.toNat = i ↔ idx.toInt = i := by omega
      rw [total_concat, ← represents.counts.sums i, counter, elements, grown.kept]
      simp only [position]
      rfl
  · rw [lengthAfter_concat, ← grown.length, length]
  · rw [length]
    exact grown.bounded
  · rw [Unwritten, spare]
    exact grown.unwritten

theorem report_returns (rounding : Nat → Nat → Nat) (value : Int32)
    (represents : Represents s calls) (nonneg : 0 ≤ idx)
    (fits : idx.toInt < lengthAfter calls ∨ (idx.toInt + 1) * 9 ≤ maxInt32) :
    ∃ t, reportStreamValue rounding s idx value = .returned t ∧
      Represents t (calls ++ [(idx, value)]) := by
  have value_nonneg : 0 ≤ idx.toInt := Int32.le_iff_toInt_le.mp nonneg
  have slice : ∃ t, grown rounding s.streamActive idx = .ok t ∧ Grown s.streamActive t calls idx := by
    rcases lt_or_ge idx.toInt (lengthAfter calls) with inside | beyond
    · exact grown_inside represents inside
    · exact grown_fits represents value_nonneg beyond (by omega)
  obtain ⟨larger, grows, grown⟩ := slice
  obtain ⟨counted, counts, represents'⟩ :=
    modify_grown represents grown value_nonneg value s.warnings
  refine ⟨_, ?_, represents'⟩
  rw [reportStreamValue, if_neg (Int32.not_lt.mpr nonneg), represents.counts.free, if_neg (by decide),
    grows]
  dsimp only
  rw [counts]

theorem report_panics (rounding : Nat → Nat → Nat) (idx value : Int32)
    (represents : Represents s calls) (nonneg : 0 ≤ idx)
    (beyond : lengthAfter calls ≤ idx.toInt) (wraps : maxInt32 < (idx.toInt + 1) * 9) :
    ∃ panic t, reportStreamValue rounding s idx value = .panicked panic t ∧ t.growLocked = true := by
  rw [reportStreamValue, if_neg (Int32.not_lt.mpr nonneg), represents.counts.free, if_neg (by decide)]
  cases slice : grown rounding s.streamActive idx with
  | error panic => exact ⟨panic, _, rfl, rfl⟩
  | ok t =>
    have outside := grown_wraps represents beyond wraps slice
    dsimp only
    rw [modify_outside (· + value) (by omega)]
    exact ⟨_, _, rfl, rfl⟩

theorem report_returned {t : ReplicationStreamObserver} {value : Int32} (represents : Represents s calls)
    (nonneg : 0 ≤ idx) (returned : reportStreamValue rounding s idx value = .returned t) :
    (idx.toInt < lengthAfter calls ∨ (idx.toInt + 1) * 9 ≤ maxInt32) ∧
      Represents t (calls ++ [(idx, value)]) := by
  by_cases fits : idx.toInt < lengthAfter calls ∨ (idx.toInt + 1) * 9 ≤ maxInt32
  · obtain ⟨t', result, represents'⟩ := report_returns rounding value represents nonneg fits
    rw [result] at returned
    cases returned
    exact ⟨fits, represents'⟩
  · obtain ⟨panic, t', result, _⟩ :=
      report_panics rounding idx value represents nonneg (by omega) (by omega)
    rw [result] at returned
    cases returned

end Steps

section Runs
variable {rounding : Nat → Nat → Nat}

theorem reportAll_concat {s t : ReplicationStreamObserver} {calls : List (Int32 × Int32)}
    {idx value : Int32} :
    reportAll rounding s (calls ++ [(idx, value)]) = .returned t ↔
      ∃ u, reportAll rounding s calls = .returned u ∧
        reportStreamValue rounding u idx value = .returned t := by
  induction calls generalizing s with
  | nil =>
    cases result : reportStreamValue rounding s idx value <;> simp [reportAll, result]
  | cons call rest ih =>
    obtain ⟨first, amount⟩ := call
    cases result : reportStreamValue rounding s first amount with
    | returned u => simpa [reportAll, result] using ih
    | panicked panic u => simp [reportAll, result]
    | waits u => simp [reportAll, result]

theorem reportAll_represents {calls : List (Int32 × Int32)} (nonneg : ∀ call ∈ calls, 0 ≤ call.1)
    {t : ReplicationStreamObserver}
    (returned : reportAll rounding newReplicationStreamObserver calls = .returned t) :
    Represents t calls := by
  induction calls using List.reverseRecOn generalizing t with
  | nil =>
    cases returned
    exact new_represents
  | append_singleton calls call ih =>
    obtain ⟨u, earlier, last⟩ := reportAll_concat.mp returned
    have represents := ih (fun c member => nonneg c (List.mem_append_left _ member)) earlier
    exact (report_returned represents (nonneg call (by simp)) last).2

/- Calls that fit, each in its turn, all return. -/
theorem reportAll_returns {calls : List (Int32 × Int32)} (nonneg : ∀ call ∈ calls, 0 ≤ call.1)
    (fits : ∀ before idx value after, calls = before ++ (idx, value) :: after →
      idx.toInt < lengthAfter before ∨ (idx.toInt + 1) * 9 ≤ maxInt32) :
    ∃ s, reportAll rounding newReplicationStreamObserver calls = .returned s := by
  induction calls using List.reverseRecOn with
  | nil => exact ⟨_, rfl⟩
  | append_singleton earlier call ih =>
    have nonneg_earlier : ∀ c ∈ earlier, 0 ≤ c.1 := fun c member =>
      nonneg c (List.mem_append_left _ member)
    obtain ⟨u, returned⟩ := ih nonneg_earlier fun before idx value after split =>
      fits before idx value (after ++ [call]) (by simp [split])
    obtain ⟨t, last, _⟩ := report_returns rounding call.2
      (reportAll_represents nonneg_earlier returned) (nonneg call (by simp))
      (fits earlier call.1 call.2 [] rfl)
    exact ⟨t, reportAll_concat.mpr ⟨u, returned, last⟩⟩

end Runs

theorem streams_counted_iff (rounding : Nat → Nat → Nat) (calls : List (Int32 × Int32))
    (nonneg : ∀ call ∈ calls, 0 ≤ call.1) :
    (∀ done, done <+: calls →
        ∃ s, reportAll rounding newReplicationStreamObserver done = .returned s ∧ Counts s done) ↔
      ∀ before idx value after, calls = before ++ (idx, value) :: after →
        idx.toInt < lengthAfter before ∨ (idx.toInt + 1) * 9 ≤ maxInt32 := by
  constructor
  · intro counted before idx value after split
    have nonneg_before : ∀ call ∈ before, 0 ≤ call.1 := fun call member =>
      nonneg call (by simp [split, member])
    have reached : before ++ [(idx, value)] <+: calls := ⟨after, by simp [split]⟩
    obtain ⟨s, returned, _⟩ := counted _ reached
    obtain ⟨u, earlier, last⟩ := reportAll_concat.mp returned
    exact (report_returned (reportAll_represents nonneg_before earlier)
      (nonneg (idx, value) (by simp [split])) last).1
  · intro fits done reached
    obtain ⟨later, split⟩ := reached
    have nonneg_done : ∀ call ∈ done, 0 ≤ call.1 := fun call member =>
      nonneg call (by rw [← split]; exact List.mem_append_left _ member)
    obtain ⟨s, returned⟩ := reportAll_returns nonneg_done fun before idx value after here =>
      fits before idx value (after ++ later) (by simp [← split, here])
    exact ⟨s, returned, (reportAll_represents nonneg_done returned).counts⟩

/-- The second index is beyond the slice that an observer starts with. -/
def sampleCalls : List (Int32 × Int32) := [(3, 1), (2000, 1), (3, -1)]

theorem sample_calls_counted :
    (∀ call ∈ sampleCalls, 0 ≤ call.1) ∧ ∀ done, done <+: sampleCalls →
      ∃ s, reportAll (fun _ _ => 0) newReplicationStreamObserver done = .returned s ∧
        Counts s done := by
  have small : ∀ call ∈ sampleCalls, 0 ≤ call.1 ∧ (call.1.toInt + 1) * 9 ≤ maxInt32 := by
    intro call member
    simp only [sampleCalls, List.mem_cons, List.not_mem_nil, or_false] at member
    rcases member with rfl | rfl | rfl <;> decide
  have nonneg : ∀ call ∈ sampleCalls, 0 ≤ call.1 := fun call member => (small call member).1
  refine ⟨nonneg, (streams_counted_iff (fun _ _ => 0) sampleCalls nonneg).mpr ?_⟩
  intro before idx value after split
  exact .inr (small (idx, value) (by simp [split])).2

/- The first index whose product wraps. The lock stays held, and whoever needs it waits. -/
theorem wrapping_index_panics :
    ∃ panic s,
      reportAll (fun _ _ => 0) newReplicationStreamObserver [(238609294, 1)] = .panicked panic s ∧
      s.growLocked = true ∧ reportStreamValue (fun _ _ => 0) s 0 1 = .waits s ∧
      printActiveStreams s = none := by
  obtain ⟨panic, s, panics, held⟩ :=
    report_panics (fun _ _ => 0) 238609294 1 new_represents (by decide) (by decide) (by decide)
  refine ⟨panic, s, ?_, held, ?_, ?_⟩
  · rw [reportAll, panics]
  · simp [reportStreamValue, held]
  · simp [printActiveStreams, held]

/-- What is logged are the indices whose values do not cancel out, each of them, in ascending order. -/
theorem active_streams_printed (rounding : Nat → Nat → Nat) (calls : List (Int32 × Int32))
    (nonneg : ∀ call ∈ calls, 0 ≤ call.1) (s : ReplicationStreamObserver)
    (returned : reportAll rounding newReplicationStreamObserver calls = .returned s) :
    let active := (List.range (lengthAfter calls).toNat).filter fun i => total i calls != 0
    printActiveStreams s = some ("[" ++ String.join (active.map fun i => toString i ++ ",") ++ "]") ∧
      ∀ i, i ∈ active ↔ total i calls ≠ 0 := by
  intro active
  have represents := reportAll_represents nonneg returned
  have length : (lengthAfter calls).toNat = s.streamActive.len := by
    rw [← represents.length, Int.toNat_natCast]
  have sums : ∀ i, s.streamActive.element 0 i = total i calls := represents.counts.sums
  constructor
  · simp [printActiveStreams, represents.counts.free, sums, active, length]
  · intro i
    have inside : total i calls ≠ 0 → i < s.streamActive.len := by
      intro counts
      by_contra beyond
      apply counts
      rw [← sums, Slice.element, List.getElem?_eq_none (Nat.le_of_not_lt beyond)]
      rfl
    simpa [active, length] using inside

def twoStreams : List (Int32 × Int32) := [(3, 1), (7, 1), (3, -1)]

theorem closed_stream_not_printed :
    ∃ s, reportAll (fun _ _ => 0) newReplicationStreamObserver twoStreams = .returned s ∧
      printActiveStreams s = some "[7,]" := by
  have small : ∀ call ∈ twoStreams, 0 ≤ call.1 ∧ (call.1.toInt + 1) * 9 ≤ maxInt32 := by
    intro call member
    simp only [twoStreams, List.mem_cons, List.not_mem_nil, or_false] at member
    rcases member with rfl | rfl | rfl <;> decide
  have nonneg : ∀ call ∈ twoStreams, 0 ≤ call.1 := fun call member => (small call member).1
  have returns : ∃ s, reportAll (fun _ _ => 0) newReplicationStreamObserver twoStreams = .returned s :=
    reportAll_returns nonneg fun before idx value after split =>
      .inr (small (idx, value) (by simp [split])).2
  obtain ⟨s, returned⟩ := returns
  refine ⟨s, returned, (active_streams_printed (fun _ _ => 0) twoStreams nonneg s returned).1.trans ?_⟩
  decide +kernel

end StreamObserver
