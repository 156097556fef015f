import Mathlib

/- Delivery to a fixed set of destinations, repeated in passes until every destination has
   been served. A pass goes once, in any order, through the destinations not yet served; a
   failed delivery is tried again in the next pass. -/

structure RetryLoop (κ : Type) where
  keys : List κ
  sent : List κ
  /-- What is left of the running pass; empty between two passes. -/
  pass : List κ

namespace RetryLoop
variable {κ : Type}

def start (keys : List κ) : RetryLoop κ := ⟨keys, [], []⟩

def remaining [DecidableEq κ] (l : RetryLoop κ) : List κ := l.keys.filter (· ∉ l.sent)

def beginPass [DecidableEq κ] (l : RetryLoop κ) (order : List κ) : Option (RetryLoop κ) :=
  if l.pass = [] ∧ l.remaining ≠ [] ∧ order.Perm l.keys then
    some { l with pass := order.filter (· ∉ l.sent) }
  else none

def current (l : RetryLoop κ) : Option κ := l.pass.head?

def settle (l : RetryLoop κ) (delivered : Bool) : RetryLoop κ :=
  match l.pass with
  | [] => l
  | k :: rest =>
    if delivered then { l with sent := k :: l.sent, pass := rest } else { l with pass := rest }

def done [DecidableEq κ] (l : RetryLoop κ) : Bool := l.pass.isEmpty && l.remaining.isEmpty

/-- What holds of a loop at every moment: a destination still in the running pass is one of
    the keys and is unserved, and no destination is served twice. -/
structure Valid (l : RetryLoop κ) : Prop where
  pass_keys : ∀ k ∈ l.pass, k ∈ l.keys
  pass_unsent : ∀ k ∈ l.pass, k ∉ l.sent
  pass_nodup : l.pass.Nodup
  sent_keys : ∀ k ∈ l.sent, k ∈ l.keys

theorem start_valid (keys : List κ) : (start keys).Valid := by
  constructor <;> simp [start]

theorem beginPass_valid [DecidableEq κ] {l l' : RetryLoop κ} {order : List κ} (nodup : l.keys.Nodup)
    (v : l.Valid) (h : l.beginPass order = some l') : l'.Valid := by
  unfold beginPass at h
  split at h
  · next ready =>
    obtain ⟨_, _, perm⟩ := ready
    simp only [Option.some.injEq] at h
    subst h
    refine ⟨?_, ?_, ?_, v.sent_keys⟩
    · intro k hk
      exact perm.mem_iff.mp (List.mem_of_mem_filter hk)
    · intro k hk
      simpa using List.of_mem_filter hk
    · exact (perm.nodup_iff.mpr nodup).filter _
  · simp at h

theorem beginPass_fields [DecidableEq κ] {l l' : RetryLoop κ} {order : List κ}
    (h : l.beginPass order = some l') : l'.keys = l.keys ∧ l'.sent = l.sent := by
  unfold beginPass at h
  split at h
  · simp only [Option.some.injEq] at h
    subst h
    exact ⟨rfl, rfl⟩
  · simp at h

theorem beginPass_idle [DecidableEq κ] {l l' : RetryLoop κ} {order : List κ}
    (h : l.beginPass order = some l') : l.current = none := by
  unfold beginPass at h
  split at h
  · next ready => simp [current, ready.1]
  · simp at h

theorem current_mem {l : RetryLoop κ} {k : κ} (h : l.current = some k) : k ∈ l.pass :=
  List.mem_of_mem_head? h

theorem current_pass {l : RetryLoop κ} {k : κ} (h : l.current = some k) :
    ∃ rest, l.pass = k :: rest := by
  unfold current at h
  cases hp : l.pass with
  | nil => simp [hp] at h
  | cons k' rest => exact ⟨rest, by simp_all⟩

@[simp] theorem settle_keys (l : RetryLoop κ) (delivered : Bool) :
    (l.settle delivered).keys = l.keys := by
  unfold settle
  split
  · rfl
  · split <;> rfl

theorem settle_sent {l : RetryLoop κ} {k : κ} (h : l.current = some k) (delivered : Bool) :
    (l.settle delivered).sent = if delivered then k :: l.sent else l.sent := by
  obtain ⟨rest, hp⟩ := current_pass h
  cases delivered <;> simp [settle, hp]

theorem settle_unsent {l : RetryLoop κ} {k : κ} (unsent : k ∉ l.sent) (other : l.current ≠ some k)
    (delivered : Bool) : k ∉ (l.settle delivered).sent := by
  cases here : l.current with
  | none =>
    have idle : l.pass = [] := by simpa [current] using here
    simpa [settle, idle] using unsent
  | some k' =>
    rw [settle_sent here]
    have apart : k ≠ k' := fun same => other (same ▸ here)
    cases delivered <;> simp [apart, unsent]

theorem settle_valid {l : RetryLoop κ} (v : l.Valid) (delivered : Bool) :
    (l.settle delivered).Valid := by
  unfold settle
  split
  · exact v
  · next k rest hp =>
    have keys := v.pass_keys
    have unsent := v.pass_unsent
    have nodup := v.pass_nodup
    rw [hp] at keys unsent nodup
    have apart := (List.nodup_cons.mp nodup).1
    split
    · refine ⟨?_, ?_, (List.nodup_cons.mp nodup).2, ?_⟩
      · intro k' hk'
        exact keys k' (List.mem_cons_of_mem k hk')
      · intro k' hk' member
        rcases List.mem_cons.mp member with same | earlier
        · exact apart (same ▸ hk')
        · exact unsent k' (List.mem_cons_of_mem k hk') earlier
      · intro k' hk'
        rcases List.mem_cons.mp hk' with same | earlier
        · exact same ▸ keys k (by simp)
        · exact v.sent_keys k' earlier
    · exact ⟨fun k' hk' => keys k' (List.mem_cons_of_mem k hk'),
        fun k' hk' => unsent k' (List.mem_cons_of_mem k hk'), (List.nodup_cons.mp nodup).2,
        v.sent_keys⟩

theorem done_all_sent [DecidableEq κ] {l : RetryLoop κ} (h : l.done = true) {k : κ} (member : k ∈ l.keys) :
    k ∈ l.sent := by
  simp only [done, Bool.and_eq_true, List.isEmpty_iff, remaining, List.filter_eq_nil_iff] at h
  simpa using h.2 k member

end RetryLoop
