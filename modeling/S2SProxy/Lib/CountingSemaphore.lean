import Mathlib

/- A counting semaphore. It never holds more than its size; releasing what is not held is
   refused. Also how often a property holds in a list after one element is replaced. -/
namespace CountingSemaphore

structure Semaphore (size : Nat) where
  held : Nat
  bounded : held ≤ size
  deriving DecidableEq

variable {size : Nat}

def free : Semaphore size := ⟨0, Nat.zero_le size⟩

def acquire (s : Semaphore size) : Option (Semaphore size) :=
  if room : s.held < size then some ⟨s.held + 1, room⟩ else none

def release (s : Semaphore size) : Option (Semaphore size) :=
  if 0 < s.held then some ⟨s.held - 1, (Nat.sub_le _ 1).trans s.bounded⟩ else none

theorem acquire_held {s t : Semaphore size} (h : acquire s = some t) : t.held = s.held + 1 := by
  unfold acquire at h
  split at h
  · obtain rfl := Option.some.inj h
    rfl
  · cases h

theorem release_held {s t : Semaphore size} (h : release s = some t) : t.held + 1 = s.held := by
  unfold release at h
  split at h
  · next positive =>
    obtain rfl := Option.some.inj h
    exact Nat.sub_add_cancel positive
  · cases h

theorem release_refused {s : Semaphore size} (h : release s = none) : s.held = 0 := by
  unfold release at h
  split at h
  · cases h
  · next zero => omega

theorem countP_replace {α : Type} (p : α → Bool) {xs : List α} {k : Nat} {x : α} (y : α)
    (found : xs[k]? = some x) :
    (xs.set k y).countP p + (p x).toNat = xs.countP p + (p y).toNat := by
  induction xs generalizing k with
  | nil => simp at found
  | cons z rest ih =>
    cases k with
    | zero =>
      obtain rfl : z = x := by simpa using found
      by_cases old : p z <;> by_cases new : p y <;> simp [old, new]
    | succ k =>
      have tail := ih (k := k) (by simpa using found)
      simp only [List.set_cons_succ, List.countP_cons]
      omega

end CountingSemaphore
