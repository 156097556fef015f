import Mathlib

/- The occupied part of a circular array, read in order from its head. The cells are a
   list of fixed length; occupied positions wrap at that length. Nothing here depends on
   what the cells hold. -/
namespace CircularWindow
variable {α : Type} [Inhabited α]

def slot (cap head i : Nat) : Nat := (head + i) % cap

def window (cells : List α) (head size : Nat) : List α :=
  (List.range size).map fun i => cells.getD (slot cells.length head i) default

/-- Copies the occupied cells, in order, to the front of a fresh array. -/
def relocate (cells : List α) (head size newCap : Nat) : List α :=
  (List.range size).foldl
    (fun fresh i => fresh.set i (cells.getD (slot cells.length head i) default))
    (List.replicate newCap default)

theorem slot_lt {cap : Nat} (head i : Nat) (positive : 0 < cap) : slot cap head i < cap :=
  Nat.mod_lt _ positive

theorem slot_injective {cap head i j : Nat} (hi : i < cap) (hj : j < cap)
    (same : slot cap head i = slot cap head j) : i = j := by
  have congruent : i ≡ j [MOD cap] := Nat.ModEq.add_left_cancel' head same
  have reduced : i % cap = j % cap := congruent
  rwa [Nat.mod_eq_of_lt hi, Nat.mod_eq_of_lt hj] at reduced

theorem slot_advance (cap head k i : Nat) : slot cap (slot cap head k) i = slot cap head (k + i) := by
  simp [slot, Nat.add_assoc]

@[simp] theorem window_length (cells : List α) (head size : Nat) :
    (window cells head size).length = size := by
  simp [window]

theorem window_getElem? (cells : List α) (head size i : Nat) :
    (window cells head size)[i]? =
      if i < size then some (cells.getD (slot cells.length head i) default) else none := by
  by_cases inside : i < size
  · simp [window, inside]
  · simp [window, inside]

@[simp] theorem window_empty (cells : List α) (head : Nat) : window cells head 0 = [] := rfl

theorem window_write {cells : List α} {head size : Nat} (room : size < cells.length) (x : α) :
    window (cells.set (slot cells.length head size) x) head (size + 1) =
      window cells head size ++ [x] := by
  have positive : 0 < cells.length := by omega
  have last : slot cells.length head size < cells.length := slot_lt head size positive
  apply List.ext_getElem?
  intro i
  rw [window_getElem?, List.getElem?_append, window_getElem?, window_length, List.length_set]
  by_cases old : i < size
  · have apart : slot cells.length head size ≠ slot cells.length head i := by
      intro same
      have := slot_injective room (by omega) same
      omega
    simp [old, Nat.lt_succ_of_lt old, List.getD_eq_getElem?_getD, apart]
  · by_cases new : i = size
    · subst new
      simp [List.getD_eq_getElem?_getD, last]
    · have beyond : ¬ i < size + 1 := by omega
      have out : ¬ i - size = 0 := by omega
      simp [old, beyond, out]

theorem window_advance {cells : List α} {head size k : Nat} (bound : k ≤ size) :
    window cells (slot cells.length head k) (size - k) = (window cells head size).drop k := by
  apply List.ext_getElem?
  intro i
  rw [window_getElem?, List.getElem?_drop, window_getElem?, slot_advance]
  by_cases inside : i < size - k
  · have : k + i < size := by omega
    simp [inside, this]
  · have : ¬ k + i < size := by omega
    simp [inside, this]

theorem relocate_length (cells : List α) (head size newCap : Nat) :
    (relocate cells head size newCap).length = newCap := by
  have kept : ∀ (order : List Nat) (fresh : List α),
      (order.foldl (fun fresh i => fresh.set i (cells.getD (slot cells.length head i) default))
        fresh).length = fresh.length := by
    intro order
    induction order with
    | nil => intro fresh; rfl
    | cons i rest ih => intro fresh; simpa using ih (fresh.set i _)
  rw [relocate, kept, List.length_replicate]

/- The loop invariant: after n rounds the first n cells of the copy are the first n
   elements of the window and every other cell is untouched. -/
theorem relocate_getElem? (cells : List α) (head size newCap i : Nat) (bound : size ≤ newCap)
    (inside : i < size) :
    (relocate cells head size newCap)[i]? =
      some (cells.getD (slot cells.length head i) default) := by
  induction size with
  | zero => omega
  | succ n ih =>
    have step : relocate cells head (n + 1) newCap =
        (relocate cells head n newCap).set n
          (cells.getD (slot cells.length head n) default) := by
      simp [relocate, List.range_succ]
    rw [step]
    by_cases here : i = n
    · subst here
      rw [List.getElem?_set_self]
      rw [relocate_length]
      omega
    · rw [List.getElem?_set_ne (by omega)]
      exact ih (by omega) (by omega)

theorem window_relocate {cells : List α} {head size newCap : Nat} (bound : size ≤ newCap) :
    window (relocate cells head size newCap) 0 size = window cells head size := by
  apply List.ext_getElem?
  intro i
  rw [window_getElem?, window_getElem?, relocate_length]
  by_cases inside : i < size
  · have direct : slot newCap 0 i = i := by
      simp [slot, Nat.mod_eq_of_lt (show i < newCap by omega)]
    simp only [inside, ↓reduceIte, direct, List.getD_eq_getElem?_getD,
      relocate_getElem? cells head size newCap i bound inside, Option.getD_some]
  · simp [inside]

end CircularWindow
