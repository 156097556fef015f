import Mathlib

/- A first-in first-out queue whose items are numbered 1, 2, 3, ... in the order in which
   they were put in. Removal is only from the front, so the numbers still held are always
   one contiguous range. -/

structure NumberedQueue (α : Type) where
  allocated : List α
  discarded : Nat
  bounded : discarded ≤ allocated.length

namespace NumberedQueue
variable {α : Type}

def empty : NumberedQueue α := ⟨[], 0, Nat.le_refl 0⟩

def push (q : NumberedQueue α) (x : α) : NumberedQueue α :=
  ⟨q.allocated ++ [x], q.discarded, by have := q.bounded; simp only [List.length_append]; omega⟩

def held (q : NumberedQueue α) : List α := q.allocated.drop q.discarded

def drop (q : NumberedQueue α) (k : Nat) (fits : k ≤ q.held.length) : NumberedQueue α :=
  ⟨q.allocated, q.discarded + k, by
    have := q.bounded; simp only [held, List.length_drop] at fits; omega⟩

def numbered (q : NumberedQueue α) : List (α × Nat) := q.held.zipIdx (q.discarded + 1)

/-- The held items whose number is at most w; w may be negative or beyond the last number. -/
def upTo (q : NumberedQueue α) (w : Int) : List (α × Nat) :=
  q.numbered.filter fun e => decide ((e.2 : Int) ≤ w)

theorem held_length (q : NumberedQueue α) : q.held.length + q.discarded = q.allocated.length := by
  have := q.bounded
  simp only [held, List.length_drop]
  omega

@[simp] theorem push_allocated (q : NumberedQueue α) (x : α) :
    (q.push x).allocated = q.allocated ++ [x] := rfl

@[simp] theorem push_discarded (q : NumberedQueue α) (x : α) :
    (q.push x).discarded = q.discarded := rfl

@[simp] theorem drop_allocated (q : NumberedQueue α) (k : Nat) (fits : k ≤ q.held.length) :
    (q.drop k fits).allocated = q.allocated := rfl

@[simp] theorem drop_discarded (q : NumberedQueue α) (k : Nat) (fits : k ≤ q.held.length) :
    (q.drop k fits).discarded = q.discarded + k := rfl

theorem push_held (q : NumberedQueue α) (x : α) : (q.push x).held = q.held ++ [x] := by
  simp [held, List.drop_append_of_le_length q.bounded]

theorem drop_held (q : NumberedQueue α) (k : Nat) (fits : k ≤ q.held.length) :
    (q.drop k fits).held = q.held.drop k := by
  simp [held, List.drop_drop]

theorem zipIdx_filter_le (xs : List α) (start : Nat) (w : Int) :
    (xs.zipIdx start).filter (fun e => decide ((e.2 : Int) ≤ w)) =
      (xs.zipIdx start).take (w - start + 1).toNat := by
  induction xs generalizing start with
  | nil => simp
  | cons x xs ih =>
    rw [List.zipIdx_cons, List.filter_cons]
    by_cases inside : (start : Int) ≤ w
    · have count : (w - start + 1).toNat = (w - (start + 1 : Nat) + 1).toNat + 1 := by omega
      simp only [inside, decide_true, ↓reduceIte, count, List.take_succ_cons]
      rw [ih]
    · have none : (w - start + 1).toNat = 0 := by omega
      have later : (w - (start + 1 : Nat) + 1).toNat = 0 := by omega
      simp only [inside, decide_false, Bool.false_eq_true, ↓reduceIte, none, List.take_zero, ih,
        later]

/-- The numbers held are contiguous, so the items numbered at most w are a prefix. -/
theorem upTo_eq_take (q : NumberedQueue α) (w : Int) :
    q.upTo w = q.numbered.take (w - q.discarded).toNat := by
  rw [upTo, numbered, zipIdx_filter_le]
  congr 2
  omega

theorem upTo_items (q : NumberedQueue α) (w : Int) :
    (q.upTo w).map Prod.fst = q.held.take (w - q.discarded).toNat := by
  rw [upTo_eq_take, List.map_take]
  simp [numbered]

theorem upTo_length (q : NumberedQueue α) (w : Int) :
    (q.upTo w).length = min (w - q.discarded).toNat q.held.length := by
  rw [upTo_eq_take, List.length_take]
  simp [numbered]

section Map
variable {β : Type} (f : α → β)

def map (q : NumberedQueue α) : NumberedQueue β :=
  ⟨q.allocated.map f, q.discarded, by simpa using q.bounded⟩

@[simp] theorem map_allocated (q : NumberedQueue α) :
    (q.map f).allocated = q.allocated.map f := rfl

@[simp] theorem map_discarded (q : NumberedQueue α) : (q.map f).discarded = q.discarded := rfl

@[simp] theorem map_held (q : NumberedQueue α) : (q.map f).held = q.held.map f := by
  simp [held, List.map_drop]

theorem map_push (q : NumberedQueue α) (x : α) : (q.push x).map f = (q.map f).push (f x) := by
  simp [map, push]

theorem map_drop (q : NumberedQueue α) (k : Nat) (fits : k ≤ q.held.length) :
    (q.drop k fits).map f = (q.map f).drop k (by simpa using fits) := rfl

end Map

end NumberedQueue
