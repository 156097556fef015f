import Mathlib

/- A slice shows the front of an array. The cells behind its elements, up to its capacity, are
   taken in when it is resliced to a greater length. -/
namespace GrowingSlice
variable {α : Type}

structure Slice (α : Type) where
  elements : List α
  spare : List α

inductive Panic where
  | negativeCount
  | sliceBounds
  | indexOutOfRange
  deriving DecidableEq

def Slice.len (s : Slice α) : Nat := s.elements.length

def Slice.cap (s : Slice α) : Nat := s.elements.length + s.spare.length

def make (zero : α) (n : Nat) : Slice α := ⟨List.replicate n zero, []⟩

/-- Makes room for n more elements. A new array may be greater than was asked for, by an amount
    that the allocator chooses. -/
def grow (zero : α) (rounding : Nat → Nat → Nat) (s : Slice α) (n : Int) : Except Panic (Slice α) :=
  if n < 0 then .error .negativeCount
  else if n ≤ s.spare.length then .ok s
  else
    let missing := n.toNat - s.spare.length
    .ok { s with spare := s.spare ++ List.replicate (missing + rounding s.cap missing) zero }

def reslice (s : Slice α) (n : Int) : Except Panic (Slice α) :=
  if 0 ≤ n ∧ n ≤ s.cap then
    .ok ⟨(s.elements ++ s.spare).take n.toNat, (s.elements ++ s.spare).drop n.toNat⟩
  else .error .sliceBounds

def modify (s : Slice α) (i : Nat) (f : α → α) : Except Panic (Slice α) :=
  if i < s.len then .ok { s with elements := s.elements.modify i f } else .error .indexOutOfRange

def Slice.element (zero : α) (s : Slice α) (i : Nat) : α := s.elements[i]?.getD zero

/-- The cells that are not shown have never been written. -/
def Unwritten (zero : α) (s : Slice α) : Prop := ∀ x ∈ s.spare, x = zero

section Operations
variable {zero : α} {s : Slice α}

theorem make_len (zero : α) (n : Nat) : (make zero n).len = n := List.length_replicate

theorem make_element (zero : α) (n i : Nat) : (make zero n).element zero i = zero := by
  rw [Slice.element, make, List.getElem?_replicate]
  split <;> rfl

theorem make_unwritten (zero : α) (n : Nat) : Unwritten zero (make zero n) :=
  fun _ member => absurd member List.not_mem_nil

theorem grow_spec (rounding : Nat → Nat → Nat) (n : Nat) (unwritten : Unwritten zero s) :
    ∃ t, grow zero rounding s n = .ok t ∧ t.elements = s.elements ∧ n ≤ t.spare.length ∧
      Unwritten zero t := by
  unfold grow
  rw [if_neg (by omega)]
  split
  · next enough => exact ⟨s, rfl, rfl, by omega, unwritten⟩
  · next few =>
    refine ⟨_, rfl, rfl, by simp; omega, ?_⟩
    intro x member
    rcases List.mem_append.mp member with old | fresh
    · exact unwritten x old
    · exact List.eq_of_mem_replicate fresh

theorem take_shown {n : Nat} (unwritten : Unwritten zero s) (longer : s.len ≤ n)
    (within : n ≤ s.cap) :
    (s.elements ++ s.spare).take n = s.elements ++ List.replicate (n - s.len) zero := by
  have cells : s.len + s.spare.length = s.cap := rfl
  have zeros : s.spare = List.replicate s.spare.length zero :=
    List.eq_replicate_iff.mpr ⟨rfl, unwritten⟩
  rw [List.take_append, List.take_of_length_le longer, zeros, List.take_replicate]
  congr 2
  simp only [Slice.len] at longer cells ⊢
  omega

theorem getElem?_append_zeros (zero : α) (elements : List α) (count i : Nat) :
    (elements ++ List.replicate count zero)[i]?.getD zero = elements[i]?.getD zero := by
  rw [List.getElem?_append]
  split
  · rfl
  · next behind =>
    have nothing : elements[i]? = none := List.getElem?_eq_none (by omega)
    rw [nothing, List.getElem?_replicate]
    split <;> rfl

theorem reslice_spec {n : Nat} (unwritten : Unwritten zero s) (longer : s.len ≤ n)
    (within : n ≤ s.cap) :
    ∃ t, reslice s n = .ok t ∧ t.len = n ∧ (∀ i, t.element zero i = s.element zero i) ∧
      Unwritten zero t := by
  have shown := take_shown unwritten longer within
  refine ⟨_, if_pos ⟨by omega, by omega⟩, ?_, ?_, ?_⟩
  · simp only [Slice.len, Int.toNat_natCast, shown, List.length_append, List.length_replicate] at longer ⊢
    omega
  · intro i
    simp only [Slice.element, Int.toNat_natCast, shown]
    exact getElem?_append_zeros zero s.elements (n - s.len) i
  · intro x member
    simp only [Int.toNat_natCast] at member
    rw [List.drop_append, List.drop_eq_nil_of_le longer, List.nil_append] at member
    exact unwritten x (List.mem_of_mem_drop member)

theorem modify_spec {i : Nat} (zero : α) (f : α → α) (inside : i < s.len) :
    ∃ t, modify s i f = .ok t ∧ t.len = s.len ∧ t.spare = s.spare ∧
      ∀ j, t.element zero j = if i = j then f (s.element zero j) else s.element zero j := by
  refine ⟨_, if_pos inside, ?_, rfl, ?_⟩
  · simp [Slice.len]
  · intro j
    simp only [Slice.element, List.getElem?_modify]
    by_cases here : i = j
    · subst here
      have found : i < s.elements.length := inside
      simp [List.getElem?_eq_getElem found]
    · simp [here]

theorem modify_outside {i : Nat} (f : α → α) (outside : s.len ≤ i) :
    modify s i f = .error .indexOutOfRange := if_neg (by omega)

theorem reslice_len {t : Slice α} {n : Int} (ok : reslice s n = .ok t) : (t.len : Int) = n := by
  unfold reslice at ok
  split at ok
  · next within =>
    cases ok
    simp only [Slice.len, List.length_take, List.length_append, Slice.cap] at within ⊢
    omega
  · cases ok

end Operations

end GrowingSlice
