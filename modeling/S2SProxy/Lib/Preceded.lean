import Mathlib

/- Lists in which every item stands behind all the items it needs. -/
namespace Preceded
variable {α : Type}

/-- Every item is preceded by each item it needs. -/
def Closed (needs : α → Set α) (xs : List α) : Prop :=
  ∀ (i : Nat) (x : α), xs[i]? = some x → ∀ y ∈ needs x, ∃ j < i, xs[j]? = some y

variable {needs needs' : α → Set α} {xs ys : List α}

theorem closed_nil : Closed needs ([] : List α) := by
  intro i x here
  simp at here

theorem Closed.mono (h : Closed needs xs) (fewer : ∀ x ∈ xs, needs' x ⊆ needs x) :
    Closed needs' xs := by
  intro i x here y need
  exact h i x here y (fewer x (List.mem_of_getElem? here) need)

theorem Closed.append (h : Closed needs xs)
    (new : ∀ (i : Nat) (x : α), ys[i]? = some x → ∀ y ∈ needs x,
      y ∈ xs ∨ ∃ j < i, ys[j]? = some y) :
    Closed needs (xs ++ ys) := by
  intro i x here y need
  by_cases old : i < xs.length
  · rw [List.getElem?_append_left old] at here
    obtain ⟨j, before, at_j⟩ := h i x here y need
    exact ⟨j, before, by rw [List.getElem?_append_left (by omega), at_j]⟩
  · rw [List.getElem?_append_right (by omega)] at here
    rcases new _ x here y need with earlier | ⟨j, before, at_j⟩
    · obtain ⟨j, at_j⟩ := List.mem_iff_getElem?.mp earlier
      have inside := (List.getElem?_eq_some_iff.mp at_j).1
      exact ⟨j, by omega, by rw [List.getElem?_append_left inside, at_j]⟩
    · refine ⟨xs.length + j, by omega, ?_⟩
      rw [List.getElem?_append_right (by omega), Nat.add_sub_cancel_left, at_j]

/-- In a list sorted by a key, an item with a smaller key stands earlier. -/
theorem earlier_of_smaller {β : Type} [Preorder β] {key : α → β}
    (sorted : xs.Pairwise fun x y => key x < key y) {x y : α} {i : Nat} (here : xs[i]? = some x)
    (member : y ∈ xs) (smaller : key y < key x) : ∃ j < i, xs[j]? = some y := by
  obtain ⟨j, at_j⟩ := List.mem_iff_getElem?.mp member
  refine ⟨j, ?_, at_j⟩
  by_contra notEarlier
  obtain ⟨hi, rfl⟩ := List.getElem?_eq_some_iff.mp here
  obtain ⟨hj, rfl⟩ := List.getElem?_eq_some_iff.mp at_j
  rcases Nat.eq_or_lt_of_le (Nat.not_lt.mp notEarlier) with same | later
  · subst same
    exact lt_irrefl _ smaller
  · exact lt_asymm smaller (List.pairwise_iff_getElem.mp sorted i j hi hj later)

end Preceded
