import Mathlib

/- Records under keys. A record is put under a key that is free, or in place of one that it extends,
   so what is known of a record goes on to hold of the one that is found later. -/
namespace NumberedRecords
variable {κ α : Type}

/-- Each record is still there, or one that R relates to it. -/
def Grown (R : α → α → Prop) (f g : κ → Option α) : Prop :=
  ∀ k x, f k = some x → ∃ y, g k = some y ∧ R x y

variable {R : α → α → Prop} {f g h : κ → Option α}

theorem Grown.refl (reflexive : ∀ x, R x x) (f : κ → Option α) : Grown R f f := by
  intro k x found
  exact ⟨x, found, reflexive x⟩

theorem Grown.trans (transitive : ∀ x y z, R x y → R y z → R x z) (first : Grown R f g)
    (second : Grown R g h) : Grown R f h := by
  intro k x found
  obtain ⟨y, found', more⟩ := first k x found
  obtain ⟨z, found'', more'⟩ := second k y found'
  exact ⟨z, found'', transitive x y z more more'⟩

variable [DecidableEq κ]

def put (f : κ → Option α) (k : κ) (x : α) : κ → Option α := Function.update f k (some x)

@[simp] theorem put_self (f : κ → Option α) (k : κ) (x : α) : put f k x k = some x := by
  simp [put]

theorem put_other (f : κ → Option α) {k k' : κ} (x : α) (other : k' ≠ k) : put f k x k' = f k' := by
  simp [put, other]

theorem put_some {k k' : κ} {x y : α} (found : put f k x k' = some y) :
    (k' = k ∧ y = x) ∨ (k' ≠ k ∧ f k' = some y) := by
  by_cases same : k' = k
  · subst same
    rw [put_self, Option.some.injEq] at found
    exact .inl ⟨rfl, found.symm⟩
  · rw [put_other f x same] at found
    exact .inr ⟨same, found⟩

theorem grown_put (reflexive : ∀ x, R x x) {k : κ} {x y : α} (found : f k = some x) (more : R x y) :
    Grown R f (put f k y) := by
  intro k' z present
  by_cases same : k' = k
  · subst same
    rw [found, Option.some.injEq] at present
    subst present
    exact ⟨y, put_self f k' y, more⟩
  · exact ⟨z, by rw [put_other f y same, present], reflexive z⟩

theorem grown_new (reflexive : ∀ x, R x x) {k : κ} (free : f k = none) (y : α) :
    Grown R f (put f k y) := by
  intro k' z present
  have other : k' ≠ k := by
    intro same
    rw [same, free] at present
    cases present
  exact ⟨z, by rw [put_other f y other, present], reflexive z⟩

end NumberedRecords
