import Mathlib

/- Some elements of a list are worked on together and put back into their places. The places
   are collected by number in a first pass, and the results are written to them in a second. -/
namespace GatherScatter
variable {α : Type}

/-- The places and the elements that are not to be skipped, counted from a start. -/
def gather (skip : α → Bool) : Nat → List α → List Nat × List α
  | _, [] => ([], [])
  | i, p :: rest =>
    let (places, todo) := gather skip (i + 1) rest
    if skip p then (places, todo) else (i :: places, p :: todo)

/-- Writes the results to their places; there is none where results are missing. -/
def scatter : List Nat → List α → List α → Option (List α)
  | [], _, out => some out
  | _ :: _, [], _ => none
  | i :: places, d :: done, out => scatter places done (out.set i d)

variable {skip : α → Bool}

theorem gather_todo (start : Nat) (list : List α) :
    (gather skip start list).2 = list.filter fun p => !skip p := by
  induction list generalizing start with
  | nil => rfl
  | cons p rest ih => cases here : skip p <;> simp [gather, here, ih]

theorem gather_empty_iff (list : List α) :
    (gather skip 0 list).2 = [] ↔ ∀ p ∈ list, skip p = true := by
  simp [gather_todo, List.filter_eq_nil_iff]

theorem forall₂_at {β : Type} {related : α → β → Prop} {xs : List α} {ys : List β} {i : Nat} {x : α}
    {y : β} (h : List.Forall₂ related xs ys) (here : xs[i]? = some x) (there : ys[i]? = some y) :
    related x y := by
  induction h generalizing i with
  | nil => simp at here
  | cons first _ ih =>
    cases i with
    | zero =>
      simp only [List.getElem?_cons_zero, Option.some.injEq] at here there
      exact here ▸ there ▸ first
    | succ i => exact ih (by simpa using here) (by simpa using there)

theorem forall₂_source {β : Type} {related : α → β → Prop} {xs : List α} {ys : List β} {i : Nat}
    {y : β} (h : List.Forall₂ related xs ys) (there : ys[i]? = some y) :
    ∃ x, xs[i]? = some x ∧ related x y := by
  obtain ⟨bound, _⟩ := List.getElem?_eq_some_iff.mp there
  have here : xs[i]? = some (xs.get ⟨i, h.length_eq ▸ bound⟩) := List.getElem?_eq_getElem _
  exact ⟨_, here, forall₂_at h here there⟩

/-- What an element becomes: a skipped one stays, for another there is a result. -/
def Becomes (skip : α → Bool) (result : α → α → Prop) (p q : α) : Prop :=
  if skip p then q = p else result p q

theorem Becomes.skipped {result : α → α → Prop} {p q : α} (became : Becomes skip result p q)
    (skipped : skip p = true) : q = p := by
  simpa [Becomes, skipped] using became

theorem Becomes.changed {result : α → α → Prop} {p q : α} (became : Becomes skip result p q)
    (changed : skip p = false) : result p q := by
  simpa [Becomes, changed] using became

theorem scatter_from {result : α → α → Prop} (passed list : List α) {done : List α}
    (results : List.Forall₂ result (gather skip passed.length list).2 done) :
    ∃ out, scatter (gather skip passed.length list).1 done (passed ++ list) = some (passed ++ out) ∧
      List.Forall₂ (Becomes skip result) list out := by
  induction list generalizing passed done with
  | nil => exact ⟨[], rfl, .nil⟩
  | cons p rest ih =>
    have length (q : α) : (passed ++ [q]).length = passed.length + 1 := by simp
    cases here : skip p with
    | true =>
      simp only [gather, here, ↓reduceIte] at results ⊢
      rw [← length p] at results
      obtain ⟨out, written, becomes⟩ := ih (passed ++ [p]) results
      rw [length p] at written
      exact ⟨p :: out, by simpa using written, .cons (by simp [Becomes, here]) becomes⟩
    | false =>
      simp only [gather, here, Bool.false_eq_true, ↓reduceIte] at results ⊢
      cases results with
      | @cons _ d _ done first later =>
        rw [← length d] at later
        obtain ⟨out, written, becomes⟩ := ih (passed ++ [d]) later
        rw [length d] at written
        refine ⟨d :: out, ?_, .cons (by simpa [Becomes, here] using first) becomes⟩
        have set : (passed ++ p :: rest).set passed.length d = passed ++ d :: rest := by simp
        rw [scatter, set]
        simpa using written

/- Each result arrives at the place of the element that it is for. -/
theorem scatter_gather {result : α → α → Prop} {list done : List α}
    (results : List.Forall₂ result (gather skip 0 list).2 done) :
    ∃ out, scatter (gather skip 0 list).1 done list = some out ∧
      List.Forall₂ (Becomes skip result) list out :=
  scatter_from [] list results

end GatherScatter
