import Mathlib

/- Records in memory, each with a pointer to the next one, and a bounded loop that goes along the
   pointers and rewrites records in place. A chain need not end: its pointers may lead back. -/
namespace LinkedChain
variable {Ptr Node : Type} (next : Node → Option Ptr)

inductive Chain (mem : Ptr → Node) : Option Ptr → List Ptr → Prop
  | nil : Chain mem none []
  | cons {p : Ptr} {ps : List Ptr} (rest : Chain mem (next (mem p)) ps) : Chain mem (some p) (p :: ps)

def visited (mem : Ptr → Node) : Nat → Option Ptr → List Ptr
  | 0, _ => []
  | _ + 1, none => []
  | n + 1, some p => p :: visited mem n (next (mem p))

def standing (mem : Ptr → Node) : Nat → Option Ptr → Option Ptr
  | 0, start => start
  | _ + 1, none => none
  | n + 1, some p => standing mem n (next (mem p))

/-- At most n times: a record that is due is rewritten and the flag set, then the next one. -/
def sweep [DecidableEq Ptr] (due : Node → Bool) (fix : Node → Node) :
    Nat → (Ptr → Node) → Option Ptr → Bool → (Ptr → Node) × Option Ptr × Bool
  | 0, mem, start, changed => (mem, start, changed)
  | _ + 1, mem, none, changed => (mem, none, changed)
  | n + 1, mem, some p, changed =>
    if due (mem p) then
      let mem := Function.update mem p (fix (mem p))
      sweep due fix n mem (next (mem p)) true
    else sweep due fix n mem (next (mem p)) changed

def settled (due : Node → Bool) (fix : Node → Node) (x : Node) : Node := if due x then fix x else x

variable {next}

section Chains
variable {mem : Ptr → Node} {start : Option Ptr} {ps qs : List Ptr}

theorem Chain.unique (chain : Chain next mem start ps) (other : Chain next mem start qs) : ps = qs := by
  induction chain generalizing qs with
  | nil =>
    cases other
    rfl
  | cons rest ih =>
    cases other with
    | cons rest' => rw [ih rest']

/- A chain that ends does not lead back. -/
theorem Chain.nodup (chain : Chain next mem start ps) : ps.Nodup := by
  have reach : ∀ {start ps}, Chain next mem start ps → ∀ p ∈ ps, ∃ qs,
      Chain next mem (some p) qs ∧ qs.length ≤ ps.length := by
    intro start ps chain
    induction chain with
    | nil => simp
    | @cons p ps rest ih =>
      intro q member
      rcases List.mem_cons.mp member with rfl | later
      · exact ⟨_, .cons rest, le_refl _⟩
      · obtain ⟨qs, found, short⟩ := ih q later
        exact ⟨qs, found, by simp only [List.length_cons]; omega⟩
  induction chain with
  | nil => exact List.nodup_nil
  | @cons p ps rest ih =>
    refine List.nodup_cons.mpr ⟨fun back => ?_, ih⟩
    obtain ⟨qs, again, short⟩ := reach rest p back
    rw [← Chain.unique (.cons rest) again] at short
    simp only [List.length_cons] at short
    omega

theorem Chain.visited_eq (chain : Chain next mem start ps) (n : Nat) :
    visited next mem n start = ps.take n := by
  induction chain generalizing n with
  | nil => cases n <;> simp [visited]
  | cons rest ih => cases n <;> simp [visited, ih]

theorem Chain.standing_eq_none (chain : Chain next mem start ps) (n : Nat) :
    standing next mem n start = none ↔ ps.length ≤ n := by
  induction chain generalizing n with
  | nil => cases n <;> simp [standing]
  | cons rest ih => cases n <;> simp [standing, ih]

theorem standing_eq_none_iff (n : Nat) (start : Option Ptr) :
    standing next mem n start = none ↔ ∃ ps, Chain next mem start ps ∧ ps.length ≤ n := by
  constructor
  · intro ended
    induction n generalizing start with
    | zero =>
      cases ended
      exact ⟨[], .nil, le_refl _⟩
    | succ n ih =>
      cases start with
      | none => exact ⟨[], .nil, by simp⟩
      | some p =>
        obtain ⟨ps, chain, short⟩ := ih _ ended
        exact ⟨p :: ps, .cons chain, by simpa using short⟩
  · intro found
    obtain ⟨ps, chain, short⟩ := found
    exact (chain.standing_eq_none n).mpr short

/- What is rewritten elsewhere in the records does not change where the pointers lead. -/
theorem visited_congr {mem' : Ptr → Node} (same : ∀ p, next (mem' p) = next (mem p)) (n : Nat)
    (start : Option Ptr) : visited next mem' n start = visited next mem n start := by
  induction n generalizing start with
  | zero => rfl
  | succ n ih => cases start <;> simp [visited, same, ih]

theorem standing_congr {mem' : Ptr → Node} (same : ∀ p, next (mem' p) = next (mem p)) (n : Nat)
    (start : Option Ptr) : standing next mem' n start = standing next mem n start := by
  induction n generalizing start with
  | zero => rfl
  | succ n ih => cases start <;> simp [standing, same, ih]

theorem Chain.congr {mem' : Ptr → Node} (same : ∀ p, next (mem' p) = next (mem p))
    (chain : Chain next mem start ps) : Chain next mem' start ps := by
  induction chain with
  | nil => exact .nil
  | @cons p ps rest ih => exact .cons (by rwa [same])

end Chains

section Sweep
variable {due : Node → Bool} {fix : Node → Node}

theorem settled_of_not_due {x : Node} (fine : due x = false) : settled due fix x = x := by
  simp [settled, fine]

theorem due_settled (settles : ∀ x, due (fix x) = false) (x : Node) :
    due (settled due fix x) = false := by
  cases here : due x <;> simp [settled, here, settles]

theorem next_settled (keeps : ∀ x, next (fix x) = next x) (x : Node) :
    next (settled due fix x) = next x := by
  cases here : due x <;> simp [settled, here, keeps]

variable [DecidableEq Ptr]

theorem next_update_settled (keeps : ∀ x, next (fix x) = next x) (mem : Ptr → Node) (p q : Ptr) :
    next (Function.update mem p (settled due fix (mem p)) q) = next (mem q) := by
  by_cases here : q = p
  · subst here
    rw [Function.update_self, next_settled keeps]
  · rw [Function.update_of_ne here]

theorem sweep_some (n : Nat) (mem : Ptr → Node) (p : Ptr) (changed : Bool) :
    sweep next due fix (n + 1) mem (some p) changed =
      sweep next due fix n (Function.update mem p (settled due fix (mem p)))
        (next (settled due fix (mem p))) (changed || due (mem p)) := by
  cases here : due (mem p) <;> simp [sweep, settled, here]

/-- The visited records are settled, the others untouched, and the flag says whether one was due. -/
theorem sweep_eq (keeps : ∀ x, next (fix x) = next x) (settles : ∀ x, due (fix x) = false) (n : Nat)
    (mem : Ptr → Node) (start : Option Ptr) (changed : Bool) :
    sweep next due fix n mem start changed =
      (fun p => if p ∈ visited next mem n start then settled due fix (mem p) else mem p,
        standing next mem n start,
        changed || (visited next mem n start).any fun p => due (mem p)) := by
  induction n generalizing mem start changed with
  | zero => simp [sweep, visited, standing]
  | succ n ih =>
    cases start with
    | none => simp [sweep, visited, standing]
    | some p =>
      have same : ∀ q, next (Function.update mem p (settled due fix (mem p)) q) = next (mem q) :=
        next_update_settled keeps mem p
      have again : settled due fix (settled due fix (mem p)) = settled due fix (mem p) :=
        settled_of_not_due (due_settled settles (mem p))
      rw [sweep_some, ih, visited_congr same, standing_congr same, next_settled keeps]
      refine Prod.ext_iff.mpr ⟨?_, Prod.ext_iff.mpr ⟨rfl, ?_⟩⟩
      · funext q
        by_cases here : q = p
        · subst here
          simp [visited, again]
        · simp [visited, here]
      · cases first : due (mem p) with
        | true => simp [visited, first]
        | false =>
          have unchanged : Function.update mem p (settled due fix (mem p)) = mem := by
            rw [settled_of_not_due first, Function.update_eq_self]
          simp [visited, first, unchanged]

end Sweep

end LinkedChain
