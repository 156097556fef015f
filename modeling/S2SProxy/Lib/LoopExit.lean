import Mathlib

/- A loop whose body reads the environment: each iteration goes on with a new state or leaves
   the loop. The environment is a sequence, one value for each iteration, so a statement about
   all environments is one about everything other threads may do meanwhile. -/
namespace LoopExit
variable {σ ε ρ : Type}

inductive Outcome (σ ρ : Type) where
  | again (s : σ)
  | exit (r : ρ)

def iterate (body : σ → ε → Outcome σ ρ) (env : Nat → ε) : Nat → Nat → σ → Outcome σ ρ
  | 0, _, s => .again s
  | n + 1, k, s =>
    match body s (env k) with
    | .exit r => .exit r
    | .again t => iterate body env n (k + 1) t

def Exits (body : σ → ε → Outcome σ ρ) (env : Nat → ε) (s : σ) : Prop :=
  ∃ n r, iterate body env n 0 s = .exit r

variable {body : σ → ε → Outcome σ ρ} {env : Nat → ε}

theorem iterate_again {n k : Nat} {s t : σ} (h : body s (env k) = .again t) :
    iterate body env (n + 1) k s = iterate body env n (k + 1) t := by
  rw [iterate, h]

theorem iterate_exit {n k : Nat} {s : σ} {r : ρ} (h : body s (env k) = .exit r) :
    iterate body env (n + 1) k s = .exit r := by
  rw [iterate, h]

/-- A measure that every further iteration lowers bounds the number of iterations. -/
theorem exits_of_measure (measure : σ → Nat)
    (lowers : ∀ k s t, body s (env k) = .again t → measure t < measure s) (s : σ) :
    Exits body env s := by
  have bounded : ∀ n k s, measure s < n → ∃ r, iterate body env n k s = .exit r := by
    intro n
    induction n with
    | zero =>
      intro k s impossible
      omega
    | succ n ih =>
      intro k s below
      cases outcome : body s (env k) with
      | exit r => exact ⟨r, iterate_exit outcome⟩
      | again t =>
        have lower := lowers k s t outcome
        rw [iterate_again outcome]
        exact ih (k + 1) t (by omega)
  exact ⟨measure s + 1, bounded (measure s + 1) 0 s (by omega)⟩

/-- Where the environment alone decides whether an iteration leaves the loop, the loop is left
    exactly if the environment says so at some iteration. -/
theorem exits_iff_stopped (inv : σ → Prop) (stops : ε → Prop)
    (leaves : ∀ k s, inv s → stops (env k) → ∃ r, body s (env k) = .exit r)
    (stays : ∀ k s, inv s → ¬ stops (env k) → ∃ t, body s (env k) = .again t ∧ inv t)
    {s : σ} (start : inv s) : Exits body env s ↔ ∃ k, stops (env k) := by
  have within : ∀ n k s, inv s →
      ((∃ r, iterate body env n k s = .exit r) ↔ ∃ j < n, stops (env (k + j))) := by
    intro n
    induction n with
    | zero =>
      intro k s _
      simp [iterate]
    | succ n ih =>
      intro k s holds
      by_cases stopped : stops (env k)
      · obtain ⟨r, outcome⟩ := leaves k s holds stopped
        rw [iterate_exit outcome]
        exact ⟨fun _ => ⟨0, by omega, stopped⟩, fun _ => ⟨r, rfl⟩⟩
      · obtain ⟨t, outcome, next⟩ := stays k s holds stopped
        rw [iterate_again outcome, ih (k + 1) t next]
        constructor
        · intro later
          obtain ⟨j, inside, here⟩ := later
          exact ⟨j + 1, by omega, by rwa [show k + (j + 1) = k + 1 + j by omega]⟩
        · intro found
          obtain ⟨j, inside, here⟩ := found
          cases j with
          | zero => exact absurd here stopped
          | succ j => exact ⟨j, by omega, by rwa [show k + 1 + j = k + (j + 1) by omega]⟩
  constructor
  · intro exits
    obtain ⟨n, left⟩ := exits
    obtain ⟨j, _, here⟩ := (within n 0 s start).mp left
    exact ⟨0 + j, here⟩
  · intro found
    obtain ⟨k, here⟩ := found
    exact ⟨k + 1, (within (k + 1) 0 s start).mpr ⟨k, by omega, by rwa [Nat.zero_add]⟩⟩

end LoopExit
