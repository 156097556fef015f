import Mathlib

/- Finite runs of a deterministic labelled step function. A label stands for one atomic
   step together with every choice the environment makes in it, so a statement about all
   label lists is a statement about all interleavings. A run that takes a disabled step
   has no final state. -/
namespace GuardedRuns
variable {σ ℓ : Type}

def run (step : σ → ℓ → Option σ) : σ → List ℓ → Option σ
  | s, [] => some s
  | s, a :: rest =>
    match step s a with
    | none => none
    | some t => run step t rest

/-- Every step of the run satisfies the condition in the state it is taken from. -/
def Meets (step : σ → ℓ → Option σ) (cond : σ → ℓ → Prop) : σ → List ℓ → Prop
  | _, [] => True
  | s, a :: rest => cond s a ∧
    match step s a with
    | none => True
    | some t => Meets step cond t rest

instance decidableMeets (step : σ → ℓ → Option σ) (cond : σ → ℓ → Prop)
    [dec : ∀ s a, Decidable (cond s a)] : ∀ s labels, Decidable (Meets step cond s labels)
  | _, [] => .isTrue trivial
  | s, a :: rest =>
    have _tail : Decidable (match step s a with
        | none => True
        | some t => Meets step cond t rest) :=
      match step s a with
      | none => .isTrue trivial
      | some t => decidableMeets step cond t rest
    inferInstanceAs (Decidable (_ ∧ _))

/-- Every state of the run, the first one included, is good. -/
def Always (step : σ → ℓ → Option σ) (good : σ → Prop) : σ → List ℓ → Prop
  | s, [] => good s
  | s, a :: rest => good s ∧
    match step s a with
    | none => True
    | some t => Always step good t rest

variable {step : σ → ℓ → Option σ} {cond : σ → ℓ → Prop}

@[simp] theorem run_nil (s : σ) : run step s [] = some s := rfl

theorem run_cons_some {s u : σ} {a : ℓ} {rest : List ℓ} (h : run step s (a :: rest) = some u) :
    ∃ t, step s a = some t ∧ run step t rest = some u := by
  cases hs : step s a with
  | none => simp [run, hs] at h
  | some t => exact ⟨t, rfl, by simpa [run, hs] using h⟩

theorem meets_cons {s t : σ} {a : ℓ} {rest : List ℓ} (hs : step s a = some t)
    (h : Meets step cond s (a :: rest)) : cond s a ∧ Meets step cond t rest := by
  simpa [Meets, hs] using h

/-- The induction behind every safety result: a predicate that each permitted step
    preserves holds at the end of each run made of permitted steps. -/
theorem run_invariant {inv : σ → Prop}
    (preserved : ∀ s a t, inv s → cond s a → step s a = some t → inv t) :
    ∀ {s t : σ} {labels : List ℓ}, inv s → Meets step cond s labels →
      run step s labels = some t → inv t := by
  intro s t labels
  induction labels generalizing s with
  | nil =>
    intro start _ h
    simp only [run_nil, Option.some.injEq] at h
    exact h ▸ start
  | cons a rest ih =>
    intro start meets h
    obtain ⟨u, hs, hrest⟩ := run_cons_some h
    obtain ⟨here, later⟩ := meets_cons hs meets
    exact ih (preserved s a u start here hs) later hrest

theorem meets_of_invariant {cond' : σ → ℓ → Prop} {inv : σ → Prop}
    (preserved : ∀ s a t, inv s → cond s a → step s a = some t → inv t)
    (implies : ∀ s a, inv s → cond s a → cond' s a) :
    ∀ {s : σ} {labels : List ℓ}, inv s → Meets step cond s labels → Meets step cond' s labels := by
  intro s labels
  induction labels generalizing s with
  | nil => exact fun _ _ => trivial
  | cons a rest ih =>
    rintro start ⟨here, later⟩
    refine ⟨implies s a start here, ?_⟩
    cases hs : step s a with
    | none => trivial
    | some t => exact ih (preserved s a t start here hs) (by simpa [hs] using later)

theorem meets_of_forall {labels : List ℓ} (h : ∀ a ∈ labels, ∀ s, cond s a) (s : σ) :
    Meets step cond s labels := by
  induction labels generalizing s with
  | nil => trivial
  | cons a rest ih =>
    refine ⟨h a (by simp) s, ?_⟩
    cases step s a with
    | none => trivial
    | some t => exact ih (fun b member => h b (List.mem_cons_of_mem a member)) t

/-- A predicate that a step keeps exactly when it is permitted holds at the end of a run
    exactly when every step was; an invariant of the run may be used for it. -/
theorem run_exact_under {clean inv : σ → Prop} {assumed : σ → ℓ → Prop}
    (preserved : ∀ s a t, inv s → assumed s a → step s a = some t → inv t)
    (exact : ∀ s a t, inv s → assumed s a → step s a = some t → (clean t ↔ clean s ∧ cond s a)) :
    ∀ {s t : σ} {labels : List ℓ}, inv s → Meets step assumed s labels →
      run step s labels = some t → (clean t ↔ clean s ∧ Meets step cond s labels) := by
  intro s t labels
  induction labels generalizing s with
  | nil =>
    intro _ _ h
    simp only [run_nil, Option.some.injEq] at h
    simp [h, Meets]
  | cons a rest ih =>
    intro start meets h
    obtain ⟨u, hs, hrest⟩ := run_cons_some h
    obtain ⟨here, later⟩ := meets_cons hs meets
    rw [ih (preserved s a u start here hs) later hrest, exact s a u start here hs, and_assoc]
    simp [Meets, hs]

theorem run_exact {clean : σ → Prop}
    (exact : ∀ s a t, step s a = some t → (clean t ↔ clean s ∧ cond s a))
    {s t : σ} {labels : List ℓ} (h : run step s labels = some t) :
    clean t ↔ clean s ∧ Meets step cond s labels :=
  run_exact_under (fun _ _ _ _ _ _ => trivial) (fun s a t _ _ hs => exact s a t hs) trivial
    (meets_of_forall (fun _ _ _ => trivial) s) h

/-- Where a step leads to a good state exactly if it is permitted, a run stays good exactly if all
    its steps are. What is carried along is kept as long as the states are good. -/
theorem always_iff_meets_carried {good carried inv : σ → Prop}
    (preserved : ∀ s a t, inv s → step s a = some t → inv t)
    (carries : ∀ s a t, inv s → carried s → step s a = some t → good t → carried t)
    (exact : ∀ s a t, inv s → carried s → step s a = some t → (good t ↔ cond s a)) :
    ∀ {s t : σ} {labels : List ℓ}, inv s → carried s → good s → run step s labels = some t →
      (Always step good s labels ↔ Meets step cond s labels) := by
  intro s t labels
  induction labels generalizing s with
  | nil =>
    intro _ _ start _
    exact ⟨fun _ => trivial, fun _ => start⟩
  | cons a rest ih =>
    intro holds carrying start h
    obtain ⟨u, hs, hrest⟩ := run_cons_some h
    simp only [Always, Meets, hs, start, true_and]
    have here := exact s a u holds carrying hs
    have next (good_u : good u) :=
      ih (preserved s a u holds hs) (carries s a u holds carrying hs good_u) good_u hrest
    constructor
    · intro always
      have good_u : good u := by
        cases rest with
        | nil => exact always
        | cons b more => exact always.1
      exact ⟨here.mp good_u, (next good_u).mp always⟩
    · intro meets
      obtain ⟨permitted, later⟩ := meets
      exact (next (here.mpr permitted)).mpr later

theorem always_iff_meets {good inv : σ → Prop}
    (preserved : ∀ s a t, inv s → step s a = some t → inv t)
    (exact : ∀ s a t, inv s → good s → step s a = some t → (good t ↔ cond s a)) :
    ∀ {s t : σ} {labels : List ℓ}, inv s → good s → run step s labels = some t →
      (Always step good s labels ↔ Meets step cond s labels) :=
  fun holds start => always_iff_meets_carried preserved (fun _ _ _ _ _ _ good => good) exact holds
    start start

theorem meets_and {cond' : σ → ℓ → Prop} {s : σ} {labels : List ℓ} (h : Meets step cond s labels)
    (h' : Meets step cond' s labels) : Meets step (fun s a => cond s a ∧ cond' s a) s labels := by
  induction labels generalizing s with
  | nil => trivial
  | cons a rest ih =>
    refine ⟨⟨h.1, h'.1⟩, ?_⟩
    have later := h.2
    have later' := h'.2
    cases hs : step s a with
    | none => trivial
    | some t => exact ih (by simpa [hs] using later) (by simpa [hs] using later')

theorem run_append {s t : σ} {first second : List ℓ} :
    run step s (first ++ second) = some t ↔
      ∃ u, run step s first = some u ∧ run step u second = some t := by
  induction first generalizing s with
  | nil => simp
  | cons a rest ih =>
    cases hs : step s a with
    | none => simp [run, hs]
    | some u => simpa [run, hs] using ih

theorem meets_append {s u : σ} {first second : List ℓ} (h : run step s first = some u)
    (meets : Meets step cond s (first ++ second)) :
    Meets step cond s first ∧ Meets step cond u second := by
  induction first generalizing s with
  | nil =>
    simp only [run_nil, Option.some.injEq] at h
    exact ⟨trivial, h ▸ meets⟩
  | cons a rest ih =>
    obtain ⟨v, hs, hrest⟩ := run_cons_some h
    obtain ⟨here, later⟩ := meets_cons hs meets
    obtain ⟨left, right⟩ := ih hrest later
    exact ⟨by simpa [Meets, hs] using ⟨here, left⟩, right⟩

theorem run_invariant_all {inv : σ → Prop}
    (preserved : ∀ s a t, inv s → step s a = some t → inv t)
    {s t : σ} {labels : List ℓ} (start : inv s) (h : run step s labels = some t) : inv t :=
  run_invariant (fun s a t hi _ hs => preserved s a t hi hs) start
    (meets_of_forall (fun _ _ _ => trivial) s) h

end GuardedRuns
