import Mathlib

/- Nonempty chains of nodes, visited one node after the other by a visitor that may fail. -/
namespace NodeChain
variable {α β γ : Type}

inductive Chain (α : Type) where
  | last (a : α)
  | link (a : α) (rest : Chain α)

def visit (visitor : α → Option β) : Chain α → Option (Chain β)
  | .last a => (visitor a).map .last
  | .link a rest =>
    match visitor a with
    | none => none
    | some b => (visit visitor rest).map (.link b)

def All (p : α → Prop) : Chain α → Prop
  | .last a => p a
  | .link a rest => p a ∧ All p rest

inductive Related (r : α → β → Prop) : Chain α → Chain β → Prop where
  | last {a b} (here : r a b) : Related r (.last a) (.last b)
  | link {a b rest rest'} (here : r a b) (later : Related r rest rest') :
      Related r (.link a rest) (.link b rest')

theorem visit_link {visitor : α → Option β} {a : α} {rest : Chain α} {c : Chain β} :
    visit visitor (.link a rest) = some c ↔
      ∃ b rest', visitor a = some b ∧ visit visitor rest = some rest' ∧ c = .link b rest' := by
  cases result : visitor a with
  | none => simp [visit, result]
  | some b => simp [visit, result, eq_comm]

/- One visit after another is one visit by both visitors. -/
theorem visit_visit (first : α → Option β) (second : β → Option γ) (c : Chain α) :
    (visit first c).bind (visit second) = visit (fun a => (first a).bind second) c := by
  induction c with
  | last a => cases result : first a <;> simp [visit, result]
  | link a rest ih =>
    cases result : first a with
    | none => simp [visit, result]
    | some b =>
      cases after : visit first rest with
      | none =>
        rw [after] at ih
        cases result' : second b <;> simp [visit, result, after, result', ← ih]
      | some rest' =>
        rw [after] at ih
        cases result' : second b <;> simp_all [visit]

/- A visitor that succeeds at every node succeeds on the chain. -/
theorem visit_total {visitor : α → Option β} (total : ∀ a, ∃ b, visitor a = some b) (c : Chain α) :
    ∃ c', visit visitor c = some c' := by
  induction c with
  | last a =>
    obtain ⟨b, here⟩ := total a
    exact ⟨.last b, by simp [visit, here]⟩
  | link a rest ih =>
    obtain ⟨b, here⟩ := total a
    obtain ⟨rest', later⟩ := ih
    exact ⟨.link b rest', visit_link.mpr ⟨b, rest', here, later, rfl⟩⟩

/- What a second visitor makes of each result of a first one, it makes of the whole. -/
theorem visit_then {p : α → Prop} {first : α → Option β} {second : β → Option γ}
    {both : α → Option γ} (step : ∀ a b, p a → first a = some b → second b = both a) :
    ∀ {c : Chain α} {c' : Chain β}, All p c → visit first c = some c' →
      visit second c' = visit both c := by
  intro c
  induction c with
  | last a =>
    intro c' holds visited
    obtain ⟨b, here, rfl⟩ := Option.map_eq_some_iff.mp visited
    simp [visit, step a b holds here]
  | link a rest ih =>
    intro c' holds visited
    obtain ⟨b, rest', here, later, rfl⟩ := visit_link.mp visited
    simp [visit, step a b holds.1 here, ih holds.2 later]

theorem visit_pairs {visitor : α → Option β} :
    ∀ {c : Chain α} {d : Chain β}, visit visitor c = some d →
      Related (fun a b => visitor a = some b) c d := by
  intro c
  induction c with
  | last a =>
    intro d visited
    obtain ⟨b, here, rfl⟩ := Option.map_eq_some_iff.mp visited
    exact .last here
  | link a rest ih =>
    intro d visited
    obtain ⟨b, rest', here, later, rfl⟩ := visit_link.mp visited
    exact .link here (ih later)

theorem Related.mono {r r' : α → β → Prop} (weaker : ∀ a b, r a b → r' a b) {c : Chain α}
    {d : Chain β} (related : Related r c d) : Related r' c d := by
  induction related with
  | last here => exact .last (weaker _ _ here)
  | link here _ ih => exact .link (weaker _ _ here) ih

theorem visit_related {r : α → α → Prop} {r' : β → β → Prop} {first second : α → Option β}
    (step : ∀ a a' b b', r a a' → first a = some b → second a' = some b' → r' b b') :
    ∀ {c c' : Chain α} {d d' : Chain β}, Related r c c' → visit first c = some d →
      visit second c' = some d' → Related r' d d' := by
  intro c c' d d' related
  induction related generalizing d d' with
  | last here =>
    intro visited visited'
    obtain ⟨b, result, rfl⟩ := Option.map_eq_some_iff.mp visited
    obtain ⟨b', result', rfl⟩ := Option.map_eq_some_iff.mp visited'
    exact .last (step _ _ _ _ here result result')
  | link here later ih =>
    intro visited visited'
    obtain ⟨b, rest, result, after, rfl⟩ := visit_link.mp visited
    obtain ⟨b', rest', result', after', rfl⟩ := visit_link.mp visited'
    exact .link (step _ _ _ _ here result result') (ih after after')

theorem visit_same {p : α → Prop} {visitor : α → Option α} (same : ∀ a, p a → visitor a = some a)
    {c : Chain α} (holds : All p c) : visit visitor c = some c := by
  induction c with
  | last a => simp [visit, same a holds]
  | link a rest ih => simp [visit, same a holds.1, ih holds.2]

/- The list case: the results stand one by one. -/
theorem mapM_some_iff {f : α → Option β} {as : List α} {bs : List β} :
    as.mapM f = some bs ↔ List.Forall₂ (fun a b => f a = some b) as bs := by
  induction as generalizing bs with
  | nil => simp [eq_comm]
  | cons a as ih =>
    simp only [List.mapM_cons, Option.bind_eq_bind, Option.bind_eq_some_iff, Option.pure_def,
      Option.some.injEq, ih, List.forall₂_cons_left_iff, exists_and_left]
    simp only [eq_comm]

theorem mapM_total {f : α → Option β} (total : ∀ a, ∃ b, f a = some b) (as : List α) :
    ∃ bs, as.mapM f = some bs := by
  induction as with
  | nil => exact ⟨[], rfl⟩
  | cons a as ih =>
    obtain ⟨b, here⟩ := total a
    obtain ⟨bs, later⟩ := ih
    exact ⟨b :: bs, by simp [here, later]⟩

end NodeChain
