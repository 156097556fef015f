import Mathlib

/- Builds that keep a list of what they have made and may fail at any point. The list is kept when
   the build fails. A build is described by what it appends, on either outcome, and by what its
   value then is. -/
namespace AppendingBuild
variable {κ ε α β χ : Type} {valid : List κ → Prop}

abbrev Build (κ ε α : Type) := ExceptT ε (StateM (List κ)) α

def start (x : Build κ ε α) (items : List κ) : Except ε α × List κ := StateT.run (ExceptT.run x) items

theorem start_pure (a : α) (items : List κ) : start (pure a : Build κ ε α) items = (.ok a, items) := rfl

theorem start_bind (x : Build κ ε α) (f : α → Build κ ε β) (items : List κ) :
    start (x >>= f) items =
      match start x items with
      | (.ok a, made) => start (f a) made
      | (.error err, made) => (.error err, made) := by
  have unfolded : start (x >>= f) items = StateT.run (match (start x items).1 with
      | .ok a => ExceptT.run (f a)
      | .error err => pure (.error err)) (start x items).2 := by
    unfold start
    rw [ExceptT.run_bind, StateT.run_bind]
    rfl
  rw [unfolded]
  cases start x items with
  | mk result made => cases result <;> rfl

/-- From a valid list the build goes on to a valid one; if it succeeds, its value fits what it has
    appended. -/
def Appends (valid : List κ → Prop) (x : Build κ ε α) (post : List κ → α → Prop) : Prop :=
  ∀ items, valid items → ∃ new, (start x items).2 = items ++ new ∧ valid (items ++ new) ∧
    ∀ a, (start x items).1 = .ok a → post new a

theorem Appends.pure {a : α} {post : List κ → α → Prop} (holds : post [] a) :
    Appends valid (Pure.pure a : Build κ ε α) post := by
  intro items sound
  refine ⟨[], by simp [start_pure], by simpa using sound, ?_⟩
  intro b same
  obtain rfl : a = b := by simpa [start_pure] using same
  exact holds

theorem Appends.bind {x : Build κ ε α} {f : α → Build κ ε β} {first : List κ → α → Prop}
    {post : List κ → β → Prop} (before : Appends valid x first)
    (after : ∀ new a, first new a → Appends valid (f a) fun more b => post (new ++ more) b) :
    Appends valid (x >>= f) post := by
  intro items sound
  obtain ⟨new, made, sound', value⟩ := before items sound
  rw [start_bind]
  cases ran : start x items with
  | mk result items' =>
    rw [ran] at made value
    obtain rfl : items' = items ++ new := made
    cases result with
    | error err => exact ⟨new, rfl, sound', fun _ failed => nomatch failed⟩
    | ok a =>
      obtain ⟨more, made', sound'', value'⟩ := after new a (value a rfl) _ sound'
      rw [List.append_assoc] at made' sound''
      exact ⟨new ++ more, made', sound'', value'⟩

inductive Passes (post : χ → List κ → α → Prop) : List χ → List κ → List α → Prop where
  | nil : Passes post [] [] []
  | cons {x : χ} {xs : List χ} {new rest : List κ} {a : α} {as : List α} (here : post x new a)
      (later : Passes post xs rest as) : Passes post (x :: xs) (new ++ rest) (a :: as)

theorem Passes.map {post : χ → List κ → α → Prop} {g : β → χ} {xs : List β} {new : List κ}
    {as : List α} (passes : Passes (fun x => post (g x)) xs new as) :
    Passes post (xs.map g) new as := by
  induction passes with
  | nil => exact .nil
  | cons here later ih => exact .cons here ih

theorem Passes.append {post : χ → List κ → α → Prop} {xs ys : List χ} {new more : List κ}
    {as bs : List α} (first : Passes post xs new as) (second : Passes post ys more bs) :
    Passes post (xs ++ ys) (new ++ more) (as ++ bs) := by
  induction first with
  | nil => exact second
  | cons here later ih =>
    rw [List.append_assoc]
    exact .cons here ih

theorem Appends.mapM {f : χ → Build κ ε α} {post : χ → List κ → α → Prop}
    (pass : ∀ x, Appends valid (f x) (post x)) (xs : List χ) :
    Appends valid (xs.mapM f) (Passes post xs) := by
  induction xs with
  | nil => exact Appends.pure .nil
  | cons x xs ih =>
    rw [List.mapM_cons]
    refine (pass x).bind fun new a here => ih.bind fun rest as later => Appends.pure ?_
    rw [List.append_nil]
    exact .cons here later

/-- Whatever the build has made so far, it fails with one of these errors only. -/
def FailsWith (errors : ε → Prop) (x : Build κ ε α) : Prop :=
  ∀ items err, (start x items).1 = .error err → errors err

theorem FailsWith.pure {errors : ε → Prop} (a : α) :
    FailsWith errors (Pure.pure a : Build κ ε α) := fun _ _ failed => nomatch failed

theorem FailsWith.bind {errors : ε → Prop} {x : Build κ ε α} {f : α → Build κ ε β}
    (before : FailsWith errors x) (after : ∀ a, FailsWith errors (f a)) :
    FailsWith errors (x >>= f) := by
  intro items err failed
  rw [start_bind] at failed
  cases ran : start x items with
  | mk result items' =>
    rw [ran] at failed
    cases result with
    | error first =>
      obtain rfl : first = err := Except.error.inj failed
      exact before items first (by rw [ran])
    | ok a => exact after a items' err failed

theorem FailsWith.mapM {errors : ε → Prop} {f : χ → Build κ ε α} {xs : List χ}
    (pass : ∀ x ∈ xs, FailsWith errors (f x)) : FailsWith errors (xs.mapM f) := by
  induction xs with
  | nil => exact FailsWith.pure []
  | cons x xs ih =>
    rw [List.mapM_cons]
    have here := pass x List.mem_cons_self
    have later := ih fun y member => pass y (List.mem_cons_of_mem _ member)
    exact here.bind fun a => later.bind fun as => FailsWith.pure (a :: as)

end AppendingBuild
