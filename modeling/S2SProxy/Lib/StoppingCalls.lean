import Mathlib

/- A callback with a state of its own is called for one item after the other, until it fails. -/
namespace StoppingCalls
variable {σ ι ε : Type}

/-- The state of the callback in the end, the items it was called for and its error. -/
structure Called (σ ι ε : Type) where
  state : σ
  calls : List ι
  err : Option ε

def done (s : σ) : Called σ ι ε := ⟨s, [], none⟩

/-- What follows is done unless there was an error. -/
def Called.andThen (first : Called σ ι ε) (next : σ → Called σ ι ε) : Called σ ι ε :=
  match first.err with
  | some _ => first
  | none => ⟨(next first.state).state, first.calls ++ (next first.state).calls, (next first.state).err⟩

def callOne (f : σ → ι → σ × Option ε) (s : σ) (x : ι) : Called σ ι ε := ⟨(f s x).1, [x], (f s x).2⟩

def callAll (f : σ → ι → σ × Option ε) (s : σ) : List ι → Called σ ι ε
  | [] => done s
  | x :: rest => (callOne f s x).andThen fun s' => callAll f s' rest

variable {f : σ → ι → σ × Option ε}

@[simp] theorem done_andThen (s : σ) (next : σ → Called σ ι ε) : (done s).andThen next = next s := by
  simp [done, Called.andThen]

theorem andThen_of_ok {first : Called σ ι ε} (ok : first.err = none) (next : σ → Called σ ι ε) :
    first.andThen next =
      ⟨(next first.state).state, first.calls ++ (next first.state).calls, (next first.state).err⟩ := by
  simp [Called.andThen, ok]

theorem andThen_of_err {first : Called σ ι ε} {e : ε} (failed : first.err = some e)
    (next : σ → Called σ ι ε) : first.andThen next = first := by
  simp [Called.andThen, failed]

theorem andThen_done (first : Called σ ι ε) : first.andThen done = first := by
  cases ok : first.err with
  | some e => rw [andThen_of_err ok]
  | none => simp [andThen_of_ok ok, done, ← ok]

theorem andThen_assoc (first : Called σ ι ε) (second third : σ → Called σ ι ε) :
    (first.andThen second).andThen third = first.andThen fun s => (second s).andThen third := by
  cases ok : first.err with
  | some e => rw [andThen_of_err ok, andThen_of_err ok, andThen_of_err ok]
  | none =>
    rw [andThen_of_ok ok, andThen_of_ok ok]
    cases ok' : (second first.state).err with
    | some e => simp [Called.andThen, ok']
    | none => simp [Called.andThen, ok']

theorem callAll_append (s : σ) (xs ys : List ι) :
    callAll f s (xs ++ ys) = (callAll f s xs).andThen fun s' => callAll f s' ys := by
  induction xs generalizing s with
  | nil => simp [callAll]
  | cons x rest ih =>
    simp only [List.cons_append, callAll, andThen_assoc]
    exact congrArg _ (funext ih)

/-- How a series of calls ends: all items are called for, or the last call is the first to fail. -/
inductive Ends (f : σ → ι → σ × Option ε) (s : σ) (xs : List ι) (run : Called σ ι ε) : Prop where
  | all (calls : run.calls = xs) (ok : run.err = none)
  | failed (before rest : List ι) (x : ι) (e : ε) (items : xs = before ++ x :: rest)
      (calls : run.calls = before ++ [x]) (earlier : (callAll f s before).err = none)
      (here : (f (callAll f s before).state x).2 = some e) (err : run.err = some e)

theorem callAll_ends (s : σ) (xs : List ι) : Ends f s xs (callAll f s xs) := by
  induction xs generalizing s with
  | nil => exact .all rfl rfl
  | cons x rest ih =>
    cases outcome : (f s x).2 with
    | some e =>
      have stopped : callAll f s (x :: rest) = callOne f s x := andThen_of_err outcome _
      rw [stopped]
      exact .failed [] rest x e rfl rfl rfl outcome outcome
    | none =>
      have goes_on (ys : List ι) : callAll f s (x :: ys) =
          ⟨(callAll f (f s x).1 ys).state, x :: (callAll f (f s x).1 ys).calls,
            (callAll f (f s x).1 ys).err⟩ := andThen_of_ok outcome _
      rw [goes_on]
      cases ih (f s x).1 with
      | all calls ok => exact .all (congrArg _ calls) ok
      | failed before later y e items calls earlier here err =>
        refine .failed (x :: before) later y e (congrArg _ items) (congrArg _ calls) ?_ ?_ err
        · rw [goes_on]
          exact earlier
        · rw [goes_on]
          exact here

theorem callAll_refused (refuses : ∀ s x, (f s x).2 ≠ none) {s : σ} {xs : List ι}
    (ok : (callAll f s xs).err = none) : xs = [] := by
  cases xs with
  | nil => rfl
  | cons x rest =>
    obtain ⟨e, failed⟩ := Option.ne_none_iff_exists'.mp (refuses s x)
    have stopped : callAll f s (x :: rest) = callOne f s x := andThen_of_err failed _
    rw [stopped] at ok
    exact absurd ok (refuses s x)

end StoppingCalls
