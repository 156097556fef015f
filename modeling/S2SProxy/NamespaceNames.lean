import S2SProxy.Lib.GuardedRuns
import S2SProxy.Lib.SharedCalls

/- namespaceNames, which resolves namespace IDs to the names of the local cluster: its cache, the
   calls of describe, and any number of concurrent lookups. A step is one locked section or one event
   of the environment. The singleflight group is not part of the repository: steps let it execute
   whatever was handed to Do and let Do return anything, and Singleflight says which of these steps it
   takes. The calls of describe are numbered as they begin. Numbers, times and the cluster's replies
   are kept for the statements. -/
namespace NamespaceNames
open GuardedRuns SharedCalls

/-- 5 * time.Minute, in nanoseconds. -/
def namespaceNameTTL : Nat := 5 * 60 * 1000000000

structure CachedName where
  name : String
  expires : Nat
  call : Nat
  storedAt : Nat

abbrev Reply := Except String String
abbrev Result := Except String String

/-- How far describe is: the cluster may have replied, and then the name may be in the cache. -/
inductive Progress where
  | asking
  | replied (reply : Reply) (stored : Bool)

/-- A call of describe. -/
structure Call where
  id : String
  progress : Progress

inductive Source where
  | cache (entry : CachedName)
  | shared (call : Nat)

def Source.number : Source → Nat
  | .cache entry => entry.call
  | .shared call => call

inductive LookupPc where
  | missed
  /-- In group.Do, which was called after so many completions. -/
  | sharing (before : Nat)
  | returned (result : Result) (source : Source)

structure Lookup where
  id : String
  begunAt : Nat
  pc : LookupPc

structure Names where
  now : Nat
  names : String → Option CachedName
  lookups : Nat → Option Lookup
  calls : List Call
  /-- The calls that the group is done with, and when. -/
  completions : List (Nat × Nat)

def newNamespaceNames (now : Nat) : Names where
  now := now
  names _ := none
  lookups _ := none
  calls := []
  completions := []

def Names.cached (s : Names) (id : String) : Option CachedName :=
  match s.names id with
  | none => none
  | some c => if s.now < c.expires then some c else none

/-- What describe makes of the cluster's reply. -/
def describeReply (id : String) : Reply → Result
  | .error err => .error ("failed to describe namespace " ++ id.quote ++ ": " ++ err)
  | .ok name =>
    if name = "" then .error ("namespace " ++ id ++ " described with no name") else .ok name

/-- What describe has returned. It returns an error at once; a name is stored first. -/
def Call.result (c : Call) : Option Result :=
  match c.progress with
  | .asking => none
  | .replied reply stored =>
    match describeReply c.id reply with
    | .error err => some (.error err)
    | .ok name => if stored then some (.ok name) else none

def Names.putLookup (s : Names) (g : Nat) (l : Lookup) : Names :=
  { s with lookups := Function.update s.lookups g (some l) }

def Names.putCall (s : Names) (n : Nat) (c : Call) : Names := { s with calls := s.calls.set n c }

def Names.store (s : Names) (n : Nat) (id : String) (reply : Reply) (name : String) : Names :=
  { s.putCall n ⟨id, .replied reply true⟩ with
    names := Function.update s.names id (some ⟨name, s.now + namespaceNameTTL, n, s.now⟩) }

inductive Label where
  | tick (elapsed : Nat)
  /-- LocalName begins and asks the cache. -/
  | lookup (g : Nat) (id : String)
  | enter (g : Nat)
  | execute (g : Nat)
  | answer (n : Nat) (reply : Reply)
  | store (n : Nat)
  | complete (n : Nat)
  /-- Do returns the result, as that of call n. -/
  | wake (g n : Nat) (result : Result)

def step (s : Names) : Label → Option Names
  | .tick elapsed => some { s with now := s.now + elapsed }
  | .lookup g id =>
    match s.lookups g with
    | some _ => none
    | none =>
      match s.cached id with
      | some c => some (s.putLookup g ⟨id, s.now, .returned (.ok c.name) (.cache c)⟩)
      | none => some (s.putLookup g ⟨id, s.now, .missed⟩)
  | .enter g =>
    match s.lookups g with
    | some ⟨id, begunAt, .missed⟩ =>
      some (s.putLookup g ⟨id, begunAt, .sharing s.completions.length⟩)
    | _ => none
  | .execute g =>
    match s.lookups g with
    | some ⟨id, _, .sharing _⟩ => some { s with calls := s.calls ++ [⟨id, .asking⟩] }
    | _ => none
  | .answer n reply =>
    match s.calls[n]? with
    | some ⟨id, .asking⟩ => some (s.putCall n ⟨id, .replied reply false⟩)
    | _ => none
  | .store n =>
    match s.calls[n]? with
    | some ⟨id, .replied reply false⟩ =>
      match describeReply id reply with
      | .ok name => some (s.store n id reply name)
      | .error _ => none
    | _ => none
  | .complete n => some { s with completions := s.completions ++ [(n, s.now)] }
  | .wake g n result =>
    match s.lookups g with
    | some ⟨id, begunAt, .sharing _⟩ =>
      some (s.putLookup g ⟨id, begunAt, .returned result (.shared n)⟩)
    | _ => none

def Names.Completed (s : Names) (n : Nat) : Prop := n ∈ s.completions.map Prod.fst

instance (s : Names) (n : Nat) : Decidable (s.Completed n) :=
  inferInstanceAs (Decidable (n ∈ s.completions.map Prod.fst))

def Names.UnderWay (s : Names) (id : String) (n : Nat) : Prop :=
  s.calls[n]?.map Call.id = some id ∧ ¬s.Completed n

instance (s : Names) (id : String) (n : Nat) : Decidable (s.UnderWay id n) :=
  inferInstanceAs (Decidable (_ ∧ _))

def Names.Returned (s : Names) (n : Nat) (id : String) (result : Result) : Prop :=
  ∃ c, s.calls[n]? = some c ∧ c.id = id ∧ c.result = some result

/-- What is known of singleflight.Group. It executes a function only while no other one is under way
    for the key, is done with it once, after it has returned, and Do returns the result of a function
    that was executed for its key and that the group was not done with when Do was called. -/
def Singleflight (s : Names) : Label → Prop
  | .execute g => ∀ l, s.lookups g = some l → ∀ n < s.calls.length, ¬s.UnderWay l.id n
  | .complete n => ¬s.Completed n ∧ ∃ id result, s.Returned n id result
  | .wake g n result => ∀ l before, s.lookups g = some l → l.pc = .sharing before →
      n ∈ (s.completions.drop before).map Prod.fst ∧ s.Returned n l.id result
  | .tick _ | .lookup _ _ | .enter _ | .answer _ _ | .store _ => True

/-- What a step that the group may take does. -/
inductive Stepped (s : Names) : Names → Prop where
  | tick (elapsed : Nat) : Stepped s { s with now := s.now + elapsed }
  | hit (g : Nat) (id : String) (c : CachedName) (keeps : s.names id = some c)
      (valid : s.now < c.expires) :
      Stepped s (s.putLookup g ⟨id, s.now, .returned (.ok c.name) (.cache c)⟩)
  | miss (g : Nat) (id : String) : Stepped s (s.putLookup g ⟨id, s.now, .missed⟩)
  | enter (g : Nat) (id : String) (begunAt : Nat)
      (found : s.lookups g = some ⟨id, begunAt, .missed⟩) :
      Stepped s (s.putLookup g ⟨id, begunAt, .sharing s.completions.length⟩)
  | execute (id : String) (idle : ∀ n, ¬s.UnderWay id n) :
      Stepped s { s with calls := s.calls ++ [⟨id, .asking⟩] }
  | answer (n : Nat) (id : String) (reply : Reply) (there : s.calls[n]? = some ⟨id, .asking⟩) :
      Stepped s (s.putCall n ⟨id, .replied reply false⟩)
  | store (n : Nat) (id : String) (reply : Reply) (name : String)
      (there : s.calls[n]? = some ⟨id, .replied reply false⟩)
      (named : describeReply id reply = .ok name) : Stepped s (s.store n id reply name)
  | complete (n : Nat) (id : String) (result : Result) (first : ¬s.Completed n)
      (returned : s.Returned n id result) :
      Stepped s { s with completions := s.completions ++ [(n, s.now)] }
  | wake (g : Nat) (id : String) (begunAt before n : Nat) (result : Result)
      (found : s.lookups g = some ⟨id, begunAt, .sharing before⟩)
      (completed : n ∈ (s.completions.drop before).map Prod.fst) (returned : s.Returned n id result) :
      Stepped s (s.putLookup g ⟨id, begunAt, .returned result (.shared n)⟩)

theorem cached_some {s : Names} {id : String} {c : CachedName} (hit : s.cached id = some c) :
    s.names id = some c ∧ s.now < c.expires := by
  unfold Names.cached at hit
  split at hit
  · cases hit
  · split at hit
    · cases hit
      exact ⟨by assumption, by assumption⟩
    · cases hit

theorem idle_of_permitted {s : Names} {id : String} (none : ∀ n < s.calls.length, ¬s.UnderWay id n)
    (n : Nat) : ¬s.UnderWay id n := by
  intro under
  have inside : n < s.calls.length := by
    by_contra outside
    have missing : s.calls[n]? = .none := List.getElem?_eq_none (Nat.le_of_not_lt outside)
    simp [Names.UnderWay, missing] at under
  exact none n inside under

theorem step_cases {s t : Names} {a : Label} (permitted : Singleflight s a) (h : step s a = some t) :
    Stepped s t := by
  cases a with
  | tick elapsed =>
    cases h
    exact .tick elapsed
  | lookup g id =>
    simp only [step] at h
    split at h
    · cases h
    · split at h
      · rename_i c hit
        cases h
        obtain ⟨keeps, valid⟩ := cached_some hit
        exact .hit g id c keeps valid
      · cases h
        exact .miss g id
  | enter g =>
    simp only [step] at h
    split at h
    · rename_i id begunAt found
      cases h
      exact .enter g id begunAt found
    · cases h
  | execute g =>
    simp only [step] at h
    split at h
    · rename_i id begunAt before found
      cases h
      exact .execute id (idle_of_permitted (permitted _ found))
    · cases h
  | answer n reply =>
    simp only [step] at h
    split at h
    · rename_i id there
      cases h
      exact .answer n id reply there
    · cases h
  | store n =>
    simp only [step] at h
    split at h
    · rename_i id reply there
      split at h
      · rename_i name named
        cases h
        exact .store n id reply name there named
      · cases h
    · cases h
  | complete n =>
    cases h
    obtain ⟨first, id, result, returned⟩ := permitted
    exact .complete n id result first returned
  | wake g n result =>
    simp only [step] at h
    split at h
    · rename_i id begunAt before found
      cases h
      obtain ⟨completed, returned⟩ := permitted _ before found rfl
      exact .wake g id begunAt before n result found completed returned
    · cases h

section Calls
variable {s t : Names} {n m : Nat} {c : Call}

theorem putCall_get (there : s.calls[n]? = some c) (c' : Call) (m : Nat) :
    (s.putCall n c').calls[m]? = if m = n then some c' else s.calls[m]? := by
  obtain ⟨inside, -⟩ := List.getElem?_eq_some_iff.mp there
  by_cases same : m = n
  · subst same
    simp [Names.putCall, inside]
  · simp [Names.putCall, same, List.getElem?_set_ne (Ne.symm same)]

theorem putCall_ids (there : s.calls[n]? = some c) (c' : Call) (same : c'.id = c.id) (m : Nat) :
    (s.putCall n c').calls[m]?.map Call.id = s.calls[m]?.map Call.id := by
  rw [putCall_get there]
  split
  · rename_i here
    rw [here, there]
    exact congrArg some same
  · rfl

/-- A call keeps its ID, the reply it has got, and what it has returned. -/
structure Advances (c c' : Call) : Prop where
  id : c'.id = c.id
  reply : ∀ reply stored, c.progress = .replied reply stored →
    ∃ stored', c'.progress = .replied reply stored'
  result : ∀ result, c.result = some result → c'.result = some result

theorem Advances.refl (c : Call) : Advances c c :=
  ⟨rfl, fun _ stored replied => ⟨stored, replied⟩, fun _ returned => returned⟩

theorem putCall_advances (there : s.calls[n]? = some c) {c' : Call} (advances : Advances c c')
    {d : Call} (found : s.calls[m]? = some d) :
    ∃ d', (s.putCall n c').calls[m]? = some d' ∧ Advances d d' := by
  rw [putCall_get there]
  split
  · rename_i here
    rw [here, there] at found
    obtain rfl := Option.some.inj found
    exact ⟨c', rfl, advances⟩
  · exact ⟨d, found, .refl d⟩

theorem answered_advances (id : String) (reply : Reply) :
    Advances ⟨id, .asking⟩ ⟨id, .replied reply false⟩ := by
  refine ⟨rfl, fun _ _ replied => ?_, fun _ returned => ?_⟩
  · cases replied
  · cases returned

theorem stored_advances (id : String) (reply : Reply) :
    Advances ⟨id, .replied reply false⟩ ⟨id, .replied reply true⟩ := by
  refine ⟨rfl, fun _ _ replied => ?_, fun result returned => ?_⟩
  · cases replied
    exact ⟨true, rfl⟩
  · unfold Call.result at returned ⊢
    simp only at returned ⊢
    split at returned
    · rename_i err outcome
      simpa [outcome] using returned
    · cases returned

theorem calls_advance (stepped : Stepped s t) (found : s.calls[m]? = some c) :
    ∃ c', t.calls[m]? = some c' ∧ Advances c c' := by
  cases stepped with
  | tick elapsed => exact ⟨c, found, .refl c⟩
  | hit g id entry keeps valid => exact ⟨c, found, .refl c⟩
  | miss g id => exact ⟨c, found, .refl c⟩
  | enter g id begunAt present => exact ⟨c, found, .refl c⟩
  | execute id idle =>
    obtain ⟨inside, -⟩ := List.getElem?_eq_some_iff.mp found
    exact ⟨c, (List.getElem?_append_left inside).trans found, .refl c⟩
  | answer n id reply there => exact putCall_advances there (answered_advances id reply) found
  | store n id reply name there named => exact putCall_advances there (stored_advances id reply) found
  | complete n id result first returned => exact ⟨c, found, .refl c⟩
  | wake g id begunAt before n result present completed returned => exact ⟨c, found, .refl c⟩

end Calls

/-- The calls under way and the names kept, by number. -/
def Names.table (s : Names) : Table String where
  next := s.calls.length
  current := s.UnderWay
  kept id := (s.names id).map CachedName.call

/-- The group is done only with calls that have returned. -/
def Settled (s : Names) : Prop :=
  ∀ n, s.Completed n → ∃ c result, s.calls[n]? = some c ∧ c.result = some result

theorem completed_append {s : Names} {n m time : Nat}
    (completed : { s with completions := s.completions ++ [(m, time)] }.Completed n) :
    s.Completed n ∨ n = m := by
  unfold Names.Completed at completed ⊢
  rw [List.map_append] at completed
  rcases List.mem_append.mp completed with old | new
  · exact .inl old
  · exact .inr (List.mem_singleton.mp new)

theorem settled_step {s t : Names} (settled : Settled s) (stepped : Stepped s t) : Settled t := by
  have kept : ∀ n, s.Completed n → ∃ c result, t.calls[n]? = some c ∧ c.result = some result := by
    intro n completed
    obtain ⟨c, result, there, returned⟩ := settled n completed
    obtain ⟨c', there', advances⟩ := calls_advance stepped there
    exact ⟨c', result, there', advances.result result returned⟩
  intro n completed
  cases stepped with
  | complete m id result first returned =>
    rcases completed_append completed with old | rfl
    · exact kept n old
    · obtain ⟨c, there, -, ended⟩ := returned
      exact ⟨c, result, there, ended⟩
  | tick elapsed => exact kept n completed
  | hit g id entry keeps valid => exact kept n completed
  | miss g id => exact kept n completed
  | enter g id begunAt present => exact kept n completed
  | execute id idle => exact kept n completed
  | answer m id reply there => exact kept n completed
  | store m id reply name there named => exact kept n completed
  | wake g id begunAt before m result present done returned => exact kept n completed

theorem underWay_of_storing {s : Names} (settled : Settled s) {n : Nat} {id name : String} {reply : Reply}
    (there : s.calls[n]? = some ⟨id, .replied reply false⟩)
    (named : describeReply id reply = .ok name) : s.UnderWay id n := by
  refine ⟨by rw [there]; rfl, fun completed => ?_⟩
  obtain ⟨c, result, there', returned⟩ := settled n completed
  obtain rfl := Option.some.inj (there.symm.trans there')
  simp [Call.result, named] at returned

theorem table_moves {s t : Names} (settled : Settled s) (stepped : Stepped s t) :
    Moved s.table t.table := by
  cases stepped with
  | tick elapsed => exact .eased ⟨rfl, fun _ _ under => under, rfl⟩
  | hit g id entry keeps valid => exact .eased ⟨rfl, fun _ _ under => under, rfl⟩
  | miss g id => exact .eased ⟨rfl, fun _ _ under => under, rfl⟩
  | enter g id begunAt present => exact .eased ⟨rfl, fun _ _ under => under, rfl⟩
  | execute id idle =>
    refine .started id ⟨idle, by simp [Names.table], fun id' n under => ?_, rfl⟩
    obtain ⟨named, going⟩ := under
    by_cases inside : n < s.calls.length
    · rw [List.getElem?_append_left inside] at named
      exact .inl ⟨named, going⟩
    · have last : n = s.calls.length := by
        have below : n < (s.calls ++ [(⟨id, .asking⟩ : Call)]).length := by
          by_contra outside
          rw [List.getElem?_eq_none (Nat.le_of_not_lt outside)] at named
          cases named
        simp only [List.length_append, List.length_singleton] at below
        omega
      subst last
      simp only [List.getElem?_concat_length, Option.map_some, Option.some.injEq] at named
      exact .inr ⟨named.symm, rfl⟩
  | answer n id reply there =>
    refine .eased ⟨by simp [Names.table, Names.putCall], fun id' m under => ?_, rfl⟩
    exact ⟨(putCall_ids there ⟨id, .replied reply false⟩ rfl m).symm.trans under.1, under.2⟩
  | store n id reply name there named =>
    refine .stored id n ⟨underWay_of_storing settled there named,
      by simp [Names.table, Names.store, Names.putCall], fun id' m under => ?_, ?_, fun id' other => ?_⟩
    · exact ⟨(putCall_ids there ⟨id, .replied reply true⟩ rfl m).symm.trans under.1, under.2⟩
    · simp [Names.table, Names.store]
    · simp [Names.table, Names.store, other]
  | complete n id result first returned =>
    refine .eased ⟨rfl, fun id' m under => ⟨under.1, fun completed => under.2 ?_⟩, rfl⟩
    simp only [Names.Completed, List.map_append]
    exact List.mem_append_left _ completed
  | wake g id begunAt before n result present completed returned =>
    exact .eased ⟨rfl, fun _ _ under => under, rfl⟩

theorem putLookup_some {s : Names} {g g' : Nat} {l l' : Lookup}
    (found : (s.putLookup g l).lookups g' = some l') : (g' = g ∧ l' = l) ∨ s.lookups g' = some l' := by
  by_cases same : g' = g
  · subst same
    exact .inl ⟨rfl, by simpa [Names.putLookup] using found.symm⟩
  · exact .inr (by simpa [Names.putLookup, same] using found)

/-- Every name that a call has returned, or that a lookup was given, has been seen. -/
structure Ordered (s : Names) : Prop where
  settled : Settled s
  numbered : Numbered s.table
  returned : ∀ n c name, s.calls[n]? = some c → c.result = some (.ok name) → Seen s.table c.id n
  given : ∀ g l name source, s.lookups g = some l → l.pc = .returned (.ok name) source →
    Seen s.table l.id source.number

theorem ordered_initial (now : Nat) : Ordered (newNamespaceNames now) := by
  constructor
  · intro n completed
    cases completed
  · constructor
    · intro id n under
      simp [Names.table, Names.UnderWay, newNamespaceNames] at under
    · intro id n m under
      simp [Names.table, Names.UnderWay, newNamespaceNames] at under
    · intro id n keeps
      cases keeps
    · intro id n c keeps
      cases keeps
  · intro n c name there
    cases there
  · intro g l name source found
    cases found

/- A name that a call returns was returned before the step, or is stored by it. -/
theorem result_before {s t : Names} (stepped : Stepped s t) {n : Nat} {c : Call} {name : String}
    (there : t.calls[n]? = some c) (returned : c.result = some (.ok name)) :
    (∃ d, s.calls[n]? = some d ∧ d.id = c.id ∧ d.result = some (.ok name)) ∨
      t.table.kept c.id = some n := by
  have unchanged (same : s.calls[n]? = some c) :
      ∃ d, s.calls[n]? = some d ∧ d.id = c.id ∧ d.result = some (.ok name) := ⟨c, same, rfl, returned⟩
  cases stepped with
  | tick elapsed => exact .inl (unchanged there)
  | hit g id entry keeps valid => exact .inl (unchanged there)
  | miss g id => exact .inl (unchanged there)
  | enter g id begunAt present => exact .inl (unchanged there)
  | execute id idle =>
    by_cases inside : n < s.calls.length
    · rw [List.getElem?_append_left inside] at there
      exact .inl (unchanged there)
    · rw [List.getElem?_append_right (Nat.le_of_not_lt inside)] at there
      obtain rfl := List.mem_singleton.mp (List.mem_of_getElem? there)
      simp [Call.result] at returned
  | answer m id reply before =>
    rw [putCall_get before] at there
    split at there
    · obtain rfl := Option.some.inj there
      exfalso
      unfold Call.result at returned
      simp only at returned
      split at returned <;> simp at returned
    · exact .inl (unchanged there)
  | store m id reply name' before named =>
    have there : (s.putCall m ⟨id, .replied reply true⟩).calls[n]? = some c := there
    rw [putCall_get before] at there
    split at there
    · rename_i here
      obtain rfl := Option.some.inj there
      exact .inr (by simp [Names.table, Names.store, here])
    · exact .inl (unchanged there)
  | complete m id result first ended => exact .inl (unchanged there)
  | wake g id begunAt before m result present completed ended => exact .inl (unchanged there)

theorem ordered_putLookup {s : Names} (ordered : Ordered s) {g : Nat} {l : Lookup}
    (fits : ∀ name source, l.pc = .returned (.ok name) source → Seen s.table l.id source.number) :
    Ordered (s.putLookup g l) := by
  refine ⟨ordered.settled, ordered.numbered, ordered.returned, ?_⟩
  intro g' l' name source found given
  rcases putLookup_some found with ⟨-, rfl⟩ | before
  · exact fits name source given
  · exact ordered.given g' l' name source before given

theorem ordered_calls {s t : Names} (ordered : Ordered s) (stepped : Stepped s t)
    (same : t.lookups = s.lookups) : Ordered t := by
  have moved := table_moves ordered.settled stepped
  have numbered := moved.numbered ordered.numbered
  refine ⟨settled_step ordered.settled stepped, numbered, ?_, ?_⟩
  · intro n c name there returned
    rcases result_before stepped there returned with ⟨d, before, sameId, ended⟩ | keeps
    · rw [← sameId]
      exact (ordered.returned n d name before ended).moved ordered.numbered moved
    · exact seen_kept numbered keeps
  · intro g l name source found given
    rw [same] at found
    exact (ordered.given g l name source found given).moved ordered.numbered moved

theorem ordered_step {s t : Names} (ordered : Ordered s) (stepped : Stepped s t) : Ordered t := by
  cases stepped with
  | tick elapsed => exact ordered_calls ordered (.tick elapsed) rfl
  | hit g id entry keeps valid =>
    apply ordered_putLookup ordered
    intro name source given
    cases given
    exact seen_kept ordered.numbered (by simp [Names.table, keeps, Source.number])
  | miss g id =>
    apply ordered_putLookup ordered
    intro name source given
    cases given
  | enter g id begunAt present =>
    apply ordered_putLookup ordered
    intro name source given
    cases given
  | execute id idle => exact ordered_calls ordered (.execute id idle) rfl
  | answer n id reply there => exact ordered_calls ordered (.answer n id reply there) rfl
  | store n id reply name there named => exact ordered_calls ordered (.store n id reply name there named) rfl
  | complete n id result first returned => exact ordered_calls ordered (.complete n id result first returned) rfl
  | wake g id begunAt before n result present completed returned =>
    apply ordered_putLookup ordered
    intro name source given
    cases given
    obtain ⟨c, there, rfl, ended⟩ := returned
    exact ordered.returned n c name there ended

/-- A lookup that begins later than some state, in which a name of call n was given out, can be given
    only names of calls that are no older. -/
structure Newer (old : Nat → Option Lookup) (id : String) (n : Nat) (s : Names) : Prop where
  seen : Seen s.table id n
  completed : ∀ g l before, old g = none → s.lookups g = some l → l.id = id → l.pc = .sharing before →
    ∀ p ∈ s.completions.drop before, s.calls[p.1]?.map Call.id = some id → n ≤ p.1
  given : ∀ g l name source, old g = none → s.lookups g = some l → l.id = id →
    l.pc = .returned (.ok name) source → n ≤ source.number

section Newer
variable {old : Nat → Option Lookup} {id : String} {n : Nat} {s t : Names}

theorem newer_putLookup (newer : Newer old id n s) {g : Nat} {l : Lookup}
    (shares : ∀ before, l.id = id → old g = none → l.pc = .sharing before →
      ∀ p ∈ s.completions.drop before, s.calls[p.1]?.map Call.id = some id → n ≤ p.1)
    (gets : ∀ name source, l.id = id → old g = none → l.pc = .returned (.ok name) source →
      n ≤ source.number) : Newer old id n (s.putLookup g l) := by
  refine ⟨newer.seen, ?_, ?_⟩
  · intro g' l' before absent found here pc
    rcases putLookup_some found with ⟨rfl, rfl⟩ | earlier
    · exact shares before here absent pc
    · exact newer.completed g' l' before absent earlier here pc
  · intro g' l' name source absent found here pc
    rcases putLookup_some found with ⟨rfl, rfl⟩ | earlier
    · exact gets name source here absent pc
    · exact newer.given g' l' name source absent earlier here pc

theorem newer_calls (ordered : Ordered s) (newer : Newer old id n s) (stepped : Stepped s t)
    (lookups : t.lookups = s.lookups) (completions : t.completions = s.completions) :
    Newer old id n t := by
  refine ⟨newer.seen.moved ordered.numbered (table_moves ordered.settled stepped), ?_, ?_⟩
  · intro g l before absent found here pc p among named
    rw [lookups] at found
    rw [completions] at among
    apply newer.completed g l before absent found here pc p among
    obtain ⟨c, result, there, -⟩ := ordered.settled p.1 (List.mem_map_of_mem (List.mem_of_mem_drop among))
    obtain ⟨c', there', advances⟩ := calls_advance stepped there
    rw [there', Option.map_some, advances.id] at named
    rw [there, Option.map_some]
    exact named
  · intro g l name source absent found
    rw [lookups] at found
    exact newer.given g l name source absent found

/- A call that the group is done with only now was under way. -/
theorem newer_complete (ordered : Ordered s) (newer : Newer old id n s) {m : Nat} {id' : String}
    {result : Result} (first : ¬s.Completed m) (returned : s.Returned m id' result) :
    Newer old id n { s with completions := s.completions ++ [(m, s.now)] } := by
  have stepped : Stepped s { s with completions := s.completions ++ [(m, s.now)] } :=
    .complete m id' result first returned
  refine ⟨newer.seen.moved ordered.numbered (table_moves ordered.settled stepped), ?_, newer.given⟩
  intro g l before absent found here pc p among named
  rw [List.drop_append] at among
  rcases List.mem_append.mp among with earlier | last
  · exact newer.completed g l before absent found here pc p earlier named
  · obtain rfl := List.mem_singleton.mp (List.mem_of_mem_drop last)
    exact newer.seen.2 m ⟨named, first⟩

theorem newer_step (ordered : Ordered s) (newer : Newer old id n s) (stepped : Stepped s t) :
    Newer old id n t := by
  obtain ⟨m, keeps, below⟩ := newer.seen.1
  cases stepped with
  | tick elapsed => exact newer_calls ordered newer (.tick elapsed) rfl rfl
  | hit g id' entry found valid =>
    apply newer_putLookup newer
    · intro before _ _ pc
      cases pc
    · intro name source here _ pc
      cases pc
      have kept : m = entry.call := by
        subst here
        simpa [Names.table, found] using keeps.symm
      show n ≤ entry.call
      omega
  | miss g id' =>
    apply newer_putLookup newer
    · intro before _ _ pc
      cases pc
    · intro name source _ _ pc
      cases pc
  | enter g id' begunAt present =>
    apply newer_putLookup newer
    · intro before _ _ pc p among
      cases pc
      simp at among
    · intro name source _ _ pc
      cases pc
  | execute id' idle => exact newer_calls ordered newer (.execute id' idle) rfl rfl
  | answer m id' reply there => exact newer_calls ordered newer (.answer m id' reply there) rfl rfl
  | store m id' reply name there named =>
    exact newer_calls ordered newer (.store m id' reply name there named) rfl rfl
  | complete m id' result first returned => exact newer_complete ordered newer first returned
  | wake g id' begunAt before m result present completed returned =>
    apply newer_putLookup newer
    · intro before _ _ pc
      cases pc
    · intro name source here absent pc
      cases pc
      obtain ⟨p, among, rfl⟩ := List.mem_map.mp completed
      obtain ⟨c, there, sameId, -⟩ := returned
      apply newer.completed g _ before absent present here rfl p among
      rw [there, Option.map_some, sameId]
      exact congrArg some here

end Newer

/-- The cluster's reply to call n, which is for the ID, gives the result. -/
def Justified (s : Names) (n : Nat) (id : String) (result : Result) : Prop :=
  ∃ reply stored, s.calls[n]? = some ⟨id, .replied reply stored⟩ ∧ result = describeReply id reply

theorem justified_step {s t : Names} (stepped : Stepped s t) {n : Nat} {id : String} {result : Result}
    (justified : Justified s n id result) : Justified t n id result := by
  obtain ⟨reply, stored, there, same⟩ := justified
  obtain ⟨⟨id', progress⟩, there', advances⟩ := calls_advance stepped there
  obtain ⟨stored', replied⟩ := advances.reply reply stored rfl
  have sameId : id' = id := advances.id
  have sameProgress : progress = .replied reply stored' := replied
  subst sameId sameProgress
  exact ⟨reply, stored', there', same⟩

theorem justified_of_returned {s : Names} {n : Nat} {id : String} {result : Result}
    (returned : s.Returned n id result) : Justified s n id result := by
  obtain ⟨⟨id', progress⟩, there, rfl, ended⟩ := returned
  cases progress with
  | asking => cases ended
  | replied reply stored =>
    refine ⟨reply, stored, there, ?_⟩
    unfold Call.result at ended
    simp only at ended
    split at ended
    · rename_i err outcome
      exact (Option.some.inj ended).symm.trans outcome.symm
    · rename_i name outcome
      split at ended
      · exact (Option.some.inj ended).symm.trans outcome.symm
      · cases ended

theorem justified_unique {s : Names} {n : Nat} {id : String} {result result' : Result}
    (first : Justified s n id result) (second : Justified s n id result') : result = result' := by
  obtain ⟨reply, stored, there, rfl⟩ := first
  obtain ⟨reply', stored', there', rfl⟩ := second
  have same := Option.some.inj (there.symm.trans there')
  simp only [Call.mk.injEq, Progress.replied.injEq, true_and] at same
  rw [same.1]

/-- What a lookup may return: the result of a reply of the cluster for its ID. From the cache this is
    a name that was stored less than namespaceNameTTL before the lookup began; otherwise, above all if
    it is an error, the call was completed after the lookup began. -/
def Answered (s : Names) (l : Lookup) (result : Result) (source : Source) : Prop :=
  Justified s source.number l.id result ∧
  match source with
  | .cache entry => result = .ok entry.name ∧ entry.storedAt ≤ l.begunAt ∧
      l.begunAt < entry.storedAt + namespaceNameTTL
  | .shared n => ∃ time, (n, time) ∈ s.completions ∧ l.begunAt ≤ time

structure Sound (s : Names) : Prop where
  kept : ∀ id c, s.names id = some c → Justified s c.call id (.ok c.name) ∧
    c.expires = c.storedAt + namespaceNameTTL ∧ c.storedAt ≤ s.now
  begun : ∀ g l, s.lookups g = some l → l.begunAt ≤ s.now
  sharing : ∀ g l before, s.lookups g = some l → l.pc = .sharing before →
    ∀ p ∈ s.completions.drop before, l.begunAt ≤ p.2
  answered : ∀ g l result source, s.lookups g = some l → l.pc = .returned result source →
    Answered s l result source

theorem sound_initial (now : Nat) : Sound (newNamespaceNames now) := by
  constructor
  · intro id c found
    cases found
  · intro g l found
    cases found
  · intro g l before found
    cases found
  · intro g l result source found
    cases found

section Sound
variable {s t : Names}

theorem sound_putLookup (sound : Sound s) {g : Nat} {l : Lookup} (begun : l.begunAt ≤ s.now)
    (shares : ∀ before, l.pc = .sharing before → ∀ p ∈ s.completions.drop before, l.begunAt ≤ p.2)
    (answers : ∀ result source, l.pc = .returned result source → Answered s l result source) :
    Sound (s.putLookup g l) := by
  refine ⟨sound.kept, ?_, ?_, ?_⟩
  · intro g' l' found
    rcases putLookup_some found with ⟨-, rfl⟩ | before
    · exact begun
    · exact sound.begun g' l' before
  · intro g' l' before found pc
    rcases putLookup_some found with ⟨-, rfl⟩ | earlier
    · exact shares before pc
    · exact sound.sharing g' l' before earlier pc
  · intro g' l' result source found pc
    rcases putLookup_some found with ⟨-, rfl⟩ | earlier
    · exact answers result source pc
    · exact sound.answered g' l' result source earlier pc

theorem answered_step (stepped : Stepped s t) (completions : s.completions ⊆ t.completions)
    {l : Lookup} {result : Result} {source : Source} (answered : Answered s l result source) :
    Answered t l result source := by
  obtain ⟨justified, rest⟩ := answered
  refine ⟨justified_step stepped justified, ?_⟩
  cases source with
  | cache entry => exact rest
  | shared n =>
    obtain ⟨time, among, later⟩ := rest
    exact ⟨time, completions among, later⟩

theorem sound_calls (sound : Sound s) (stepped : Stepped s t) (lookups : t.lookups = s.lookups)
    (completions : t.completions = s.completions) (now : s.now ≤ t.now)
    (names : ∀ id c, t.names id = some c → s.names id = some c ∨
      (Justified t c.call id (.ok c.name) ∧ c.expires = c.storedAt + namespaceNameTTL ∧
        c.storedAt ≤ t.now)) : Sound t := by
  refine ⟨?_, ?_, ?_, ?_⟩
  · intro id c keeps
    rcases names id c keeps with before | new
    · obtain ⟨justified, expiry, past⟩ := sound.kept id c before
      exact ⟨justified_step stepped justified, expiry, past.trans now⟩
    · exact new
  · intro g l found
    rw [lookups] at found
    exact (sound.begun g l found).trans now
  · rw [lookups, completions]
    exact sound.sharing
  · intro g l result source found pc
    rw [lookups] at found
    exact answered_step stepped (completions ▸ fun _ among => among)
      (sound.answered g l result source found pc)

theorem sound_complete (sound : Sound s) {n : Nat} {id : String} {result : Result}
    (first : ¬s.Completed n) (returned : s.Returned n id result) :
    Sound { s with completions := s.completions ++ [(n, s.now)] } := by
  have stepped : Stepped s { s with completions := s.completions ++ [(n, s.now)] } :=
    .complete n id result first returned
  refine ⟨sound.kept, sound.begun, ?_, ?_⟩
  · intro g l before found pc p among
    rw [List.drop_append] at among
    rcases List.mem_append.mp among with earlier | last
    · exact sound.sharing g l before found pc p earlier
    · obtain rfl := List.mem_singleton.mp (List.mem_of_mem_drop last)
      exact sound.begun g l found
  · intro g l result source found pc
    exact answered_step stepped (List.subset_append_left _ _) (sound.answered g l result source found pc)

theorem sound_store (sound : Sound s) {n : Nat} {id : String} {reply : Reply} {name : String}
    (there : s.calls[n]? = some ⟨id, .replied reply false⟩) (named : describeReply id reply = .ok name) :
    Sound (s.store n id reply name) := by
  refine sound_calls sound (.store n id reply name there named) rfl rfl le_rfl ?_
  intro id' c keeps
  by_cases here : id' = id
  · subst here
    have entry : c = ⟨name, s.now + namespaceNameTTL, n, s.now⟩ := by
      simpa [Names.store] using keeps.symm
    subst entry
    refine .inr ⟨⟨reply, true, ?_, named.symm⟩, rfl, le_refl s.now⟩
    exact (putCall_get there _ n).trans (if_pos rfl)
  · exact .inl (by simpa [Names.store, here] using keeps)

theorem sound_step (sound : Sound s) (stepped : Stepped s t) : Sound t := by
  cases stepped with
  | tick elapsed =>
    exact sound_calls sound (.tick elapsed) rfl rfl (Nat.le_add_right _ _) fun _ _ keeps => .inl keeps
  | hit g id entry keeps valid =>
    obtain ⟨justified, expiry, past⟩ := sound.kept id entry keeps
    apply sound_putLookup sound
    · exact le_refl s.now
    · intro before pc
      cases pc
    · intro result source pc
      cases pc
      exact ⟨justified, rfl, past, by rw [← expiry]; exact valid⟩
  | miss g id =>
    apply sound_putLookup sound
    · exact le_refl s.now
    · intro before pc
      cases pc
    · intro result source pc
      cases pc
  | enter g id begunAt present =>
    have begun := sound.begun g _ present
    apply sound_putLookup sound
    · exact begun
    · intro before pc p among
      cases pc
      simp at among
    · intro result source pc
      cases pc
  | execute id idle =>
    exact sound_calls sound (.execute id idle) rfl rfl le_rfl fun _ _ keeps => .inl keeps
  | answer n id reply there =>
    exact sound_calls sound (.answer n id reply there) rfl rfl le_rfl fun _ _ keeps => .inl keeps
  | store n id reply name there named => exact sound_store sound there named
  | complete n id result first returned => exact sound_complete sound first returned
  | wake g id begunAt before n result present completed returned =>
    have begun := sound.begun g _ present
    apply sound_putLookup sound
    · exact begun
    · intro before pc
      cases pc
    · intro result' source pc
      cases pc
      obtain ⟨p, among, rfl⟩ := List.mem_map.mp completed
      exact ⟨justified_of_returned returned, p.2, List.mem_of_mem_drop among,
        sound.sharing g _ before present rfl p among⟩

end Sound

theorem ordered_sound_run {s t : Names} {labels : List Label} (start : Ordered s ∧ Sound s)
    (permitted : Meets step Singleflight s labels) (h : run step s labels = some t) :
    Ordered t ∧ Sound t := by
  have kept : ∀ u a v, (Ordered u ∧ Sound u) → Singleflight u a → step u a = some v →
      Ordered v ∧ Sound v := by
    intro u a v holds here hs
    have stepped := step_cases here hs
    exact ⟨ordered_step holds.1 stepped, sound_step holds.2 stepped⟩
  exact run_invariant kept start permitted h

theorem justified_run {n : Nat} {id : String} {result : Result} {s t : Names} {labels : List Label}
    (justified : Justified s n id result) (permitted : Meets step Singleflight s labels)
    (h : run step s labels = some t) : Justified t n id result := by
  have kept : ∀ u a v, Justified u n id result → Singleflight u a → step u a = some v →
      Justified v n id result :=
    fun u a v holds here hs => justified_step (step_cases here hs) holds
  exact run_invariant kept justified permitted h

/-- A lookup that begins after another one of the same ID has returned a name is not given an older
    name: each name is that of the cluster's reply to one call of describe, and the call of the later
    lookup began no earlier, or is the same and so is the name. -/
theorem names_never_go_back {now : Nat} {first second : List Label} {s t : Names}
    (permitted : Meets step Singleflight (newNamespaceNames now) (first ++ second))
    (before : run step (newNamespaceNames now) first = some s) (after : run step s second = some t)
    {g g' : Nat} {l l' : Lookup} {name name' : String} {source source' : Source}
    (found : s.lookups g = some l) (given : l.pc = .returned (.ok name) source)
    (later : s.lookups g' = none) (found' : t.lookups g' = some l')
    (given' : l'.pc = .returned (.ok name') source') (same : l'.id = l.id) :
    Justified t source.number l.id (.ok name) ∧ Justified t source'.number l.id (.ok name') ∧
      (source.number < source'.number ∨ (source.number = source'.number ∧ name = name')) := by
  obtain ⟨permitted, permitted'⟩ := meets_append before permitted
  have start := ordered_sound_run ⟨ordered_initial now, sound_initial now⟩ permitted before
  obtain ⟨ordered, sound⟩ := start
  have finish := ordered_sound_run ⟨ordered, sound⟩ permitted' after
  have newer : Newer s.lookups l.id source.number s := by
    refine ⟨ordered.given g l name source found given, ?_, ?_⟩
    · intro g'' l'' before absent present
      rw [absent] at present
      cases present
    · intro g'' l'' name'' source'' absent present
      rw [absent] at present
      cases present
  have kept : ∀ u a v, (Ordered u ∧ Newer s.lookups l.id source.number u) → Singleflight u a →
      step u a = some v → Ordered v ∧ Newer s.lookups l.id source.number v := by
    intro u a v holds here hs
    have stepped := step_cases here hs
    exact ⟨ordered_step holds.1 stepped, newer_step holds.1 holds.2 stepped⟩
  have last := run_invariant kept ⟨ordered, newer⟩ permitted' after
  have one : Justified t source.number l.id (.ok name) :=
    justified_run (sound.answered g l (.ok name) source found given).1 permitted' after
  have other : Justified t source'.number l.id (.ok name') :=
    same ▸ (finish.2.answered g' l' (.ok name') source' found' given').1
  refine ⟨one, other, ?_⟩
  rcases Nat.lt_or_eq_of_le (last.2.given g' l' name' source' later found' same given') with less | equal
  · exact .inl less
  · exact .inr ⟨equal, Except.ok.inj (justified_unique one (equal ▸ other))⟩

def sharedLookups : List Label :=
  [.lookup 0 "id", .lookup 1 "id", .enter 0, .execute 0, .enter 1, .answer 0 (.ok "orders"), .store 0,
    .complete 0, .wake 1 0 (.ok "orders"), .wake 0 0 (.ok "orders")]

/-- The namespace is renamed. The name is still in the cache for one lookup, and has expired for
    another. -/
def laterLookups : List Label :=
  [.tick 7, .lookup 2 "id", .tick namespaceNameTTL, .lookup 3 "id", .enter 3, .execute 3,
    .answer 1 (.ok "sales"), .store 1, .complete 1, .wake 3 1 (.ok "sales")]

def sharedNames : Names :=
  (run step (newNamespaceNames 0) sharedLookups).getD (newNamespaceNames 0)

def renamedNames : Names := (run step sharedNames laterLookups).getD sharedNames

theorem shared_then_renamed_permitted :
    Meets step Singleflight (newNamespaceNames 0) (sharedLookups ++ laterLookups) := by
  have done : ∀ n < 1, ¬(¬n ∈ [0]) := by decide
  refine ⟨trivial, trivial, trivial, fun _ _ _ below => absurd below (Nat.not_lt_zero _), trivial, trivial,
    trivial, ⟨List.not_mem_nil, "id", .ok "orders", _, rfl, rfl, rfl⟩, ?_, ?_, trivial, trivial, trivial,
    trivial, trivial, fun _ _ n below under => done n below under.2, trivial, trivial,
    ⟨by decide, "id", .ok "sales", _, rfl, rfl, rfl⟩, ?_, trivial⟩
  all_goals
    intro l before found pc
    cases found
    cases pc
    exact ⟨by decide, _, rfl, rfl, rfl⟩

theorem renamed_after_expiry :
    run step (newNamespaceNames 0) sharedLookups = some sharedNames ∧
    run step sharedNames laterLookups = some renamedNames ∧
    sharedNames.lookups 1 = some ⟨"id", 0, .returned (.ok "orders") (.shared 0)⟩ ∧
    renamedNames.lookups 2 = some ⟨"id", 7, .returned (.ok "orders")
      (.cache ⟨"orders", namespaceNameTTL, 0, 0⟩)⟩ ∧
    renamedNames.lookups 3 = some ⟨"id", 7 + namespaceNameTTL, .returned (.ok "sales") (.shared 1)⟩ ∧
    Justified renamedNames 0 "id" (.ok "orders") ∧ Justified renamedNames 1 "id" (.ok "sales") := by
  have before : run step (newNamespaceNames 0) sharedLookups = some sharedNames := rfl
  have after : run step sharedNames laterLookups = some renamedNames := rfl
  have found : sharedNames.lookups 1 = some ⟨"id", 0, .returned (.ok "orders") (.shared 0)⟩ := rfl
  have hit : renamedNames.lookups 2 = some ⟨"id", 7, .returned (.ok "orders")
      (.cache ⟨"orders", namespaceNameTTL, 0, 0⟩)⟩ := rfl
  have renamed : renamedNames.lookups 3 =
      some ⟨"id", 7 + namespaceNameTTL, .returned (.ok "sales") (.shared 1)⟩ := rfl
  have cached := names_never_go_back shared_then_renamed_permitted before after found rfl rfl hit rfl rfl
  have asked := names_never_go_back shared_then_renamed_permitted before after found rfl rfl renamed rfl rfl
  exact ⟨before, after, found, hit, renamed, cached.2.1, asked.2.1⟩

/-- One lookup finds the name in the cache, another one waits for a call that fails. -/
def cachedAndFailed : List Label :=
  [.lookup 0 "id", .enter 0, .execute 0, .answer 0 (.ok "orders"), .store 0, .complete 0,
    .wake 0 0 (.ok "orders"), .tick 7, .lookup 1 "id", .lookup 2 "other", .enter 2, .execute 2,
    .answer 1 (.error "not found"), .complete 1, .wake 2 1 (describeReply "other" (.error "not found"))]

def answeredNames : Names := (run step (newNamespaceNames 0) cachedAndFailed).getD (newNamespaceNames 0)

theorem cachedAndFailed_permitted : Meets step Singleflight (newNamespaceNames 0) cachedAndFailed := by
  have done : ∀ n < 1, ¬(¬n ∈ [0]) := by decide
  refine ⟨trivial, trivial, fun _ _ _ below => absurd below (Nat.not_lt_zero _), trivial, trivial,
    ⟨List.not_mem_nil, "id", .ok "orders", _, rfl, rfl, rfl⟩, ?_, trivial, trivial, trivial, trivial,
    fun _ _ n below under => done n below under.2, trivial, ⟨by decide, "other", _, _, rfl, rfl, rfl⟩,
    ?_, trivial⟩
  all_goals
    intro l before found pc
    cases found
    cases pc
    exact ⟨by decide, _, rfl, rfl, rfl⟩

end NamespaceNames
