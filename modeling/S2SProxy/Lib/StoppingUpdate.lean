import Mathlib

/- Updating the parts of a structure in place, one after the other, until one of them fails.
   A failure leaves the parts before it updated and those behind it as they were. An update
   that reaches its parts in some order follows the update of the list of those parts in that
   order, and this is how trees are reasoned about: through their list of parts. -/
namespace StoppingUpdate
variable {ε α β P : Type}

/-- What an in-place update leaves: the new value, whether something matched, the error. -/
@[ext] structure Outcome (ε α : Type) where
  value : α
  matched : Bool
  err : Option ε

def keep (a : α) : Outcome ε α := ⟨a, false, none⟩

def Outcome.map (f : α → β) (o : Outcome ε α) : Outcome ε β := ⟨f o.value, o.matched, o.err⟩

/-- The second update is made only when the first has not failed. -/
def Outcome.both (o : Outcome ε α) (b : β) (next : Outcome ε β) : Outcome ε (α × β) :=
  match o.err with
  | some e => ⟨(o.value, b), o.matched, some e⟩
  | none => ⟨(o.value, next.value), o.matched || next.matched, next.err⟩

def updateAll (f : P → Outcome ε P) : List P → Outcome ε (List P)
  | [] => keep []
  | p :: rest => ((f p).both rest (updateAll f rest)).map fun parts => parts.1 :: parts.2

/-- The parts at the given positions are updated, in the given order. -/
def updateIn (f : P → Outcome ε P) : List Nat → List P → Outcome ε (List P)
  | [], ps => keep ps
  | i :: rest, ps =>
    match ps[i]? with
    | none => updateIn f rest ps
    | some p =>
      match (f p).err with
      | some e => ⟨ps.set i (f p).value, (f p).matched, some e⟩
      | none =>
        let others := updateIn f rest (ps.set i (f p).value)
        ⟨others.value, (f p).matched || others.matched, others.err⟩

def partsAt (ps : List P) (order : List Nat) : List P := order.filterMap fun i => ps[i]?

@[simp] theorem map_value (f : α → β) (o : Outcome ε α) : (o.map f).value = f o.value := rfl

@[simp] theorem map_matched (f : α → β) (o : Outcome ε α) : (o.map f).matched = o.matched := rfl

@[simp] theorem map_err (f : α → β) (o : Outcome ε α) : (o.map f).err = o.err := rfl

theorem both_of_ok {o : Outcome ε α} (ok : o.err = none) (b : β) (next : Outcome ε β) :
    o.both b next = ⟨(o.value, next.value), o.matched || next.matched, next.err⟩ := by
  simp [Outcome.both, ok]

theorem both_of_err {o : Outcome ε α} {e : ε} (failed : o.err = some e) (b : β)
    (next : Outcome ε β) : o.both b next = ⟨(o.value, b), o.matched, some e⟩ := by
  simp [Outcome.both, failed]

variable {f : P → Outcome ε P}

@[simp] theorem updateAll_nil : updateAll f [] = keep [] := rfl

theorem updateAll_length (ps : List P) : (updateAll f ps).value.length = ps.length := by
  induction ps with
  | nil => rfl
  | cons p rest ih =>
    cases err : (f p).err with
    | none => simp [updateAll, both_of_ok err, ih]
    | some e => simp [updateAll, both_of_err err]

theorem updateAll_append (ps qs : List P) :
    updateAll f (ps ++ qs) =
      ((updateAll f ps).both qs (updateAll f qs)).map fun parts => parts.1 ++ parts.2 := by
  induction ps with
  | nil => simp [updateAll, keep, Outcome.both, Outcome.map]
  | cons p rest ih =>
    cases err : (f p).err with
    | some e => simp [updateAll, Outcome.map, Outcome.both, err]
    | none =>
      cases err' : (updateAll f rest).err with
      | some e => simp [updateAll, ih, Outcome.map, Outcome.both, err, err']
      | none => simp [updateAll, ih, Outcome.map, Outcome.both, err, err', Bool.or_assoc]

theorem updateAll_ok {ps : List P} (ok : ∀ p ∈ ps, (f p).err = none) :
    updateAll f ps = ⟨ps.map fun p => (f p).value, ps.any fun p => (f p).matched, none⟩ := by
  induction ps with
  | nil => rfl
  | cons p rest ih =>
    have tail := ih fun q member => ok q (List.mem_cons_of_mem p member)
    simp [updateAll, both_of_ok (ok p List.mem_cons_self), tail, Outcome.map]

theorem updateAll_err_none (ps : List P) :
    (updateAll f ps).err = none ↔ ∀ p ∈ ps, (f p).err = none := by
  induction ps with
  | nil => simp [keep]
  | cons p rest ih =>
    cases err : (f p).err with
    | none => simp [updateAll, both_of_ok err, ih, err]
    | some e => simp [updateAll, both_of_err err, err]

theorem updateAll_quiet (ps : List P) :
    (updateAll f ps).err = none ∧ (updateAll f ps).matched = false ↔
      ∀ p ∈ ps, (f p).err = none ∧ (f p).matched = false := by
  rw [updateAll_err_none]
  constructor
  · rintro ⟨ok, quiet⟩ p member
    rw [updateAll_ok ok, List.any_eq_false] at quiet
    exact ⟨ok p member, by simpa using quiet p member⟩
  · intro all
    have ok : ∀ p ∈ ps, (f p).err = none := fun p member => (all p member).1
    refine ⟨ok, ?_⟩
    rw [updateAll_ok ok, List.any_eq_false]
    exact fun p member => by simp [(all p member).2]

/-- The parts that are updated before the first one fails. -/
def reached (f : P → Outcome ε P) (ps : List P) : List P :=
  ps.takeWhile fun p => (f p).err.isNone

/- A part that fails is itself left as it was. Then the whole is left as it was exactly if
   each part reached is. -/
theorem updateAll_unchanged (clean : ∀ p, (f p).err ≠ none → (f p).value = p) (ps : List P) :
    (updateAll f ps).value = ps ↔ ∀ p ∈ reached f ps, (f p).value = p := by
  induction ps with
  | nil => simp [reached, keep]
  | cons p rest ih =>
    cases err : (f p).err with
    | some e =>
      have same := clean p (by simp [err])
      simp [updateAll, both_of_err err, reached, err, same]
    | none =>
      rw [reached] at ih
      simp [updateAll, both_of_ok err, reached, err, ih]

theorem reached_before {before after : List P} {p : P} (ok : ∀ q ∈ before, (f q).err = none)
    (failed : (f p).err ≠ none) : reached f (before ++ p :: after) = before := by
  have stops : ¬ (f p).err.isNone = true := by rwa [Option.isNone_iff_eq_none]
  rw [reached, List.takeWhile_append_of_pos fun q member => by simp [ok q member]]
  simp [stops]

/- Where an update fails, all is well before the first part that fails. -/
theorem exists_failed {ps : List P} (failed : (updateAll f ps).err ≠ none) :
    ∃ before p after, ps = before ++ p :: after ∧ (∀ q ∈ before, (f q).err = none) ∧
      (f p).err ≠ none := by
  induction ps with
  | nil => exact absurd rfl failed
  | cons p rest ih =>
    by_cases stops : (f p).err = none
    · have later : (updateAll f rest).err ≠ none := by
        intro fine
        apply failed
        rw [updateAll, map_err, both_of_ok stops, fine]
      obtain ⟨before, q, after, same, ok, bad⟩ := ih later
      exact ⟨p :: before, q, after, by rw [same, List.cons_append],
        List.forall_mem_cons.mpr ⟨stops, ok⟩, bad⟩
    · exact ⟨[], p, rest, rfl, by simp, stops⟩

/-- The update of x goes through the parts in this order. -/
structure Follows (f : P → Outcome ε P) (parts : List P) (x : α) (o : Outcome ε α) : Prop where
  matched : o.matched = (updateAll f parts).matched
  err : o.err = (updateAll f parts).err
  unchanged : o.value = x ↔ (updateAll f parts).value = parts

theorem Follows.keep (x : α) : Follows f [] x (keep x) := ⟨rfl, rfl, iff_of_true rfl rfl⟩

theorem Follows.map {g : α → β} (injective : Function.Injective g) {parts : List P} {x : α}
    {o : Outcome ε α} (h : Follows f parts x o) : Follows f parts (g x) (o.map g) :=
  ⟨h.matched, h.err, injective.eq_iff.trans h.unchanged⟩

theorem Follows.part {seen : α → P} (injective : Function.Injective seen) {x : α}
    {o : Outcome ε α} (h : f (seen x) = o.map seen) : Follows f [seen x] x o := by
  have one : updateAll f [seen x] = o.map fun a => [seen a] := by
    cases err : o.err with
    | none => simp [updateAll, h, Outcome.both, Outcome.map, StoppingUpdate.keep, err]
    | some e => simp [updateAll, h, Outcome.both, Outcome.map, err]
  refine ⟨by rw [one]; rfl, by rw [one]; rfl, ?_⟩
  rw [one]
  simp [injective.eq_iff]

theorem Follows.both {ps qs : List P} {x : α} {y : β} {o : Outcome ε α} {next : Outcome ε β}
    (first : Follows f ps x o) (second : Follows f qs y next) :
    Follows f (ps ++ qs) (x, y) (o.both y next) := by
  have same := first.err
  cases err : o.err with
  | some e =>
    rw [err] at same
    refine ⟨?_, ?_, ?_⟩
    · simp [updateAll_append, both_of_err err, both_of_err same.symm, first.matched]
    · simp [updateAll_append, both_of_err err, both_of_err same.symm]
    · simp [updateAll_append, both_of_err err, both_of_err same.symm, first.unchanged]
  | none =>
    rw [err] at same
    refine ⟨?_, ?_, ?_⟩
    · simp [updateAll_append, both_of_ok err, both_of_ok same.symm, first.matched, second.matched]
    · simp [updateAll_append, both_of_ok err, both_of_ok same.symm, second.err]
    · have lengths : (updateAll f ps).value.length = ps.length := updateAll_length ps
      simp only [updateAll_append, both_of_ok err, both_of_ok same.symm, map_value, Prod.mk.injEq,
        first.unchanged, second.unchanged]
      exact ⟨fun h => by rw [h.1, h.2], fun h => List.append_inj h lengths⟩

theorem Follows.err_none {parts : List P} {x : α} {o : Outcome ε α} (h : Follows f parts x o) :
    o.err = none ↔ ∀ p ∈ parts, (f p).err = none :=
  h.err ▸ updateAll_err_none parts

theorem updateAll_follows {Q : Type} {g : Q → Outcome ε Q} {inner : P → List Q} (ps : List P)
    (each : ∀ p ∈ ps, Follows g (inner p) p (f p)) :
    Follows g (ps.flatMap inner) ps (updateAll f ps) := by
  induction ps with
  | nil => exact .keep []
  | cons p rest ih =>
    have injective : Function.Injective fun parts : P × List P => parts.1 :: parts.2 := by
      intro a b same
      simp only [List.cons.injEq] at same
      exact Prod.ext same.1 same.2
    have tail := ih fun q member => each q (List.mem_cons_of_mem p member)
    exact ((each p List.mem_cons_self).both tail).map injective

theorem Follows.refine {Q : Type} {g : Q → Outcome ε Q} {inner : P → List Q} {parts : List P}
    {x : α} {o : Outcome ε α} (h : Follows f parts x o)
    (each : ∀ p ∈ parts, Follows g (inner p) p (f p)) : Follows g (parts.flatMap inner) x o := by
  have inside := updateAll_follows parts each
  exact ⟨h.matched.trans inside.matched, h.err.trans inside.err, h.unchanged.trans inside.unchanged⟩

/-! Positions in any order. -/

section Positions
variable {ps : List P} {order : List Nat} {i : Nat}

theorem partsAt_set (outside : i ∉ order) (p : P) : partsAt (ps.set i p) order = partsAt ps order := by
  refine List.filterMap_congr fun j member => ?_
  have different : i ≠ j := fun same => outside (same ▸ member)
  exact List.getElem?_set_ne different

theorem partsAt_range (ps : List P) : partsAt ps (List.range ps.length) = ps := by
  induction ps with
  | nil => rfl
  | cons p rest ih =>
    rw [partsAt, List.length_cons, List.range_succ_eq_map, List.filterMap_cons, List.filterMap_map]
    exact congrArg (p :: ·) ih

theorem partsAt_perm (complete : order.Perm (List.range ps.length)) : (partsAt ps order).Perm ps := by
  have sorted : (partsAt ps order).Perm (partsAt ps (List.range ps.length)) :=
    complete.filterMap _
  rwa [partsAt_range] at sorted

theorem updateIn_elsewhere (outside : i ∉ order) : (updateIn f order ps).value[i]? = ps[i]? := by
  induction order generalizing ps with
  | nil => rfl
  | cons j rest ih =>
    have different : j ≠ i := fun same => outside (same ▸ List.mem_cons_self)
    have later : i ∉ rest := fun member => outside (List.mem_cons_of_mem j member)
    simp only [updateIn]
    split
    · exact ih later
    · split
      · exact List.getElem?_set_ne different
      · exact (ih later).trans (List.getElem?_set_ne different)

theorem updateIn_follows (f : P → Outcome ε P) (ps : List P) (distinct : order.Nodup) :
    Follows f (partsAt ps order) ps (updateIn f order ps) := by
  induction order generalizing ps with
  | nil => exact .keep ps
  | cons i rest ih =>
    obtain ⟨outside, distinct⟩ := List.nodup_cons.mp distinct
    cases here : ps[i]? with
    | none => simpa [partsAt, updateIn, here] using ih ps distinct
    | some p =>
      obtain ⟨inside, got⟩ := List.getElem?_eq_some_iff.mp here
      have listed : partsAt ps (i :: rest) = p :: partsAt ps rest := by simp [partsAt, here]
      have same (q : P) : ps.set i q = ps ↔ q = p := by
        constructor
        · intro kept
          have read := congrArg (fun l : List P => l[i]?) kept
          rw [List.getElem?_set_self inside, here] at read
          exact Option.some.inj read
        · rintro rfl
          rw [← got, List.set_getElem_self]
      rw [listed]
      cases err : (f p).err with
      | some e =>
        constructor
        · simp [updateIn, here, err, updateAll, both_of_err err]
        · simp [updateIn, here, err, updateAll, both_of_err err]
        · simp [updateIn, here, err, updateAll, both_of_err err, same]
      | none =>
        have tail : Follows f (partsAt ps rest) (ps.set i (f p).value)
            (updateIn f rest (ps.set i (f p).value)) := by
          simpa only [partsAt_set outside] using ih (ps.set i (f p).value) distinct
        constructor
        · simp [updateIn, here, err, updateAll, both_of_ok err, tail.matched]
        · simp [updateIn, here, err, updateAll, both_of_ok err, tail.err]
        · simp only [updateIn, here, err, updateAll, both_of_ok err, map_value, List.cons.injEq]
          constructor
          · intro kept
            -- position i is not touched again, so what was put there stays
            have read : (updateIn f rest (ps.set i (f p).value)).value[i]? = some (f p).value :=
              (updateIn_elsewhere outside).trans (List.getElem?_set_self inside)
            rw [kept, here] at read
            have own : (f p).value = p := (Option.some.inj read).symm
            exact ⟨own, tail.unchanged.mp (by rw [kept, (same _).mpr own])⟩
          · rintro ⟨own, others⟩
            rw [tail.unchanged.mpr others, (same _).mpr own]

theorem updateIn_length (order : List Nat) (ps : List P) :
    (updateIn f order ps).value.length = ps.length := by
  induction order generalizing ps with
  | nil => rfl
  | cons i rest ih =>
    simp only [updateIn]
    split
    · exact ih ps
    · split
      · exact List.length_set
      · exact (ih _).trans List.length_set

/- Each part is as it was, or what one update makes of it. -/
theorem updateIn_part (f : P → Outcome ε P) (ps : List P) (distinct : order.Nodup) (i : Nat) :
    (updateIn f order ps).value[i]? = ps[i]? ∨
      (updateIn f order ps).value[i]? = ps[i]?.map fun p => (f p).value := by
  induction order generalizing ps with
  | nil => exact .inl rfl
  | cons j rest ih =>
    obtain ⟨outside, distinct⟩ := List.nodup_cons.mp distinct
    by_cases same : i = j
    · subst same
      cases here : ps[i]? with
      | none => exact .inl (by simp [updateIn, here, updateIn_elsewhere outside])
      | some p =>
        have inside := (List.getElem?_eq_some_iff.mp here).1
        have put := List.getElem?_set_self (a := (f p).value) inside
        refine .inr ?_
        cases err : (f p).err with
        | some e => simp [updateIn, here, err, put]
        | none => simp [updateIn, here, err, updateIn_elsewhere outside, put]
    · simp only [updateIn]
      split
      · exact ih _ distinct
      · next p here =>
        split
        · exact .inl (List.getElem?_set_ne (Ne.symm same))
        · rw [← List.getElem?_set_ne (l := ps) (a := (f p).value) (Ne.symm same)]
          exact ih _ distinct

theorem updateIn_alike (ps : List P) {R : P → P → Prop} (refl : ∀ p, R p p) (alike : ∀ p, R (f p).value p)
    (distinct : order.Nodup) : List.Forall₂ R (updateIn f order ps).value ps := by
  refine List.forall₂_iff_get.mpr ⟨updateIn_length order ps, fun i inside inside' => ?_⟩
  have new := List.getElem?_eq_getElem inside
  have old := List.getElem?_eq_getElem inside'
  simp only [List.get_eq_getElem]
  rcases updateIn_part f ps distinct i with kept | updated
  · rw [Option.some.inj (new.symm.trans (kept.trans old))]
    exact refl _
  · rw [old] at updated
    rw [Option.some.inj (new.symm.trans updated)]
    exact alike _

theorem updateIn_all (distinct : order.Nodup)
    (ok : ∀ i ∈ order, ∀ p, ps[i]? = some p → (f p).err = none) (i : Nat) (member : i ∈ order) :
    (updateIn f order ps).value[i]? = ps[i]?.map fun p => (f p).value := by
  induction order generalizing ps with
  | nil => cases member
  | cons j rest ih =>
    obtain ⟨outside, distinct⟩ := List.nodup_cons.mp distinct
    cases here : ps[j]? with
    | none =>
      rcases List.mem_cons.mp member with rfl | later
      · simp [updateIn, here, updateIn_elsewhere outside]
      · simp only [updateIn, here]
        exact ih distinct (fun i member => ok i (List.mem_cons_of_mem j member)) later
    | some p =>
      have inside := (List.getElem?_eq_some_iff.mp here).1
      have fine := ok j List.mem_cons_self p here
      rcases List.mem_cons.mp member with rfl | later
      · simp only [updateIn, here, fine, Option.map_some]
        exact (updateIn_elsewhere outside).trans (List.getElem?_set_self inside)
      · have others (k : Nat) (member : k ∈ rest) : (ps.set j (f p).value)[k]? = ps[k]? := by
          have different : j ≠ k := fun same => outside (same ▸ member)
          exact List.getElem?_set_ne different
        simp only [updateIn, here, fine]
        rw [ih distinct ?_ later, others i later]
        intro k member q got
        rw [others k member] at got
        exact ok k (List.mem_cons_of_mem j member) q got

/- Without a failure the order makes no difference. -/
theorem updateIn_ok (complete : order.Perm (List.range ps.length))
    (ok : ∀ p ∈ ps, (f p).err = none) :
    updateIn f order ps = ⟨ps.map fun p => (f p).value, ps.any fun p => (f p).matched, none⟩ := by
  have distinct : order.Nodup := complete.nodup_iff.mpr List.nodup_range
  have follows := updateIn_follows f ps distinct
  have parts := partsAt_perm complete
  have fine : ∀ p ∈ partsAt ps order, (f p).err = none :=
    fun p member => ok p (parts.mem_iff.mp member)
  have value : (updateIn f order ps).value = ps.map fun p => (f p).value := by
    refine List.ext_getElem? fun i => ?_
    rw [List.getElem?_map]
    by_cases inside : i < ps.length
    · refine updateIn_all distinct (fun i _ p got => ok p (List.mem_of_getElem? got)) i ?_
      exact complete.mem_iff.mpr (List.mem_range.mpr inside)
    · have beyond : ps.length ≤ i := Nat.le_of_not_lt inside
      rw [List.getElem?_eq_none beyond, List.getElem?_eq_none (by rwa [updateIn_length])]
      rfl
  have matched : (updateIn f order ps).matched = ps.any fun p => (f p).matched := by
    rw [follows.matched, updateAll_ok fine]
    exact parts.any_eq
  have err : (updateIn f order ps).err = none := follows.err_none.mpr fine
  rw [← value, ← matched, ← err]

end Positions

end StoppingUpdate
