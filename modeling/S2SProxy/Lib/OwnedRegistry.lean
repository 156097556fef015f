import Mathlib

/- A map whose entries have owners. Putting an entry replaces the one under its key; removing
   may ask for the owner or not. The registry remembers every put, newest first, and whatever
   is under a key is what was put there last. -/
namespace OwnedRegistry
variable {κ ω : Type} [DecidableEq κ]

structure Registry (κ ω : Type) [DecidableEq κ] where
  entries : AList fun _ : κ => ω
  puts : List (κ × ω)
  latest : ∀ k o, entries.lookup k = some o → puts.lookup k = some o

def empty : Registry κ ω := ⟨∅, [], by simp⟩

def put (r : Registry κ ω) (k : κ) (o : ω) : Registry κ ω where
  entries := r.entries.insert k o
  puts := (k, o) :: r.puts
  latest := by
    intro k' o' found
    by_cases same : k' = k
    · subst same
      rw [AList.lookup_insert] at found
      simpa using found
    · rw [AList.lookup_insert_ne same] at found
      rw [List.lookup_cons, beq_eq_false_iff_ne.mpr same]
      exact r.latest k' o' found

def remove (r : Registry κ ω) (k : κ) : Registry κ ω where
  entries := r.entries.erase k
  puts := r.puts
  latest := by
    intro k' o' found
    by_cases same : k' = k
    · rw [same, AList.lookup_erase] at found
      cases found
    · rw [AList.lookup_erase_ne same] at found
      exact r.latest k' o' found

def removeOwn [DecidableEq ω] (r : Registry κ ω) (k : κ) (o : ω) : Registry κ ω :=
  if r.entries.lookup k = some o then remove r k else r

variable {r : Registry κ ω} {k k' : κ} {o o' : ω}

theorem lookup_put_same : (put r k o).entries.lookup k = some o := AList.lookup_insert _

theorem lookup_put_ne (differ : k' ≠ k) : (put r k o).entries.lookup k' = r.entries.lookup k' :=
  AList.lookup_insert_ne differ

theorem latest_put_same : (put r k o).puts.lookup k = some o := by simp [put]

theorem latest_put_ne (differ : k' ≠ k) : (put r k o).puts.lookup k' = r.puts.lookup k' := by
  rw [put, List.lookup_cons, beq_eq_false_iff_ne.mpr differ]

@[simp] theorem remove_puts : (remove r k).puts = r.puts := rfl

theorem lookup_remove_ne (differ : k' ≠ k) : (remove r k).entries.lookup k' = r.entries.lookup k' :=
  AList.lookup_erase_ne differ

theorem lookup_of_remove (found : (remove r k).entries.lookup k' = some o') :
    k' ≠ k ∧ r.entries.lookup k' = some o' := by
  have differ : k' ≠ k := by
    rintro rfl
    rw [remove, AList.lookup_erase] at found
    cases found
  exact ⟨differ, (lookup_remove_ne differ).symm.trans found⟩

/- Removing takes away nothing but the entry under the key. -/
theorem kept_or_removed (k : κ) (found : r.entries.lookup k' = some o') :
    (remove r k).entries.lookup k' = some o' ∨ k' = k := by
  by_cases same : k' = k
  · exact .inr same
  · exact .inl ((lookup_remove_ne same).trans found)

section Own
variable [DecidableEq ω]

@[simp] theorem removeOwn_puts : (removeOwn r k o).puts = r.puts := by
  unfold removeOwn
  split <;> rfl

theorem kept_or_own (k : κ) (o : ω) (found : r.entries.lookup k' = some o') :
    (removeOwn r k o).entries.lookup k' = some o' ∨ k' = k ∧ o' = o := by
  unfold removeOwn
  split
  · next own =>
    rcases kept_or_removed k found with kept | rfl
    · exact .inl kept
    · exact .inr ⟨rfl, Option.some.inj (found.symm.trans own)⟩
  · exact .inl found

theorem lookup_of_removeOwn (found : (removeOwn r k o).entries.lookup k' = some o') :
    (k', o') ≠ (k, o) ∧ r.entries.lookup k' = some o' := by
  unfold removeOwn at found
  split at found
  · obtain ⟨differ, before⟩ := lookup_of_remove found
    exact ⟨fun same => differ (congrArg Prod.fst same), before⟩
  · next other =>
    refine ⟨?_, found⟩
    rintro ⟨⟩
    exact other found

end Own

end OwnedRegistry
