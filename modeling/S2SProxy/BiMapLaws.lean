import Mathlib

/- NewStaticBiMap as its loop runs: two tables, each checked before it is written, with the first one
   already written when the second is checked. The keys and values are compared by equality, as the
   strings of the configuration are. -/
namespace BiMap
variable {K V : Type} [DecidableEq K] [DecidableEq V]

/-- The item found in the table it is looked up in; none is the zero value for a missing one. -/
structure ConflictError (T : Type) where
  isKey : Bool
  newItem : T
  existingItem : Option T

/-- An object of staticBiMap with the contents of the one that its inverse field points to, whose
    own inverse field points back. -/
structure StaticBiMap (K V : Type) [DecidableEq K] [DecidableEq V] where
  contents : AList fun _ : K => V
  inverseContents : AList fun _ : V => K

def StaticBiMap.empty : StaticBiMap K V := ⟨∅, ∅⟩

/-- One turn of the loop. -/
def StaticBiMap.add (m : StaticBiMap K V) (key : K) (val : V) :
    Except (ConflictError K ⊕ ConflictError V) (StaticBiMap K V) :=
  match m.contents.lookup key with
  | some value => .error (.inl ⟨true, key, m.inverseContents.lookup value⟩)
  | none =>
    let forward := m.contents.insert key val
    match m.inverseContents.lookup val with
    | some existing => .error (.inr ⟨true, val, forward.lookup existing⟩)
    | none => .ok ⟨forward, m.inverseContents.insert val key⟩

def newStaticBiMap (pairs : List (K × V)) :
    Except (ConflictError K ⊕ ConflictError V) (StaticBiMap K V) :=
  pairs.foldlM (fun m pair => m.add pair.1 pair.2) .empty

-- The methods; a nil pointer is none.
def getExists : Option (StaticBiMap K V) → K → Option V
  | none, _ => none
  | some m, key => m.contents.lookup key

def inverse : Option (StaticBiMap K V) → Option (StaticBiMap V K)
  | none => none
  | some m => some ⟨m.inverseContents, m.contents⟩

def len : Option (StaticBiMap K V) → Nat
  | none => 0
  | some m => m.contents.keys.length

section Tables
variable {α β : Type} [DecidableEq α] {table : AList fun _ : α => β} {pairs : List (α × β)} {a : α}

structure Lists (table : AList fun _ : α => β) (pairs : List (α × β)) : Prop where
  found : ∀ a b, table.lookup a = some b ↔ (a, b) ∈ pairs
  distinct : (pairs.map Prod.fst).Nodup
  length : table.keys.length = pairs.length

theorem empty_lists : Lists (∅ : AList fun _ : α => β) [] := by
  constructor <;> simp

theorem Lists.absent_iff (lists : Lists table pairs) :
    table.lookup a = none ↔ a ∉ pairs.map Prod.fst := by
  rw [Option.eq_none_iff_forall_ne_some]
  simp [lists.found]

theorem Lists.insert (lists : Lists table pairs) (absent : table.lookup a = none) (b : β) :
    Lists (table.insert a b) (pairs ++ [(a, b)]) := by
  constructor
  · intro x y
    by_cases here : x = a
    · subst here
      have none : ∀ y, (x, y) ∉ pairs := by simpa using lists.absent_iff.mp absent
      simp [none, eq_comm]
    · simp [AList.lookup_insert_ne here, lists.found, here]
  · rw [List.map_append, List.map_singleton, List.nodup_append_comm, List.singleton_append,
      List.nodup_cons]
    exact ⟨lists.absent_iff.mp absent, lists.distinct⟩
  · have missing : a ∉ table.keys := AList.lookup_eq_none.mp absent
    rw [AList.keys_insert, List.erase_of_not_mem missing, List.length_cons, lists.length,
      List.length_append, List.length_singleton]

end Tables

structure Holds (m : StaticBiMap K V) (pairs : List (K × V)) : Prop where
  forward : Lists m.contents pairs
  backward : Lists m.inverseContents (pairs.map Prod.swap)

omit [DecidableEq K] [DecidableEq V] in
theorem swapped_keys (pairs : List (K × V)) :
    (pairs.map Prod.swap).map Prod.fst = pairs.map Prod.snd := by
  rw [List.map_map]
  rfl

theorem Holds.listed_back {m : StaticBiMap K V} {pairs : List (K × V)} (holds : Holds m pairs)
    (k : K) (v : V) : m.inverseContents.lookup v = some k ↔ (k, v) ∈ pairs := by
  rw [holds.backward.found]
  exact List.mem_map_of_injective (a := (k, v)) Prod.swap_injective

section Loop
variable {m t : StaticBiMap K V} {pairs : List (K × V)} {key : K} {val : V}

theorem add_ok_iff :
    m.add key val = .ok t ↔ m.contents.lookup key = none ∧ m.inverseContents.lookup val = none ∧
      t = ⟨m.contents.insert key val, m.inverseContents.insert val key⟩ := by
  unfold StaticBiMap.add
  cases m.contents.lookup key with
  | some value => simp
  | none => cases m.inverseContents.lookup val <;> simp [eq_comm]

theorem add_holds (holds : Holds m pairs) (ok : m.add key val = .ok t) :
    Holds t (pairs ++ [(key, val)]) := by
  obtain ⟨newKey, newValue, rfl⟩ := add_ok_iff.mp ok
  constructor
  · exact holds.forward.insert newKey val
  · rw [List.map_append]
    exact holds.backward.insert newValue key

theorem add_succeeds_iff (holds : Holds m pairs) :
    (∃ t, m.add key val = .ok t) ↔ key ∉ pairs.map Prod.fst ∧ val ∉ pairs.map Prod.snd := by
  rw [← holds.forward.absent_iff, ← swapped_keys, ← holds.backward.absent_iff]
  simp [add_ok_iff]

theorem newStaticBiMap_append (pairs : List (K × V)) (pair : K × V) :
    newStaticBiMap (pairs ++ [pair]) = (newStaticBiMap pairs).bind fun m => m.add pair.1 pair.2 := by
  simp only [newStaticBiMap, List.foldlM_append, List.foldlM_cons, List.foldlM_nil, bind_pure]
  rfl

theorem newStaticBiMap_concat :
    newStaticBiMap (pairs ++ [(key, val)]) = .ok t ↔
      ∃ m, newStaticBiMap pairs = .ok m ∧ m.add key val = .ok t := by
  rw [newStaticBiMap_append]
  cases newStaticBiMap pairs <;> simp [Except.bind]

/- The loop invariant, by the pairs consumed. -/
theorem newStaticBiMap_holds (ok : newStaticBiMap pairs = .ok m) : Holds m pairs := by
  induction pairs using List.reverseRecOn generalizing m with
  | nil =>
    cases ok
    exact ⟨empty_lists, empty_lists⟩
  | append_singleton earlier pair ih =>
    obtain ⟨before, consumed, last⟩ := newStaticBiMap_concat.mp ok
    exact add_holds (ih consumed) last

theorem newStaticBiMap_succeeds (keys : (pairs.map Prod.fst).Nodup)
    (values : (pairs.map Prod.snd).Nodup) : ∃ m, newStaticBiMap pairs = .ok m := by
  induction pairs using List.reverseRecOn with
  | nil => exact ⟨.empty, rfl⟩
  | append_singleton earlier pair ih =>
    rw [List.map_append, List.map_singleton, List.nodup_append_comm, List.singleton_append,
      List.nodup_cons] at keys values
    obtain ⟨before, consumed⟩ := ih keys.2 values.2
    obtain ⟨t, last⟩ := (add_succeeds_iff (newStaticBiMap_holds consumed)).mpr ⟨keys.1, values.1⟩
    exact ⟨t, newStaticBiMap_concat.mpr ⟨before, consumed, last⟩⟩

end Loop

theorem static_bimap_is_bijection (pairs : List (K × V)) :
    ((∃ m, newStaticBiMap pairs = .ok m) ↔
      (pairs.map Prod.fst).Nodup ∧ (pairs.map Prod.snd).Nodup) ∧
    ∀ m, newStaticBiMap pairs = .ok m →
      (∀ k v, getExists (some m) k = some v ↔ (k, v) ∈ pairs) ∧
      (∀ k v, getExists (inverse (some m)) v = some k ↔ (k, v) ∈ pairs) ∧
      (∀ k v, getExists (some m) k = some v ↔ getExists (inverse (some m)) v = some k) ∧
      inverse (inverse (some m)) = some m ∧ len (inverse (some m)) = len (some m) := by
  constructor
  · constructor
    · intro succeeds
      obtain ⟨m, ok⟩ := succeeds
      have holds := newStaticBiMap_holds ok
      exact ⟨holds.forward.distinct, swapped_keys pairs ▸ holds.backward.distinct⟩
    · intro distinct
      exact newStaticBiMap_succeeds distinct.1 distinct.2
  · intro m ok
    have holds := newStaticBiMap_holds ok
    have there : ∀ k v, getExists (some m) k = some v ↔ (k, v) ∈ pairs := holds.forward.found
    have back : ∀ k v, getExists (inverse (some m)) v = some k ↔ (k, v) ∈ pairs :=
      holds.listed_back
    refine ⟨there, back, fun k v => ?_, rfl, ?_⟩
    · rw [there, back]
    · exact holds.backward.length.trans ((List.length_map _).trans holds.forward.length.symm)

def StaticBiMap.Inverts (m : StaticBiMap K V) : Prop :=
  ∀ k v, m.contents.lookup k = some v ↔ m.inverseContents.lookup v = some k

theorem newStaticBiMap_inverts {pairs : List (K × V)} {m : StaticBiMap K V}
    (ok : newStaticBiMap pairs = .ok m) : m.Inverts := by
  intro k v
  have holds := newStaticBiMap_holds ok
  rw [holds.forward.found, holds.listed_back]

/-- A map as the loop leaves it. -/
structure TwoWayMap (K V : Type) [DecidableEq K] [DecidableEq V] extends StaticBiMap K V where
  inverts : toStaticBiMap.Inverts

theorem empty_inverts : (StaticBiMap.empty : StaticBiMap K V).Inverts := by
  intro k v
  simp [StaticBiMap.empty]

/-- What a refusal should say: that an item is there twice, and what it was found as. -/
def Real (pairs : List (K × V)) : ConflictError K ⊕ ConflictError V → Prop
  | .inl e => e.existingItem = some e.newItem ∧ 2 ≤ (pairs.map Prod.fst).count e.newItem
  | .inr e => e.existingItem = some e.newItem ∧ 2 ≤ (pairs.map Prod.snd).count e.newItem

theorem Real.append {earlier : List (K × V)} {conflict : ConflictError K ⊕ ConflictError V}
    (real : Real earlier conflict) (pair : K × V) : Real (earlier ++ [pair]) conflict := by
  cases conflict with
  | inl e => exact ⟨real.1, real.2.trans (by simp [List.count_append])⟩
  | inr e => exact ⟨real.1, real.2.trans (by simp [List.count_append])⟩

theorem twice_of_mem {α : Type} [DecidableEq α] {items : List α} {item : α} (earlier : item ∈ items) :
    2 ≤ (items ++ [item]).count item := by
  have once := List.count_pos_iff.mpr earlier
  rw [List.count_append, List.count_singleton_self]
  omega

theorem add_conflict {m : StaticBiMap K V} {pairs : List (K × V)} (holds : Holds m pairs) {pair : K × V}
    {conflict : ConflictError K ⊕ ConflictError V} (refused : m.add pair.1 pair.2 = .error conflict) :
    Real (pairs ++ [pair]) conflict := by
  obtain ⟨key, val⟩ := pair
  unfold StaticBiMap.add at refused
  cases forward : m.contents.lookup key with
  | some value =>
    have member := (holds.forward.found key value).mp forward
    simp only [forward, Except.error.injEq] at refused
    subst refused
    refine ⟨(holds.listed_back key value).mpr member, ?_⟩
    rw [List.map_append]
    exact twice_of_mem (List.mem_map.mpr ⟨_, member, rfl⟩)
  | none =>
    cases backward : m.inverseContents.lookup val with
    | none => simp [forward, backward] at refused
    | some existing =>
      have member := (holds.listed_back existing val).mp backward
      have there : m.contents.lookup existing = some val :=
        (holds.forward.found existing val).mpr member
      have other : existing ≠ key := by
        intro same
        subst same
        cases forward.symm.trans there
      simp only [forward, backward, Except.error.injEq] at refused
      subst refused
      refine ⟨(AList.lookup_insert_ne other).trans there, ?_⟩
      rw [List.map_append]
      exact twice_of_mem (List.mem_map.mpr ⟨_, member, rfl⟩)

end BiMap
