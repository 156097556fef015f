import S2SProxy.Lib.Rekey
import S2SProxy.NamespaceTranslation

/- The translation of indexed fields. A map is met in an order that differs from one iteration to
   the next; here the order is that of its entries. -/
namespace SearchAttributes
open MessageTree MessageVisitor NamespaceTranslation Rekey

/-- A partial mapping that takes no two names to one. -/
def InjectiveMap (m : NameMap) : Prop :=
  ∀ k k' n, m.lookup k = some n → m.lookup k' = some n → k = k'

/-- In every order, each field arrives under its new name and nothing is lost; the result is one
    and the same map, and is reported as changed if a name is mapped. -/
def LosesNothing (m : NameMap) (fields : IndexedFields) : Prop :=
  ∀ order : IndexedFields, order.entries.Perm fields.entries →
    let result := translateIndexedFields (createStringMatcher m) order
    result.value.entries.length = fields.entries.length ∧
    (∀ k v, fields.lookup k = some v → result.value.lookup (translatedName m k) = some v) ∧
    result.value.entries.Perm (translateIndexedFields (createStringMatcher m) fields).value.entries ∧
    (result.matched = true ↔ ∃ k ∈ fields, m.lookup k ≠ none)

/-- No field is renamed to that of another one, which is not renamed itself. -/
def NotTaken (m : NameMap) (fields : IndexedFields) : Prop :=
  ∀ k ∈ fields, ∀ k' ∈ fields, m.lookup k = some k' → m.lookup k' ≠ none

theorem translated_eq_rekey (m : NameMap) (fields : IndexedFields) :
    (translateIndexedFields (createStringMatcher m) fields).value =
      rekey (translatedName m) fields.entries := by
  simp [translateIndexedFields, rekey]

theorem mem_fields_iff (fields : IndexedFields) (k : String) :
    k ∈ fields ↔ ∃ entry ∈ fields.entries, entry.1 = k := by
  rw [AList.mem_keys]
  simp [AList.keys, List.keys]

theorem translated_matched_iff (m : NameMap) (fields : IndexedFields) :
    (translateIndexedFields (createStringMatcher m) fields).matched = true ↔
      ∃ k ∈ fields, m.lookup k ≠ none := by
  have flag : (translateIndexedFields (createStringMatcher m) fields).matched = true ↔
      ∃ entry ∈ fields.entries, (m.lookup entry.1).isSome = true := by
    simp [translateIndexedFields]
  rw [flag]
  constructor
  · intro mapped
    obtain ⟨entry, member, some⟩ := mapped
    exact ⟨entry.1, (mem_fields_iff fields _).mpr ⟨entry, member, rfl⟩,
      Option.isSome_iff_ne_none.mp some⟩
  · intro mapped
    obtain ⟨k, member, some⟩ := mapped
    obtain ⟨entry, here, rfl⟩ := (mem_fields_iff fields k).mp member
    exact ⟨entry, here, Option.isSome_iff_ne_none.mpr some⟩

/-- Two names become one only if one of them is given up for the other, which is kept. -/
theorem translatedName_collides {m : NameMap} (injective : InjectiveMap m) {k k' : String}
    (differ : k ≠ k') (same : translatedName m k = translatedName m k') :
    (m.lookup k = some k' ∧ m.lookup k' = none) ∨ (m.lookup k' = some k ∧ m.lookup k = none) := by
  unfold translatedName at same
  cases first : m.lookup k with
  | none =>
    cases second : m.lookup k' with
    | none => exact absurd (by simpa [first, second] using same) differ
    | some n =>
      have target : n = k := by simpa [first, second] using same.symm
      exact .inr ⟨by rw [target], rfl⟩
  | some n =>
    cases second : m.lookup k' with
    | none =>
      have target : n = k' := by simpa [first, second] using same
      exact .inl ⟨by rw [target], rfl⟩
    | some n' =>
      have target : n = n' := by simpa [first, second] using same
      exact absurd (injective k k' n first (target ▸ second)) differ

theorem notTaken_iff_injOn {m : NameMap} (injective : InjectiveMap m) (fields : IndexedFields) :
    NotTaken m fields ↔ ∀ k ∈ fields, ∀ k' ∈ fields, translatedName m k = translatedName m k' → k = k' := by
  constructor
  · intro free k here k' there same
    by_contra differ
    rcases translatedName_collides injective differ same with ⟨taken, kept⟩ | ⟨taken, kept⟩
    · exact free k here k' there taken kept
    · exact free k' there k here taken kept
  · intro distinct k here k' there taken kept
    have same : translatedName m k = translatedName m k' := by
      simp [translatedName, taken, kept]
    rw [distinct k here k' there same, kept] at taken
    cases taken

theorem newKeys_nodup_iff {m : NameMap} (injective : InjectiveMap m) (fields : IndexedFields) :
    (newKeys (translatedName m) fields.entries).Nodup ↔ NotTaken m fields := by
  have keys : newKeys (translatedName m) fields.entries = fields.keys.map (translatedName m) := by
    simp [newKeys, AList.keys, List.keys]
  rw [keys, notTaken_iff_injOn injective, List.nodup_map_iff_inj_on fields.keys_nodup]
  simp only [AList.mem_keys]

/-- An injective mapping keeps the fields apart exactly if no field takes the name of one that is
    not renamed. -/
theorem translation_loses_nothing_iff (m : NameMap) (injective : InjectiveMap m)
    (fields : IndexedFields) : LosesNothing m fields ↔ NotTaken m fields := by
  rw [← newKeys_nodup_iff injective]
  constructor
  · intro loses
    have count := (loses fields (List.Perm.refl _)).1
    rw [translated_eq_rekey] at count
    exact (rekey_length_iff fields.entries).mp count
  · intro distinct order perm
    have kept := rekey_perm distinct perm
    simp only [translated_eq_rekey]
    refine ⟨?_, ?_, kept, ?_⟩
    · exact kept.length_eq.trans ((rekey_length_iff fields.entries).mpr distinct)
    · intro k v found
      have member : (⟨k, v⟩ : Entry String Payload) ∈ order.entries :=
        perm.mem_iff.mpr (AList.mem_lookup_iff.mp found)
      have distinct' : (newKeys (translatedName m) order.entries).Nodup :=
        (perm.map _).nodup_iff.mpr distinct
      exact rekey_lookup distinct' member
    · rw [translated_matched_iff]
      have sameFields : ∀ k, k ∈ order ↔ k ∈ fields := fun k => by
        simp only [mem_fields_iff, perm.mem_iff]
      simp only [sameFields]

def twoFields : IndexedFields :=
  ((∅ : IndexedFields).insert "Region" 2).insert "CustomerId" 1

def twoFieldsReversed : IndexedFields :=
  ((∅ : IndexedFields).insert "CustomerId" 1).insert "Region" 2

def swapping : NameMap :=
  ((∅ : NameMap).insert "Region" "CustomerId").insert "CustomerId" "Region"

def takingRegion : NameMap := (∅ : NameMap).insert "CustomerId" "Region"

theorem lookup_swapping (k : String) : swapping.lookup k =
    if k = "CustomerId" then some "Region" else if k = "Region" then some "CustomerId" else none := by
  unfold swapping
  by_cases first : k = "CustomerId"
  · subst first
    rfl
  · rw [AList.lookup_insert_ne first]
    by_cases second : k = "Region"
    · subst second
      rfl
    · rw [AList.lookup_insert_ne second]
      simp [first, second]

theorem lookup_takingRegion (k : String) : takingRegion.lookup k =
    if k = "CustomerId" then some "Region" else none := by
  unfold takingRegion
  by_cases first : k = "CustomerId"
  · subst first
    rfl
  · rw [AList.lookup_insert_ne first]
    simp [first]

theorem swapping_injective : InjectiveMap swapping := by
  intro k k' n first second
  rw [lookup_swapping] at first second
  grind

theorem takingRegion_injective : InjectiveMap takingRegion := by
  intro k k' n first second
  rw [lookup_takingRegion] at first second
  grind

theorem swapped_fields_kept :
    InjectiveMap swapping ∧ NotTaken swapping twoFields ∧ LosesNothing swapping twoFields := by
  have free : NotTaken swapping twoFields := by
    intro k here k' there taken
    rw [lookup_swapping] at taken ⊢
    grind
  exact ⟨swapping_injective, free,
    (translation_loses_nothing_iff swapping swapping_injective twoFields).mpr free⟩

/-- One field is left of two; which one depends on the order. -/
theorem taken_field_lost :
    InjectiveMap takingRegion ∧ twoFieldsReversed.entries.Perm twoFields.entries ∧
    (translateIndexedFields (createStringMatcher takingRegion) twoFields).value.entries =
      [⟨"Region", 1⟩] ∧
    (translateIndexedFields (createStringMatcher takingRegion) twoFieldsReversed).value.entries =
      [⟨"Region", 2⟩] ∧
    ¬ LosesNothing takingRegion twoFields := by
  have first : (translateIndexedFields (createStringMatcher takingRegion) twoFields).value.entries =
      [⟨"Region", 1⟩] := by decide
  refine ⟨takingRegion_injective, List.Perm.swap _ _ _, first, by decide, ?_⟩
  intro loses
  have count := (loses twoFields (List.Perm.refl _)).1
  rw [first] at count
  exact absurd count (by decide)

end SearchAttributes
