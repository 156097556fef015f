import Mathlib

/- A map that is built anew, entry by entry, under new keys. No entry is lost exactly if the new
   keys differ, and then the order of the entries does not matter. -/
namespace Rekey
variable {κ κ' α : Type} [DecidableEq κ'] {f : κ → κ'}

abbrev Entry (κ α : Type) := Sigma fun _ : κ => α

/-- Of two entries that get one key the one that is put in later stays. -/
def rekey (f : κ → κ') (entries : List (Entry κ α)) : AList fun _ : κ' => α :=
  entries.foldr (fun entry newMap => newMap.insert (f entry.1) entry.2) ∅

def newKeys (f : κ → κ') (entries : List (Entry κ α)) : List κ' := entries.map fun entry => f entry.1

theorem mem_rekey (entries : List (Entry κ α)) (k : κ') :
    k ∈ rekey f entries ↔ k ∈ newKeys f entries := by
  induction entries with
  | nil => simp [rekey, newKeys]
  | cons entry rest ih =>
    have step : rekey f (entry :: rest) = (rekey f rest).insert (f entry.1) entry.2 := rfl
    rw [step, AList.mem_insert, ih]
    simp [newKeys]

theorem rekey_length_iff (entries : List (Entry κ α)) :
    (rekey f entries).entries.length = entries.length ↔ (newKeys f entries).Nodup := by
  have keys : (rekey f entries).keys.toFinset = (newKeys f entries).toFinset := by
    ext k
    simpa [AList.mem_keys] using mem_rekey entries k
  have counted : (rekey f entries).entries.length = (newKeys f entries).toFinset.card := by
    rw [← keys, List.toFinset_card_of_nodup (AList.keys_nodup _)]
    simp [AList.keys, List.keys]
  have total : entries.length = (newKeys f entries).length := by simp [newKeys]
  rw [counted, total]
  exact Multiset.toFinset_card_eq_card_iff_nodup

theorem rekey_lookup {entries : List (Entry κ α)} (distinct : (newKeys f entries).Nodup)
    {entry : Entry κ α} (member : entry ∈ entries) :
    (rekey f entries).lookup (f entry.1) = some entry.2 := by
  induction entries with
  | nil => cases member
  | cons first rest ih =>
    obtain ⟨fresh, later⟩ := List.nodup_cons.mp distinct
    have step : rekey f (first :: rest) = (rekey f rest).insert (f first.1) first.2 := rfl
    rw [step]
    rcases List.mem_cons.mp member with rfl | member
    · exact AList.lookup_insert _
    · have differ : f entry.1 ≠ f first.1 := by
        intro same
        exact fresh (List.mem_map.mpr ⟨entry, member, same⟩)
      rw [AList.lookup_insert_ne differ]
      exact ih later member

theorem rekey_lookup_iff {entries : List (Entry κ α)} (distinct : (newKeys f entries).Nodup) (k : κ')
    (v : α) : (rekey f entries).lookup k = some v ↔ ∃ entry ∈ entries, f entry.1 = k ∧ entry.2 = v := by
  constructor
  · intro found
    have member : k ∈ rekey f entries := AList.lookup_isSome.mp (by simp [found])
    obtain ⟨entry, here, rfl⟩ := List.mem_map.mp ((mem_rekey entries k).mp member)
    rw [rekey_lookup distinct here] at found
    exact ⟨entry, here, rfl, Option.some.inj found⟩
  · intro there
    obtain ⟨entry, here, rfl, rfl⟩ := there
    exact rekey_lookup distinct here

theorem rekey_perm {entries order : List (Entry κ α)} (distinct : (newKeys f entries).Nodup)
    (perm : order.Perm entries) : (rekey f order).entries.Perm (rekey f entries).entries := by
  have distinct' : (newKeys f order).Nodup := by
    unfold newKeys at distinct ⊢
    exact (perm.map _).nodup_iff.mpr distinct
  refine List.lookup_ext (rekey f order).nodupKeys (rekey f entries).nodupKeys fun k v => ?_
  have first := rekey_lookup_iff distinct' k v
  have second := rekey_lookup_iff distinct k v
  exact first.trans ((exists_congr fun entry => by rw [perm.mem_iff]).trans second.symm)

theorem rekey_entries {entries : List (Entry κ α)} (distinct : (newKeys f entries).Nodup) :
    (rekey f entries).entries = entries.map fun entry => ⟨f entry.1, entry.2⟩ := by
  induction entries with
  | nil => rfl
  | cons entry rest ih =>
    obtain ⟨fresh, later⟩ := List.nodup_cons.mp distinct
    have step : rekey f (entry :: rest) = (rekey f rest).insert (f entry.1) entry.2 := rfl
    have absent : f entry.1 ∉ rekey f rest := by
      rw [mem_rekey]
      exact fresh
    rw [step, AList.entries_insert_of_notMem absent, ih later, List.map_cons]

theorem rekey_rekey {κ₂ : Type} [DecidableEq κ₂] {g : κ' → κ₂} {entries : List (Entry κ α)}
    (distinct : (newKeys f entries).Nodup) :
    rekey g (rekey f entries).entries = rekey (g ∘ f) entries := by
  rw [rekey_entries distinct, rekey, rekey, List.foldr_map]
  rfl

/-- A map under the keys it has is the map. -/
theorem rekey_fixed {g : κ' → κ'} (fields : AList fun _ : κ' => α)
    (fixed : ∀ k ∈ fields, g k = k) : rekey g fields.entries = fields := by
  have stays : ∀ entry ∈ fields.entries, g entry.1 = entry.1 := fun entry member =>
    fixed entry.1 (AList.mem_keys.mpr (List.mem_keys_of_mem member))
  have keys : newKeys g fields.entries = fields.keys := List.map_congr_left stays
  apply AList.ext
  rw [rekey_entries (keys ▸ fields.keys_nodup)]
  refine (List.map_congr_left fun entry member => ?_).trans (List.map_id _)
  rw [stays entry member]
  rfl

end Rekey
