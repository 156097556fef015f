import S2SProxy.SearchAttributeWalk

/- Translating the search attributes of a message with a two-way map and back. The fields keep
   apart under their new names as long as the inverse undoes the map on each of them, so nothing
   is lost on the way. -/
namespace SearchAttributes
open BiMap MessageTree MessageVisitor NamespaceTranslation StoppingUpdate Rekey
variable {β : Type}

section Twice
variable {h h' : IndexedFields → IndexedFields} {g g' : β → β}

mutual
theorem mapAttributes_mapAttributes (slot : Option StructField) : ∀ v : Value β,
    mapAttributes h' g' slot (mapAttributes h g slot v) = mapAttributes (h' ∘ h) (g' ∘ g) slot v
  | .scalar _ _ => rfl
  | .nil => rfl
  | .str _ => rfl
  | .dataBlob blob => by
    simp only [mapAttributes]
    split <;> rfl
  | .dataBlobs blobs => by
    simp only [mapAttributes]
    split <;> simp
  | .payloads fields => by
    simp only [mapAttributes]
    split <;> rfl
  | .searchAttributes fields => by
    simp only [mapAttributes]
    split <;> rfl
  | .namespaceInfo _ rest => by simp only [mapAttributes, mapChildAttributes_mapChildAttributes rest]
  | .history events => by simp only [mapAttributes, mapChildAttributes_mapChildAttributes events]
  | .historyEvent _ rest => by simp only [mapAttributes, mapChildAttributes_mapChildAttributes rest]
  | .message _ fields => by simp only [mapAttributes, mapChildAttributes_mapChildAttributes fields]
  | .list _ elements => by simp only [mapAttributes, mapChildAttributes_mapChildAttributes elements]
theorem mapChildAttributes_mapChildAttributes : ∀ cs : Children β,
    mapChildAttributes h' g' (mapChildAttributes h g cs) = mapChildAttributes (h' ∘ h) (g' ∘ g) cs
  | .empty => rfl
  | .cons slot v rest => by
    simp only [mapChildAttributes, mapChildAttributes_mapChildAttributes rest]
    cases unexported slot with
    | true => rfl
    | false => simp only [Bool.false_eq_true, ↓reduceIte, mapAttributes_mapAttributes slot v]
end

end Twice

section Places
variable {h : IndexedFields → IndexedFields} {g : β → β}

def mapPlace (h : IndexedFields → IndexedFields) (g : β → β) : Place β → Place β
  | .string s => .string s
  | .blob b => .blob (g b)
  | .attributes fields => .attributes (h fields)
  | .unhandled err => .unhandled err

theorem unhandled_mapAttributes (sel : Selection β) (slot held : Option StructField) (v : Value β) :
    unhandled sel slot (mapAttributes h g held v) = unhandled sel slot v := by
  cases v <;> rfl

/-- What a visitor has to look for to come to the same places after the mapping. -/
structure Blind (h : IndexedFields → IndexedFields) (g : β → β) (sel : Selection β) : Prop where
  fields : ∀ slot, inFields sel.attributeFields slot = true →
    inFields searchAttributeFieldNames slot = true
  skips : ∀ slot v, sel.skips (mapAttributes h g slot v) = sel.skips v

theorem blind_attributes : Blind h g (searchAttributeSelection : Selection β) :=
  ⟨fun _ listed => listed, fun _ _ => rfl⟩

variable {sel : Selection β}

mutual
theorem places_mapAttributes (blind : Blind h g sel) (slot : Option StructField) : ∀ v : Value β,
    places sel slot (mapAttributes h g slot v) = (places sel slot v).map (mapPlace h g)
  | .scalar _ _ => rfl
  | .nil => rfl
  | .str s => by
    simp only [mapAttributes, places]
    split <;> rfl
  | .dataBlob blob => by
    simp only [mapAttributes, places]
    split <;> rfl
  | .dataBlobs blobs => by
    simp only [mapAttributes, places]
    split
    · simp only [blobPlaces, List.reduceOption_map, List.map_map]
      rfl
    · rfl
  | .payloads fields => by
    simp only [mapAttributes, places]
    split
    · next listed => simp [blind.fields slot listed, mapPlace]
    · rfl
  | .searchAttributes fields => by
    simp only [mapAttributes, places]
    split
    · next listed => simp [blind.fields slot listed, mapPlace]
    · rfl
  | .namespaceInfo name rest => by
    simp only [mapAttributes, places, List.map_append,
      childPlaces_mapChildAttributes blind never (fun _ _ => rfl) rest]
    congr 1
    split <;> rfl
  | .history events => by
    have guarded : ∀ (held : Option StructField) (v : Value β),
        (if slot.isSome then sel.skips else never) (mapAttributes h g held v) =
          (if slot.isSome then sel.skips else never) v := by
      intro held v
      split
      · exact blind.skips held v
      · rfl
    exact childPlaces_mapChildAttributes blind _ guarded events
  | .historyEvent _ rest => childPlaces_mapChildAttributes blind never (fun _ _ => rfl) rest
  | .message _ fields => childPlaces_mapChildAttributes blind never (fun _ _ => rfl) fields
  | .list _ elements => childPlaces_mapChildAttributes blind never (fun _ _ => rfl) elements
theorem childPlaces_mapChildAttributes (blind : Blind h g sel) (guard : Value β → Bool)
    (guarded : ∀ slot v, guard (mapAttributes h g slot v) = guard v) : ∀ cs : Children β,
    childPlaces sel guard (mapChildAttributes h g cs) = (childPlaces sel guard cs).map (mapPlace h g)
  | .empty => rfl
  | .cons slot v rest => by
    simp only [mapChildAttributes, childPlaces, List.map_append,
      childPlaces_mapChildAttributes blind guard guarded rest]
    congr 1
    cases hidden : unexported slot with
    | true => simp
    | false =>
      simp only [Bool.false_eq_true, ↓reduceIte, Bool.or_false, guarded, unhandled_mapAttributes]
      cases guard v with
      | true => rfl
      | false =>
        cases unhandled sel slot v with
        | some err => rfl
        | none => exact places_mapAttributes blind slot v
end

theorem handled_map {ps : List (Place β)} (handled : Handled ps) : Handled (ps.map (mapPlace h g)) := by
  intro err member
  obtain ⟨p, inside, same⟩ := List.mem_map.mp member
  cases p with
  | unhandled text =>
    cases same
    exact handled _ inside
  | _ => cases same

theorem blob_of_map {ps : List (Place β)} {b : β} (member : .blob b ∈ ps.map (mapPlace h g)) :
    ∃ b₀, .blob b₀ ∈ ps ∧ b = g b₀ := by
  obtain ⟨p, inside, same⟩ := List.mem_map.mp member
  cases p with
  | blob b₀ =>
    cases same
    exact ⟨b₀, inside, rfl⟩
  | _ => cases same

end Places

section Blobs
variable {codec : Codec β} {m : NameMap} {b : β}

theorem attributeEvents_handled (m : NameMap) {events : Children Empty}
    (handled : Handled (childPlaces searchAttributeSelection never events)) :
    Handled (childPlaces searchAttributeSelection never (attributeEvents m events)) := by
  rw [attributeEvents, childPlaces_mapChildAttributes blind_attributes never (fun _ _ => rfl)]
  exact handled_map handled

theorem attributeEvents_empty {events : Children Empty} (none : attributeEvents m events = .empty) :
    events = .empty := by
  cases events with
  | empty => rfl
  | cons slot v rest => simp [attributeEvents, mapChildAttributes] at none

theorem attributeBlob_none (m : NameMap) (empty : codec.isEmpty b = true) :
    attributeBlob codec m b = b := by
  simp [attributeBlob, decodedEvents_none empty, eventKeys, childPlaces]

theorem attributeBlob_readable (roundTrips : RoundTrips codec) (m : NameMap)
    (readable : Readable codec b) : Readable codec (attributeBlob codec m b) := by
  cases full : codec.isEmpty b with
  | true => rwa [attributeBlob_none m full]
  | false =>
    obtain ⟨events, decoded, handled⟩ := readable.resolve_left (by simp [full])
    exact .inr ⟨attributeEvents m events, attributeBlob_decodes roundTrips m full decoded handled,
      attributeEvents_handled m handled⟩

end Blobs

section Back
variable {bimap : TwoWayMap String String}

theorem fields_back {fields : IndexedFields} (reversible : ∀ k ∈ fields, Reversible bimap.toStaticBiMap k) :
    translatedFields bimap.inverseContents (translatedFields bimap.contents fields) = fields := by
  have apart : (newKeys (translatedName bimap.contents) fields.entries).Nodup := by
    have keys : newKeys (translatedName bimap.contents) fields.entries =
        fields.keys.map (translatedName bimap.contents) := by
      simp [newKeys, AList.keys, List.keys]
    rw [keys]
    apply List.Nodup.map_on _ fields.keys_nodup
    intro k here k' there same
    rw [← (reversible k (AList.mem_keys.mpr here)).name_back bimap.inverts, same,
      (reversible k' (AList.mem_keys.mpr there)).name_back bimap.inverts]
  rw [translatedFields_eq_rekey, translatedFields_eq_rekey, rekey_rekey apart]
  apply rekey_fixed
  intro k inside
  exact (reversible k inside).name_back bimap.inverts

theorem fields_unchanged {contents : β → List String} {ps : List (Place β)}
    (reversible : ∀ k ∈ ps.flatMap (placeKeys contents), Reversible bimap.toStaticBiMap k)
    {fields : IndexedFields} (member : .attributes fields ∈ ps) :
    translatedFields bimap.inverseContents (translatedFields bimap.contents fields) = fields :=
  fields_back fun k inside =>
    reversible k (List.mem_flatMap.mpr ⟨_, member, AList.mem_keys.mp inside⟩)

theorem attributeEvents_back {events : Children Empty}
    (handled : Handled (childPlaces searchAttributeSelection never events))
    (reversible : ∀ k ∈ eventKeys events, Reversible bimap.toStaticBiMap k) :
    attributeEvents bimap.inverseContents (attributeEvents bimap.contents events) = events := by
  have unchanged : Unchanged (id : Empty → Empty)
      (translatedFields bimap.inverseContents ∘ translatedFields bimap.contents) (id ∘ id)
      (childPlaces searchAttributeSelection never events) :=
    ⟨handled, fun fields member => fields_unchanged reversible member, fun b => b.elim⟩
  have same := mapChildBlobs_mapChildAttributes events unchanged
  rw [mapChildBlobs_id, mapChildBlobs_id] at same
  rwa [attributeEvents, attributeEvents, mapChildAttributes_mapChildAttributes]

theorem attributeBlob_back {codec : Codec β} (lawful : Lawful codec) {b : β} (readable : Readable codec b)
    (reversible : ∀ k ∈ eventKeys (decodedEvents codec b), Reversible bimap.toStaticBiMap k) :
    codec.deserializeEvents (attributeBlob codec bimap.inverseContents (attributeBlob codec bimap.contents b)) =
      codec.deserializeEvents b := by
  cases full : codec.isEmpty b with
  | true => rw [attributeBlob_none _ full, attributeBlob_none _ full]
  | false =>
    obtain ⟨events, decoded, handled⟩ := readable.resolve_left (by simp [full])
    rw [decodedEvents_full full decoded] at reversible
    have reads := attributeBlob_decodes lawful.roundTrips bimap.contents full decoded handled
    cases full' : codec.isEmpty (attributeBlob codec bimap.contents b) with
    | true =>
      -- Only the blob of no events can have been written as no data.
      have nothing : attributeEvents bimap.contents events = .empty := by
        rw [lawful.noData _ full'] at reads
        exact (Except.ok.inj reads).symm
      rw [attributeBlob_none _ full', reads, decoded, nothing, attributeEvents_empty nothing]
    | false =>
      rw [attributeBlob_decodes lawful.roundTrips bimap.inverseContents full' reads
        (attributeEvents_handled _ handled), attributeEvents_back handled reversible, decoded]

theorem search_attribute_translation_reversible (codec : Codec β) (lawful : Lawful codec)
    (orders orders' : Orders β) (bimap : TwoWayMap String String) (obj : Value β)
    (handled : Handled (places searchAttributeSelection none obj))
    (readable : ∀ b, .blob b ∈ places searchAttributeSelection none obj → Readable codec b)
    (reversible : ∀ k ∈ attributeKeys codec obj, Reversible bimap.toStaticBiMap k) :
    let there := visitSearchAttributes codec orders (createStringMatcher bimap.contents) obj
    let back := visitSearchAttributes codec orders' (createStringMatcher bimap.inverseContents) there.value
    there.err = none ∧ back.err = none ∧
      decodedMessage codec back.value = decodedMessage codec obj := by
  have there := visitSearchAttributes_eq lawful.roundTrips orders bimap.contents handled readable
  let mapped := translatedAttributes codec bimap.contents obj
  have moved : places searchAttributeSelection none mapped =
      (places searchAttributeSelection none obj).map
        (mapPlace (translatedFields bimap.contents) (attributeBlob codec bimap.contents)) :=
    places_mapAttributes blind_attributes none obj
  have handled' : Handled (places searchAttributeSelection none mapped) := by
    rw [moved]
    exact handled_map handled
  have readable' : ∀ b, .blob b ∈ places searchAttributeSelection none mapped → Readable codec b := by
    intro b member
    rw [moved] at member
    obtain ⟨b₀, inside, rfl⟩ := blob_of_map member
    exact attributeBlob_readable lawful.roundTrips _ (readable b₀ inside)
  have back := visitSearchAttributes_eq lawful.roundTrips orders' bimap.inverseContents handled' readable'
  have unchanged : Unchanged codec.deserializeEvents
      (translatedFields bimap.inverseContents ∘ translatedFields bimap.contents)
      (attributeBlob codec bimap.inverseContents ∘ attributeBlob codec bimap.contents)
      (places searchAttributeSelection none obj) := by
    constructor
    · exact handled
    · exact fun fields member => fields_unchanged reversible member
    · intro b member
      apply attributeBlob_back lawful (readable b member)
      exact fun k inside => reversible k (List.mem_flatMap.mpr ⟨_, member, inside⟩)
  simp only [there, mapped] at back ⊢
  rw [back]
  refine ⟨trivial, rfl, ?_⟩
  rw [decodedMessage, translatedAttributes, translatedAttributes, mapAttributes_mapAttributes]
  exact mapBlobs_mapAttributes none obj unchanged

end Back

def sampleAttributeTables : StaticBiMap String String :=
  ⟨sampleAttributeMap, (∅ : NameMap).insert "Tier" "Region"⟩

theorem sampleAttributeTables_built :
    newStaticBiMap [("Region", "Tier")] = .ok sampleAttributeTables := rfl

def sampleAttributeBiMap : TwoWayMap String String :=
  ⟨sampleAttributeTables, newStaticBiMap_inverts sampleAttributeTables_built⟩

theorem attributes_there_and_back :
    decodedMessage sampleCodec
        (visitSearchAttributes sampleCodec fieldOrders (createStringMatcher sampleAttributeBiMap.inverseContents)
          (visitSearchAttributes sampleCodec fieldOrders (createStringMatcher sampleAttributeBiMap.contents)
            (attributesMessage twoFields)).value).value =
      decodedMessage sampleCodec (attributesMessage twoFields) := by
  apply (search_attribute_translation_reversible sampleCodec sample_lawful fieldOrders fieldOrders
    sampleAttributeBiMap
    (attributesMessage twoFields) (attributesMessage_handled _) (attributesMessage_readable _) _).2.2
  unfold Reversible
  decide +kernel

end SearchAttributes
