import S2SProxy.SearchAttributes
import S2SProxy.TranslationReversal

/- visitSearchAttributes with the matcher of a map against its reference: in every search attribute
   field each indexed field is put under the name that the map has for its own, also inside
   serialized events, and nothing else changes. -/
namespace SearchAttributes
open MessageTree MessageVisitor NamespaceTranslation StoppingUpdate Rekey
variable {β : Type}

mutual
def mapAttributes (h : IndexedFields → IndexedFields) (g : β → β) (slot : Option StructField) :
    Value β → Value β
  | .scalar type code => .scalar type code
  | .nil => .nil
  | .str s => .str s
  | .dataBlob blob => .dataBlob (if inFields dataBlobFieldNames slot then g blob else blob)
  | .dataBlobs blobs =>
    .dataBlobs (if inFields dataBlobFieldNames slot then blobs.map (Option.map g) else blobs)
  | .payloads fields =>
    .payloads (if inFields searchAttributeFieldNames slot then h fields else fields)
  | .searchAttributes indexedFields =>
    .searchAttributes (if inFields searchAttributeFieldNames slot then h indexedFields else indexedFields)
  | .namespaceInfo name rest => .namespaceInfo name (mapChildAttributes h g rest)
  | .history events => .history (mapChildAttributes h g events)
  | .historyEvent eventType rest => .historyEvent eventType (mapChildAttributes h g rest)
  | .message type fields => .message type (mapChildAttributes h g fields)
  | .list type elements => .list type (mapChildAttributes h g elements)
def mapChildAttributes (h : IndexedFields → IndexedFields) (g : β → β) : Children β → Children β
  | .empty => .empty
  | .cons slot v rest =>
    .cons slot (if unexported slot then v else mapAttributes h g slot v) (mapChildAttributes h g rest)
end

section Walk
variable {translateOne : β → Translated β} {g : β → β} {matcher : StringMatcher}

/-- The walk may stop nowhere, and makes of each blob what g says. -/
structure Passes (translateOne : β → Translated β) (matcher : StringMatcher) (g : β → β)
    (ps : List (Place β)) : Prop where
  ok : ∀ p ∈ ps, ((searchAttributeVisitor translateOne matcher).handle p).err = none
  blobs : ∀ b, .blob b ∈ ps → (translateOne b).result = g b

theorem Passes.left {ps qs : List (Place β)} (passes : Passes translateOne matcher g (ps ++ qs)) :
    Passes translateOne matcher g ps :=
  ⟨fun p member => passes.ok p (List.mem_append_left _ member),
    fun b member => passes.blobs b (List.mem_append_left _ member)⟩

theorem Passes.right {ps qs : List (Place β)} (passes : Passes translateOne matcher g (ps ++ qs)) :
    Passes translateOne matcher g qs :=
  ⟨fun p member => passes.ok p (List.mem_append_right _ member),
    fun b member => passes.blobs b (List.mem_append_right _ member)⟩

theorem Passes.blob {ps : List (Place β)} (passes : Passes translateOne matcher g ps) {b : β}
    (member : .blob b ∈ ps) : (translateOne b).err = none ∧ (translateOne b).result = g b := by
  have ok := passes.ok (.blob b) member
  simp only [Visitor.handle, map_err, (visitDataBlob_flags _ _).1] at ok
  exact ⟨ok, passes.blobs b member⟩

theorem attribute_follows (steady : Steady translateOne) (matcher : StringMatcher)
    (slot : Option StructField) (v : Value β) :
    Follows (searchAttributeVisitor translateOne matcher).handle
      (places searchAttributeSelection slot v) v
      (walk (searchAttributeVisitor translateOne matcher) slot v) :=
  walk_follows steady slot v

theorem attribute_walk_ok (steady : Steady translateOne) {slot : Option StructField} {v : Value β}
    (passes : Passes translateOne matcher g (places searchAttributeSelection slot v)) :
    (walk (searchAttributeVisitor translateOne matcher) slot v).err = none := by
  rw [(attribute_follows steady matcher slot v).err, updateAll_err_none]
  exact passes.ok

mutual
theorem attribute_walk_value (steady : Steady translateOne) (slot : Option StructField) :
    ∀ v : Value β, Passes translateOne matcher g (places searchAttributeSelection slot v) →
      (walk (searchAttributeVisitor translateOne matcher) slot v).value =
        mapAttributes (fun fields => (translateIndexedFields matcher fields).value) g slot v
  | .scalar _ _, _ => rfl
  | .nil, _ => rfl
  | .str s, _ => by
    cases slot <;>
      simp [walk, mapAttributes, searchAttributeVisitor, searchAttributeSelection, inFields, keep]
  | .dataBlob blob, passes => by
    by_cases listed : inFields dataBlobFieldNames slot
    · obtain ⟨ok, result⟩ := passes.blob (b := blob) (by simp [places, listed])
      simp [walk, mapAttributes, searchAttributeVisitor, listed, visitDataBlob_value steady ok, result]
    · simp [walk, mapAttributes, listed, keep]
  | .dataBlobs blobs, passes => by
    by_cases listed : inFields dataBlobFieldNames slot
    · have all := visitDataBlobs_value (g := g) blobs fun b member =>
        passes.blob (by simpa [places, listed, blobPlaces] using member)
      simp [walk, mapAttributes, searchAttributeVisitor, listed, all]
    · simp [walk, mapAttributes, listed, keep]
  | .payloads fields, _ => by
    by_cases listed : inFields searchAttributeFieldNames slot
    · simp [walk, mapAttributes, searchAttributeVisitor, searchAttributeSelection, listed]
    · simp [walk, mapAttributes, searchAttributeVisitor, searchAttributeSelection, listed, keep]
  | .searchAttributes fields, _ => by
    by_cases listed : inFields searchAttributeFieldNames slot
    · simp [walk, mapAttributes, searchAttributeVisitor, searchAttributeSelection, listed]
    · simp [walk, mapAttributes, searchAttributeVisitor, searchAttributeSelection, listed, keep]
  | .namespaceInfo name rest, passes => by
    have below := attribute_walkChildren_value steady rest passes.right
    have named : (if slot.isSome && (searchAttributeVisitor translateOne matcher).namespaceInfo then
        (searchAttributeVisitor translateOne matcher).onString name else keep name : Visited String) =
          keep name := by
      simp [searchAttributeVisitor, searchAttributeSelection]
    simp only [walk, mapAttributes, map_value, named]
    rw [both_of_ok (o := (keep name : Visited String)) rfl, below]
    rfl
  | .history events, passes => by
    have unskipped : (if slot.isSome then (searchAttributeVisitor translateOne matcher).skips else never) =
        (never : Value β → Bool) := ite_self _
    rw [walk, mapAttributes, map_value, unskipped]
    have here : Passes translateOne matcher g (childPlaces searchAttributeSelection never events) := by
      have same : places searchAttributeSelection slot (.history events) =
          childPlaces searchAttributeSelection never events := by
        rw [places, show (if slot.isSome then searchAttributeSelection.skips else never) =
          (never : Value β → Bool) from ite_self _]
      rwa [same] at passes
    exact congrArg Value.history (attribute_walkChildren_value steady events here)
  | .historyEvent eventType rest, passes => by
    rw [walk, mapAttributes, map_value, attribute_walkChildren_value steady rest passes]
  | .message type fields, passes => by
    rw [walk, mapAttributes, map_value, attribute_walkChildren_value steady fields passes]
  | .list type elements, passes => by
    rw [walk, mapAttributes, map_value, attribute_walkChildren_value steady elements passes]
theorem attribute_walkChildren_value (steady : Steady translateOne) :
    ∀ cs : Children β,
      Passes translateOne matcher g (childPlaces searchAttributeSelection never cs) →
      (walkChildren (searchAttributeVisitor translateOne matcher) never cs).value =
        mapChildAttributes (fun fields => (translateIndexedFields matcher fields).value) g cs
  | .empty, _ => rfl
  | .cons slot v rest, passes => by
    have below := attribute_walkChildren_value steady rest passes.right
    have own := passes.left
    rw [walkChildren, mapChildAttributes, map_value]
    cases hidden : unexported slot with
    | true => simp [never, both_of_ok, keep, below]
    | false =>
      cases handled : unhandled (searchAttributeSelection : Selection β) slot v with
      | some err =>
        have failed := own.ok (.unhandled err) (by simp [never, hidden, handled])
        simp [Visitor.handle] at failed
      | none =>
        have here : Passes translateOne matcher g (places searchAttributeSelection slot v) := by
          simpa [never, hidden, handled] using own
        have ok := attribute_walk_ok steady here
        have same : unhandled (searchAttributeVisitor translateOne matcher).toSelection slot v = none :=
          handled
        simp [never, same, both_of_ok ok, below, attribute_walk_value steady slot v here]
end

theorem attribute_walk_eq (steady : Steady translateOne) {slot : Option StructField} {v : Value β}
    (passes : Passes translateOne matcher g (places searchAttributeSelection slot v)) :
    walk (searchAttributeVisitor translateOne matcher) slot v =
      ⟨mapAttributes (fun fields => (translateIndexedFields matcher fields).value) g slot v,
        (places searchAttributeSelection slot v).any fun p =>
          ((searchAttributeVisitor translateOne matcher).handle p).matched, none⟩ := by
  have matched := (attribute_follows steady matcher slot v).matched
  rw [updateAll_ok passes.ok] at matched
  rw [← attribute_walk_value steady slot v passes, ← attribute_walk_ok steady passes]
  exact congrArg (Outcome.mk _ · _) matched

end Walk

def Handled (ps : List (Place β)) : Prop := ∀ err, .unhandled err ∉ ps

def placeKeys (contents : β → List String) : Place β → List String
  | .attributes fields => fields.keys
  | .blob b => contents b
  | .string _ => []
  | .unhandled _ => []

def eventKeys (events : Children Empty) : List String :=
  (childPlaces searchAttributeSelection never events).flatMap (placeKeys Empty.elim)

/-- The names of all search attributes of a message, those of its serialized events included. -/
def attributeKeys (codec : Codec β) (obj : Value β) : List String :=
  (places searchAttributeSelection none obj).flatMap
    (placeKeys fun b => eventKeys (decodedEvents codec b))

def isKey (m : NameMap) (k : String) : Bool := (m.lookup k).isSome

/-- The fields under their new names; of those that get one name the first stays. -/
def translatedFields (m : NameMap) (fields : IndexedFields) : IndexedFields :=
  (fields.entries.map fun entry => (⟨translatedName m entry.1, entry.2⟩ : Entry String Payload)).toAList

def attributeEvents (m : NameMap) (events : Children Empty) : Children Empty :=
  mapChildAttributes (translatedFields m) id events

/-- A blob is written anew exactly if one of its search attributes is in the domain of the map. -/
def attributeBlob (codec : Codec β) (m : NameMap) (b : β) : β :=
  if (eventKeys (decodedEvents codec b)).any (isKey m) then
    match codec.serializeEvents (attributeEvents m (decodedEvents codec b)) with
    | .ok renamed => renamed
    | .error _ => b
  else b

/-- The reference: every search attribute of the message under its new name. -/
def translatedAttributes (codec : Codec β) (m : NameMap) (obj : Value β) : Value β :=
  mapAttributes (translatedFields m) (attributeBlob codec m) none obj

/-- The blob is empty, or decodes to events whose search attribute fields are all handled. -/
def Readable (codec : Codec β) (b : β) : Prop :=
  codec.isEmpty b = true ∨ ∃ events, codec.deserializeEvents b = .ok events ∧
    Handled (childPlaces searchAttributeSelection never events)

theorem translatedFields_eq_rekey (m : NameMap) (fields : IndexedFields) :
    translatedFields m fields = rekey (translatedName m) fields.entries := by
  have same (entries : List (Entry String Payload)) :
      (entries.map fun entry => (⟨translatedName m entry.1, entry.2⟩ : Entry String Payload)).toAList =
        rekey (translatedName m) entries := by
    induction entries with
    | nil => rfl
    | cons entry rest ih =>
      rw [List.map_cons, AList.toAList_cons, ih]
      rfl
  exact same fields.entries

/- Fields that keep apart are renamed and nothing else. -/
theorem translatedFields_entries {m : NameMap} {fields : IndexedFields}
    (apart : ∀ k ∈ fields, ∀ k' ∈ fields, translatedName m k = translatedName m k' → k = k') :
    (translatedFields m fields).entries =
      fields.entries.map fun entry => ⟨translatedName m entry.1, entry.2⟩ := by
  have keys : newKeys (translatedName m) fields.entries = fields.keys.map (translatedName m) := by
    simp [newKeys, AList.keys, List.keys]
  rw [translatedFields_eq_rekey, rekey_entries]
  rw [keys, List.nodup_map_iff_inj_on fields.keys_nodup]
  simpa only [AList.mem_keys] using apart

theorem fields_translated (m : NameMap) :
    (fun fields => (translateIndexedFields (createStringMatcher m) fields).value) =
      translatedFields m :=
  funext fun fields => (translated_eq_rekey m fields).trans (translatedFields_eq_rekey m fields).symm

theorem fields_matched (m : NameMap) (fields : IndexedFields) :
    (translateIndexedFields (createStringMatcher m) fields).matched = fields.keys.any (isKey m) := by
  simp only [translateIndexedFields, matches_map, AList.keys, List.keys, List.any_map]
  rfl

section Reference
variable {translateOne : β → Translated β} {contents : β → List String} {g : β → β} {m : NameMap}

/-- What a blob at one of the places is translated to. -/
structure BlobTranslated (translateOne : β → Translated β) (contents : β → List String) (g : β → β)
    (m : NameMap) (b : β) : Prop where
  ok : (translateOne b).err = none
  result : (translateOne b).result = g b
  matched : (translateOne b).matched = (contents b).any (isKey m)

theorem passes_of_blobs {ps : List (Place β)} (handled : Handled ps)
    (blobs : ∀ b, .blob b ∈ ps → BlobTranslated translateOne contents g m b) :
    Passes translateOne (createStringMatcher m) g ps := by
  constructor
  · intro p member
    cases p with
    | string s => rfl
    | attributes fields => rfl
    | unhandled err => exact absurd member (handled err)
    | blob b =>
      simp only [Visitor.handle, map_err, (visitDataBlob_flags _ _).1]
      exact (blobs b member).ok
  · intro b member
    exact (blobs b member).result

theorem handle_matched {ps : List (Place β)}
    (blobs : ∀ b, .blob b ∈ ps → BlobTranslated translateOne contents g m b) :
    ∀ p ∈ ps, ((searchAttributeVisitor translateOne (createStringMatcher m)).handle p).matched =
      (placeKeys contents p).any (isKey m) := by
  intro p member
  cases p with
  | string s => rfl
  | attributes fields => exact fields_matched m fields
  | unhandled err => rfl
  | blob b =>
    simp only [Visitor.handle, map_matched, (visitDataBlob_flags _ _).2]
    exact (blobs b member).matched

theorem attribute_walk_reference (steady : Steady translateOne) {slot : Option StructField} {v : Value β}
    (handled : Handled (places searchAttributeSelection slot v))
    (blobs : ∀ b, .blob b ∈ places searchAttributeSelection slot v →
      BlobTranslated translateOne contents g m b) :
    walk (searchAttributeVisitor translateOne (createStringMatcher m)) slot v =
      ⟨mapAttributes (translatedFields m) g slot v,
        ((places searchAttributeSelection slot v).flatMap (placeKeys contents)).any (isKey m), none⟩ := by
  have whole := attribute_walk_eq steady (passes_of_blobs handled blobs)
  rw [fields_translated] at whole
  have matched : ((places searchAttributeSelection slot v).any fun p =>
        ((searchAttributeVisitor translateOne (createStringMatcher m)).handle p).matched) =
      (places searchAttributeSelection slot v).any fun p => (placeKeys contents p).any (isKey m) := by
    rw [Bool.eq_iff_iff, List.any_eq_true, List.any_eq_true]
    exact exists_congr fun p => and_congr_right fun member => by rw [handle_matched blobs p member]
  rw [whole, List.any_flatMap, matched]

theorem attribute_visit_reference (steady : Steady translateOne) (order : Order β) {v : Value β}
    (handled : Handled (places searchAttributeSelection none v))
    (blobs : ∀ b, .blob b ∈ places searchAttributeSelection none v →
      BlobTranslated translateOne contents g m b) :
    visitValues order (searchAttributeVisitor translateOne (createStringMatcher m)) v =
      ⟨mapAttributes (translatedFields m) g none v,
        ((places searchAttributeSelection none v).flatMap (placeKeys contents)).any (isKey m), none⟩ :=
  (visit_eq_walk steady order (passes_of_blobs handled blobs).ok).trans
    (attribute_walk_reference steady handled blobs)

end Reference

section Blobs
variable {codec : Codec β} {b : β} {events : Children Empty}

theorem events_walk_reference (order : Order Empty) (m : NameMap)
    (handled : Handled (childPlaces searchAttributeSelection never events)) :
    visitSearchAttributesEvents order (createStringMatcher m) (.list historyEventsType events) =
      ⟨.list historyEventsType (attributeEvents m events), (eventKeys events).any (isKey m), none⟩ :=
  attribute_visit_reference (g := id) empty_steady order handled fun b => b.elim

theorem decodedEvents_full (full : codec.isEmpty b = false)
    (decoded : codec.deserializeEvents b = .ok events) : decodedEvents codec b = events := by
  simp [decodedEvents, full, decoded]

theorem decodedEvents_none (empty : codec.isEmpty b = true) : decodedEvents codec b = .empty := by
  simp [decodedEvents, empty]

theorem blob_attributes (roundTrips : RoundTrips codec) (order : Order Empty) (m : NameMap)
    (readable : Readable codec b) :
    BlobTranslated
      (translateOneDataBlob codec (visitSearchAttributesEvents order (createStringMatcher m)))
      (fun b => eventKeys (decodedEvents codec b)) (attributeBlob codec m) m b := by
  cases full : codec.isEmpty b with
  | true =>
    have nothing := decodedEvents_none full
    constructor
    · simp [translateOneDataBlob, full]
    · simp [translateOneDataBlob, full, attributeBlob, nothing, eventKeys, childPlaces]
    · simp [translateOneDataBlob, full, nothing, eventKeys, childPlaces]
  | false =>
    obtain ⟨events, decoded, handled⟩ := readable.resolve_left (by simp [full])
    have stored := decodedEvents_full full decoded
    have read : readEvents codec b = (events, false, none) := by simp [readEvents, decoded]
    have visited := events_walk_reference order m handled
    obtain ⟨written, serialized, _⟩ := roundTrips (attributeEvents m events)
    have one := translateOne_read full read (congrArg Outcome.err visited)
    rw [visited] at one
    constructor
    · rw [one, writeEvents]
      split
      · simp [Value.children, serialized]
      · rfl
    · rw [one, writeEvents, attributeBlob, stored]
      simp only [Bool.or_false, Value.children, serialized]
      split <;> rfl
    · rw [one, (writeEvents_flags _).1, stored]

end Blobs

section Unchanged
variable {γ : Type} {d : β → γ} {h : IndexedFields → IndexedFields} {g : β → β}

mutual
theorem mapBlobs_id : ∀ v : Value β, mapBlobs id v = v
  | .scalar _ _ => rfl
  | .nil => rfl
  | .str _ => rfl
  | .dataBlob _ => rfl
  | .dataBlobs blobs => by simp [mapBlobs]
  | .payloads _ => rfl
  | .searchAttributes _ => rfl
  | .namespaceInfo name rest => congrArg (Value.namespaceInfo name) (mapChildBlobs_id rest)
  | .history events => congrArg Value.history (mapChildBlobs_id events)
  | .historyEvent eventType rest => congrArg (Value.historyEvent eventType) (mapChildBlobs_id rest)
  | .message type fields => congrArg (Value.message type) (mapChildBlobs_id fields)
  | .list type elements => congrArg (Value.list type) (mapChildBlobs_id elements)
theorem mapChildBlobs_id : ∀ cs : Children β, mapChildBlobs id cs = cs
  | .empty => rfl
  | .cons slot v rest => by rw [mapChildBlobs, mapBlobs_id v, mapChildBlobs_id rest]
end

/-- At these places the mapping changes no field and no blob's meaning. -/
structure Unchanged (d : β → γ) (h : IndexedFields → IndexedFields) (g : β → β)
    (ps : List (Place β)) : Prop where
  handled : Handled ps
  fields : ∀ fields, .attributes fields ∈ ps → h fields = fields
  blobs : ∀ b, .blob b ∈ ps → d (g b) = d b

theorem Unchanged.mono {ps qs : List (Place β)} (unchanged : Unchanged d h g ps)
    (subset : ∀ p ∈ qs, p ∈ ps) : Unchanged d h g qs :=
  ⟨fun err member => unchanged.handled err (subset _ member),
    fun fields member => unchanged.fields fields (subset _ member),
    fun b member => unchanged.blobs b (subset _ member)⟩

mutual
theorem mapBlobs_mapAttributes (slot : Option StructField) :
    ∀ v : Value β, Unchanged d h g (places searchAttributeSelection slot v) →
      mapBlobs d (mapAttributes h g slot v) = mapBlobs d v
  | .scalar _ _, _ => rfl
  | .nil, _ => rfl
  | .str _, _ => rfl
  | .dataBlob blob, unchanged => by
    simp only [mapAttributes, mapBlobs]
    split
    · next listed => rw [unchanged.blobs blob (by simp [places, listed])]
    · rfl
  | .dataBlobs bs, unchanged => by
    simp only [mapAttributes, mapBlobs]
    split
    · next listed =>
      rw [List.map_map]
      refine congrArg Value.dataBlobs (List.map_congr_left fun o member => ?_)
      cases o with
      | none => rfl
      | some b =>
        apply congrArg some
        apply unchanged.blobs b
        rw [places, if_pos listed]
        exact List.mem_map_of_mem (List.reduceOption_mem_iff.mpr member)
    · rfl
  | .payloads fields, unchanged => by
    simp only [mapAttributes, mapBlobs]
    split
    · next listed =>
      rw [unchanged.fields fields (by simp [places, searchAttributeSelection, listed])]
    · rfl
  | .searchAttributes fields, unchanged => by
    simp only [mapAttributes, mapBlobs]
    split
    · next listed =>
      rw [unchanged.fields fields (by simp [places, searchAttributeSelection, listed])]
    · rfl
  | .namespaceInfo name rest, unchanged => by
    have below := unchanged.mono fun p (member : p ∈ childPlaces searchAttributeSelection never rest) => by
      simp [places, member]
    simp only [mapAttributes, mapBlobs, mapChildBlobs_mapChildAttributes rest below]
  | .history events, unchanged => by
    have below := unchanged.mono fun p (member : p ∈ childPlaces searchAttributeSelection never events) => by
      cases slot <;> simpa [places, searchAttributeSelection] using member
    simp only [mapAttributes, mapBlobs, mapChildBlobs_mapChildAttributes events below]
  | .historyEvent _ rest, unchanged => by
    simp only [mapAttributes, mapBlobs, mapChildBlobs_mapChildAttributes rest unchanged]
  | .message _ fields, unchanged => by
    simp only [mapAttributes, mapBlobs, mapChildBlobs_mapChildAttributes fields unchanged]
  | .list _ elements, unchanged => by
    simp only [mapAttributes, mapBlobs, mapChildBlobs_mapChildAttributes elements unchanged]
theorem mapChildBlobs_mapChildAttributes :
    ∀ cs : Children β, Unchanged d h g (childPlaces searchAttributeSelection never cs) →
      mapChildBlobs d (mapChildAttributes h g cs) = mapChildBlobs d cs
  | .empty, _ => rfl
  | .cons slot v rest, unchanged => by
    have later := unchanged.mono fun p (member : p ∈ childPlaces searchAttributeSelection never rest) => by
      simp [childPlaces, member]
    simp only [mapChildAttributes, mapChildBlobs, mapChildBlobs_mapChildAttributes rest later]
    cases hidden : unexported slot with
    | true => rfl
    | false =>
      cases other : unhandled (searchAttributeSelection : Selection β) slot v with
      | some err => exact absurd (by simp [childPlaces, never, hidden, other]) (unchanged.handled err)
      | none =>
        have here := unchanged.mono fun p (member : p ∈ places searchAttributeSelection slot v) => by
          simp [childPlaces, never, hidden, other, member]
        rw [if_neg (by simp), mapBlobs_mapAttributes slot v here]
end

theorem attributeEvents_fixed {m : NameMap} {events : Children Empty}
    (handled : Handled (childPlaces searchAttributeSelection never events))
    (unmatched : (eventKeys events).any (isKey m) = false) : attributeEvents m events = events := by
  have unchanged : Unchanged (id : Empty → Empty) (translatedFields m) id
      (childPlaces searchAttributeSelection never events) := by
    constructor
    · exact handled
    · intro fields member
      rw [translatedFields_eq_rekey]
      apply rekey_fixed
      intro k inside
      have held : k ∈ eventKeys events := List.mem_flatMap.mpr ⟨_, member, AList.mem_keys.mp inside⟩
      have free : isKey m k = false := by simpa using List.any_eq_false.mp unmatched k held
      exact translatedName_fixed m k (by simpa [isKey] using free)
    · exact fun b => b.elim
  have same := mapChildBlobs_mapChildAttributes events unchanged
  rwa [mapChildBlobs_id, mapChildBlobs_id] at same

end Unchanged

/- The new blob stands for the translated events. -/
theorem attributeBlob_decodes {codec : Codec β} (roundTrips : RoundTrips codec) (m : NameMap) {b : β}
    {events : Children Empty} (full : codec.isEmpty b = false)
    (decoded : codec.deserializeEvents b = .ok events)
    (handled : Handled (childPlaces searchAttributeSelection never events)) :
    codec.deserializeEvents (attributeBlob codec m b) = .ok (attributeEvents m events) := by
  rw [attributeBlob, decodedEvents_full full decoded]
  split
  · obtain ⟨written, serialized, reads⟩ := roundTrips (attributeEvents m events)
    simp [serialized, reads]
  · next unmatched => rw [attributeEvents_fixed handled (by simpa using unmatched), decoded]

theorem visitSearchAttributes_eq {codec : Codec β} (roundTrips : RoundTrips codec) (orders : Orders β)
    (m : NameMap) {obj : Value β} (handled : Handled (places searchAttributeSelection none obj))
    (readable : ∀ b, .blob b ∈ places searchAttributeSelection none obj → Readable codec b) :
    visitSearchAttributes codec orders (createStringMatcher m) obj =
      ⟨translatedAttributes codec m obj, (attributeKeys codec obj).any (isKey m), none⟩ :=
  attribute_visit_reference (translateOneDataBlob_steady codec _) orders.messages handled
    fun b member => blob_attributes roundTrips orders.events m (readable b member)

theorem search_attribute_translation_equals_reference (codec : Codec β) (roundTrips : RoundTrips codec)
    (orders : Orders β) (m : NameMap) (obj : Value β)
    (handled : Handled (places searchAttributeSelection none obj))
    (readable : ∀ b, .blob b ∈ places searchAttributeSelection none obj → Readable codec b) :
    visitSearchAttributes codec orders (createStringMatcher m) obj =
        ⟨translatedAttributes codec m obj, (attributeKeys codec obj).any (isKey m), none⟩ ∧
      (∀ b, .blob b ∈ places searchAttributeSelection none obj → codec.isEmpty b = false →
        codec.deserializeEvents (attributeBlob codec m b) =
          .ok (attributeEvents m (decodedEvents codec b))) ∧
      ∀ fields : IndexedFields,
        (∀ k ∈ fields, ∀ k' ∈ fields, translatedName m k = translatedName m k' → k = k') →
        (translatedFields m fields).entries =
          fields.entries.map fun entry => ⟨translatedName m entry.1, entry.2⟩ := by
  refine ⟨visitSearchAttributes_eq roundTrips orders m handled readable, ?_,
    fun fields apart => translatedFields_entries apart⟩
  intro b member full
  obtain ⟨events, decoded, fields⟩ := (readable b member).resolve_left (by simp [full])
  rw [decodedEvents_full full decoded]
  exact attributeBlob_decodes roundTrips m full decoded fields

def upsertEvents (fields : IndexedFields) : Children Empty :=
  .cons none (.historyEvent .upsertWorkflowSearchAttributes
    (.cons (exportedField "SearchAttributes") (.searchAttributes fields) .empty)) .empty

def attributesMessage (fields : IndexedFields) : Value (Option (Children Empty)) :=
  .message "*sample.Request"
    (.cons (exportedField "SearchAttributes") (.payloads fields)
      (.cons (exportedField "Events") (.dataBlob (some (upsertEvents fields))) .empty))

theorem attributesMessage_places (fields : IndexedFields) :
    places searchAttributeSelection none (attributesMessage fields) =
      [.attributes fields, .blob (some (upsertEvents fields))] := rfl

theorem attributesMessage_handled (fields : IndexedFields) :
    Handled (places searchAttributeSelection none (attributesMessage fields)) := by
  intro err member
  simp [attributesMessage_places] at member

theorem attributesMessage_readable (fields : IndexedFields) (b : Option (Children Empty))
    (member : .blob b ∈ places searchAttributeSelection none (attributesMessage fields)) :
    Readable sampleCodec b := by
  have here : b = some (upsertEvents fields) := by simpa [attributesMessage_places] using member
  subst here
  refine .inr ⟨upsertEvents fields, rfl, fun err inside => ?_⟩
  have listed : childPlaces searchAttributeSelection never (upsertEvents fields) =
    [.attributes fields] := rfl
  simp [listed] at inside

def sampleAttributeMap : NameMap := (∅ : NameMap).insert "Region" "Tier"

def twoFieldsRenamed : IndexedFields :=
  ((∅ : IndexedFields).insert "Tier" 2).insert "CustomerId" 1

theorem attributes_translated_in_events :
    visitSearchAttributes sampleCodec fieldOrders (createStringMatcher sampleAttributeMap)
        (attributesMessage twoFields) = ⟨attributesMessage twoFieldsRenamed, true, none⟩ :=
  (search_attribute_translation_equals_reference sampleCodec sample_roundTrips fieldOrders
    sampleAttributeMap (attributesMessage twoFields) (attributesMessage_handled _)
    (attributesMessage_readable _)).1.trans rfl

end SearchAttributes
