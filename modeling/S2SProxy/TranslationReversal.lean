import S2SProxy.BiMapLaws
import S2SProxy.SkipStability

/- Translating a message with a two-way map and back. The inverse undoes the map on its keys;
   a name that is a value of the map without being a key passes the first translation as it
   is and is changed by the second. -/
namespace NamespaceTranslation
open BiMap MessageTree MessageVisitor StoppingUpdate
variable {β γ : Type}

mutual
def mapBlobs (d : β → γ) : Value β → Value γ
  | .scalar type code => .scalar type code
  | .nil => .nil
  | .str s => .str s
  | .dataBlob blob => .dataBlob (d blob)
  | .dataBlobs blobs => .dataBlobs (blobs.map (Option.map d))
  | .payloads fields => .payloads fields
  | .searchAttributes indexedFields => .searchAttributes indexedFields
  | .namespaceInfo name rest => .namespaceInfo name (mapChildBlobs d rest)
  | .history events => .history (mapChildBlobs d events)
  | .historyEvent eventType rest => .historyEvent eventType (mapChildBlobs d rest)
  | .message type fields => .message type (mapChildBlobs d fields)
  | .list type elements => .list type (mapChildBlobs d elements)
def mapChildBlobs (d : β → γ) : Children β → Children γ
  | .empty => .empty
  | .cons slot v rest => .cons slot (mapBlobs d v) (mapChildBlobs d rest)
end

/-- The message with each blob replaced by what it decodes to. -/
def decodedMessage (codec : Codec β) : Value β → Value (Except String (Children Empty)) :=
  mapBlobs codec.deserializeEvents

section Undone
variable {d : β → γ} {h : String → String} {k : β → β}

mutual
theorem mapBlobs_mapNames (slot : Option StructField) :
    ∀ v : Value β, (∀ s, .string s ∈ places namespaceSelection slot v → h s = s) →
      (∀ b, .blob b ∈ places namespaceSelection slot v → d (k b) = d b) →
      mapBlobs d (mapNames isSkippableForNamespaceTranslation h k slot v) = mapBlobs d v
  | .scalar _ _, _, _ => rfl
  | .nil, _, _ => rfl
  | .str s, names, _ => by
    simp only [mapNames, mapBlobs]
    split
    · next named => rw [names s (by simp [places, namespaceSelection, named])]
    · rfl
  | .dataBlob blob, _, blobs => by
    simp only [mapNames, mapBlobs]
    split
    · next listed => rw [blobs blob (by simp [places, listed])]
    · rfl
  | .dataBlobs bs, _, blobs => by
    simp only [mapNames, mapBlobs]
    split
    · next listed =>
      rw [List.map_map]
      refine congrArg Value.dataBlobs (List.map_congr_left fun o member => ?_)
      cases o with
      | none => rfl
      | some b =>
        refine congrArg some (blobs b ?_)
        rw [places, if_pos listed]
        exact List.mem_map_of_mem (List.reduceOption_mem_iff.mpr member)
    · rfl
  | .payloads _, _, _ => rfl
  | .searchAttributes _, _, _ => rfl
  | .namespaceInfo name rest, names, blobs => by
    have below := mapChildBlobs_mapChildren never rest
      (fun s member => names s (by simp [places, member]))
      (fun b member => blobs b (by simp [places, member]))
    simp only [mapNames, mapBlobs, below]
    cases slot with
    | none => rfl
    | some field => simp [names name (by simp [places, namespaceSelection])]
  | .history events, names, blobs => by
    simp only [mapNames, mapBlobs]
    exact congrArg Value.history (mapChildBlobs_mapChildren _ events names blobs)
  | .historyEvent _ rest, names, blobs => by
    simp only [mapNames, mapBlobs, mapChildBlobs_mapChildren never rest names blobs]
  | .message _ fields, names, blobs => by
    simp only [mapNames, mapBlobs, mapChildBlobs_mapChildren never fields names blobs]
  | .list _ elements, names, blobs => by
    simp only [mapNames, mapBlobs, mapChildBlobs_mapChildren never elements names blobs]
theorem mapChildBlobs_mapChildren (guard : Value β → Bool) :
    ∀ cs : Children β, (∀ s, .string s ∈ childPlaces namespaceSelection guard cs → h s = s) →
      (∀ b, .blob b ∈ childPlaces namespaceSelection guard cs → d (k b) = d b) →
      mapChildBlobs d (mapChildren isSkippableForNamespaceTranslation guard h k cs) =
        mapChildBlobs d cs
  | .empty, _, _ => rfl
  | .cons slot v rest, names, blobs => by
    have below := mapChildBlobs_mapChildren guard rest
      (fun s member => names s (by simp [childPlaces, member]))
      (fun b member => blobs b (by simp [childPlaces, member]))
    simp only [mapChildren, mapChildBlobs, below]
    split
    · rfl
    · next walked =>
      rw [mapBlobs_mapNames slot v
        (fun s member => names s (by simp [childPlaces, walked, member]))
        (fun b member => blobs b (by simp [childPlaces, walked, member]))]
end

end Undone

theorem events_fixed {h : String → String} (e : Event)
    (names : ∀ s, .string s ∈ places namespaceSelection none e → h s = s) :
    mapNames isSkippableForNamespaceTranslation h id none e = e := by
  have value := walk_value (g := id) empty_steady (fun n => (h n, true)) none e fun b => b.elim
  refine value.symm.trans ((namespace_follows empty_steady _ none e).unchanged.mpr ?_)
  have ok : ∀ p ∈ places namespaceSelection none e,
      ((namespaceVisitor Empty.elim fun n => (h n, true)).handle p).err = none := by
    intro p member
    rcases namespace_places none e member with ⟨s, rfl⟩ | ⟨b, rfl⟩
    · rfl
    · exact b.elim
  rw [updateAll_ok ok]
  refine (List.map_congr_left fun p member => ?_).trans (List.map_id _)
  rcases namespace_places none e member with ⟨s, rfl⟩ | ⟨b, rfl⟩
  · exact congrArg Place.string (names s member)
  · exact b.elim

theorem events_unmatched {order : Order Empty} {matcher : StringMatcher} {e : Event}
    (unmatched : (visitNamespaceEvents order matcher e).matched = false) :
    (visitNamespaceEvents order matcher e).value = e := by
  rw [visitNamespaceEvents_eq] at unmatched ⊢
  split
  · rfl
  · next walked =>
    rw [if_neg walked] at unmatched
    exact event_walk_unmatched unmatched

def translatedEvents (m : NameMap) (events : Children Empty) : Children Empty :=
  if isSkippableForNamespaceTranslation (.list historyEventsType events : Event) then events
  else mapChildren isSkippableForNamespaceTranslation never (translatedName m) id events

theorem translatedEvents_skipped (m : NameMap) {events : Children Empty}
    (skipped : isSkippableForNamespaceTranslation (.list historyEventsType events : Event) = true) :
    translatedEvents m events = events :=
  if_pos skipped

theorem translatedEvents_walked (m : NameMap) {events : Children Empty}
    (walked : isSkippableForNamespaceTranslation (.list historyEventsType events : Event) = false) :
    translatedEvents m events =
      mapChildren isSkippableForNamespaceTranslation never (translatedName m) id events :=
  if_neg (by simp [walked])

theorem events_translated (order : Order Empty) (m : NameMap) (events : Children Empty) :
    (visitNamespaceEvents order (createStringMatcher m) (.list historyEventsType events)).value =
      .list historyEventsType (translatedEvents m events) := by
  cases skipped : isSkippableForNamespaceTranslation (.list historyEventsType events : Event) with
  | true => rw [visitNamespaceEvents_eq, if_pos skipped, translatedEvents_skipped m skipped, keep]
  | false =>
    rw [events_value order _ skipped, translatedEvents_walked m skipped, mapNames]
    simp only [matchName_map]

def namesMatched (m : NameMap) (events : Children Empty) : Bool :=
  (visible (eventOccurrences
    (if isSkippableForNamespaceTranslation (.list historyEventsType events) then .skipped
      else .visited) events)).any fun n => (m.lookup n).isSome

theorem events_namesMatched (order : Order Empty) (m : NameMap) (events : Children Empty) :
    (visitNamespaceEvents order (createStringMatcher m) (.list historyEventsType events)).matched =
      namesMatched m events := by
  simp only [events_matched, namesMatched, matches_map]

section Back
variable {codec : Codec β} {m m' : NameMap}

/- A blob that decodes is translated to one that decodes to its events translated. -/
theorem blob_decodes (roundTrips : RoundTrips codec) (order : Order Empty) (m : NameMap) {b : β}
    {events : Children Empty} (full : codec.isEmpty b = false)
    (decoded : codec.deserializeEvents b = .ok events) :
    let one := translateOneDataBlob codec (visitNamespaceEvents order (createStringMatcher m)) b
    one.err = none ∧ codec.deserializeEvents one.result = .ok (translatedEvents m events) := by
  have read : readEvents codec b = (events, false, none) := by simp [readEvents, decoded]
  have ok := events_err order (createStringMatcher m) (.list historyEventsType events)
  obtain ⟨written, serialized, reads⟩ := roundTrips (translatedEvents m events)
  have value := events_translated order m events
  simp only [translateOne_read full read ok, writeEvents, Bool.or_false]
  split
  · simp [value, Value.children, serialized, reads]
  · next unmatched =>
    have same := events_unmatched (by simpa using unmatched)
    rw [value, Value.list.injEq] at same
    exact ⟨rfl, by rw [decoded, same.2]⟩

theorem events_back (safe : ∀ n, n ≠ "" → translatedName m n ≠ "") {events : Children Empty}
    (names : ∀ s, .string s ∈ childPlaces namespaceSelection never events →
      isSkippableForNamespaceTranslation (.list historyEventsType events : Event) = false →
      translatedName m' (translatedName m s) = s) :
    translatedEvents m' (translatedEvents m events) = events := by
  cases skipped : isSkippableForNamespaceTranslation (.list historyEventsType events : Event) with
  | true => rw [translatedEvents_skipped m skipped, translatedEvents_skipped m' skipped]
  | false =>
    let list : Event := .list historyEventsType events
    have again : isSkippableForNamespaceTranslation
        (mapNames isSkippableForNamespaceTranslation (translatedName m) id none list) = false :=
      walked_again safe skipped
    have twice : mapNames isSkippableForNamespaceTranslation (translatedName m') id none
          (mapNames isSkippableForNamespaceTranslation (translatedName m) id none list) =
        mapNames isSkippableForNamespaceTranslation (translatedName m' ∘ translatedName m) id none
          list :=
      mapNames_mapNames safe none list
    have fixed : mapNames isSkippableForNamespaceTranslation (translatedName m' ∘ translatedName m)
        id none list = list :=
      events_fixed list fun s member => names s member skipped
    simp only [list, mapNames] at again
    rw [translatedEvents_walked m skipped, translatedEvents_walked m' again]
    rw [fixed] at twice
    simp only [list, mapNames, Value.list.injEq, true_and] at twice
    exact twice

/-- The serializers' laws: what is written reads back, and no data are no events. -/
structure Lawful (codec : Codec β) : Prop where
  roundTrips : RoundTrips codec
  noData : ∀ b, codec.isEmpty b = true → codec.deserializeEvents b = .ok .empty

theorem translatedEvents_empty {events : Children Empty} (none : translatedEvents m events = .empty) :
    events = .empty := by
  cases events with
  | empty => rfl
  | cons slot v rest =>
    cases skipped : isSkippableForNamespaceTranslation
        (.list historyEventsType (.cons slot v rest) : Event) with
    | true => exact absurd ((translatedEvents_skipped m skipped).symm.trans none) (by simp)
    | false => exact absurd ((translatedEvents_walked m skipped).symm.trans none) (by simp [mapChildren])

theorem string_visible {b : β} {events : Children Empty} (full : codec.isEmpty b = false)
    (decoded : codec.deserializeEvents b = .ok events) {s : String}
    (member : .string s ∈ childPlaces namespaceSelection never events)
    (walked : isSkippableForNamespaceTranslation (.list historyEventsType events : Event) = false) :
    s ∈ visible (blobOccurrences codec (decodedEvents codec) .visited b) := by
  rw [blobOccurrences_decoded full decoded, walked, if_neg (by simp), eventOccurrences,
    childVisible_places fun _ b => b.elim]
  exact List.mem_flatMap.mpr ⟨.string s, member, List.mem_singleton.mpr rfl⟩

theorem blob_back (lawful : Lawful codec) (order order' : Order Empty)
    (safe : ∀ n, n ≠ "" → translatedName m n ≠ "") {b : β} (decodes : Decodes codec b)
    (names : ∀ n ∈ visible (blobOccurrences codec (decodedEvents codec) .visited b),
      translatedName m' (translatedName m n) = n) :
    let there := translateOneDataBlob codec (visitNamespaceEvents order (createStringMatcher m)) b
    let back := translateOneDataBlob codec (visitNamespaceEvents order' (createStringMatcher m'))
      there.result
    there.err = none ∧ back.err = none ∧
      codec.deserializeEvents back.result = codec.deserializeEvents b := by
  cases full : codec.isEmpty b with
  | true => simp [translateOneDataBlob, full]
  | false =>
    obtain ⟨events, decoded⟩ := decodes.resolve_left (by simp [full])
    obtain ⟨ok, reads⟩ := blob_decodes lawful.roundTrips order m full decoded
    simp only at reads ok ⊢
    refine ⟨ok, ?_⟩
    cases full' : codec.isEmpty
        (translateOneDataBlob codec (visitNamespaceEvents order (createStringMatcher m)) b).result with
    | true =>
      have nothing : translatedEvents m events = .empty := by
        rw [lawful.noData _ full'] at reads
        exact (Except.ok.inj reads).symm
      rw [translateOneDataBlob, if_pos full', reads, decoded, nothing, translatedEvents_empty nothing]
      exact ⟨rfl, rfl⟩
    | false =>
      obtain ⟨ok', reads'⟩ := blob_decodes lawful.roundTrips order' m' full' reads
      refine ⟨ok', reads'.trans ?_⟩
      rw [decoded, events_back safe fun s member walked =>
        names s (string_visible full decoded member walked)]

end Back

/-- The name is a key of the map, or not one of its values. -/
def Reversible (b : StaticBiMap String String) (n : String) : Prop :=
  (b.contents.lookup n).isSome ∨ b.inverseContents.lookup n = none

theorem Reversible.name_back {b : StaticBiMap String String} (inverts : b.Inverts) {n : String}
    (h : Reversible b n) : translatedName b.inverseContents (translatedName b.contents n) = n := by
  rw [translatedName, translatedName]
  cases found : b.contents.lookup n with
  | some v =>
    rw [Option.getD_some, (inverts n v).mp found]
    rfl
  | none =>
    have outside := h.resolve_left (by simp [found])
    rw [Option.getD_none, outside]
    rfl

section Message
variable {codec : Codec β} {m m' : NameMap} {obj : Value β}

theorem visitNamespace_skipped (orders : Orders β)
    (skipped : isSkippableForNamespaceTranslation obj = true) :
    visitNamespace codec orders (createStringMatcher m) obj = keep obj := by
  rw [visitNamespace, visitNamespaceOver, if_pos skipped]

theorem visitNamespace_walked (orders : Orders β) {g : β → β}
    (walked : isSkippableForNamespaceTranslation obj = false)
    (agree : ∀ b, .blob b ∈ places namespaceSelection none obj →
      let one := translateOneDataBlob codec (visitNamespaceEvents orders.events (createStringMatcher m)) b
      one.err = none ∧ one.result = g b) :
    (visitNamespace codec orders (createStringMatcher m) obj).err = none ∧
      (visitNamespace codec orders (createStringMatcher m) obj).value =
        mapNames isSkippableForNamespaceTranslation (translatedName m) g none obj := by
  have steady := translateOneDataBlob_steady codec
    (visitNamespaceEvents orders.events (createStringMatcher m))
  have value := walk_value steady (createStringMatcher m) none obj agree
  simp only [matchName_map] at value
  rw [visitNamespace, visitNamespaceOver, if_neg (by simp [walked]),
    namespace_visit_eq_walk steady _ orders.messages fun b member => (agree b member).1]
  exact ⟨(namespace_walk_ok steady _).mpr fun b member => (agree b member).1, value⟩

theorem places_back
    (names : ∀ n ∈ visible (occurrences (blobOccurrences codec (decodedEvents codec)) .visited none obj),
      translatedName m' (translatedName m n) = n) :
    (∀ s, .string s ∈ places namespaceSelection none obj →
        translatedName m' (translatedName m s) = s) ∧
      ∀ b, .blob b ∈ places namespaceSelection none obj →
        ∀ n ∈ visible (blobOccurrences codec (decodedEvents codec) .visited b),
          translatedName m' (translatedName m n) = n := by
  rw [visible_places (blobOccurrences_hidden codec (decodedEvents codec))] at names
  exact ⟨fun s member => names s (List.mem_flatMap.mpr ⟨_, member, List.mem_singleton.mpr rfl⟩),
    fun b member n inside => names n (List.mem_flatMap.mpr ⟨_, member, inside⟩)⟩

theorem message_back (lawful : Lawful codec) (orders orders' : Orders β)
    (safe : ∀ n, n ≠ "" → translatedName m n ≠ "")
    (decodes : ∀ b, .blob b ∈ places namespaceSelection none obj → Decodes codec b)
    (names : ∀ n ∈ visible (messageOccurrences codec (decodedEvents codec) obj),
      translatedName m' (translatedName m n) = n) :
    let there := visitNamespace codec orders (createStringMatcher m) obj
    let back := visitNamespace codec orders' (createStringMatcher m') there.value
    there.err = none ∧ back.err = none ∧
      decodedMessage codec back.value = decodedMessage codec obj := by
  unfold messageOccurrences at names
  cases skipped : isSkippableForNamespaceTranslation obj with
  | true =>
    simp only [visitNamespace_skipped orders skipped, visitNamespace_skipped orders' skipped, keep,
      and_self]
  | false =>
    rw [skipped, if_neg (by simp)] at names
    obtain ⟨strings, blobs⟩ := places_back names
    let one := translateOneDataBlob codec (visitNamespaceEvents orders.events (createStringMatcher m))
    let one' := translateOneDataBlob codec
      (visitNamespaceEvents orders'.events (createStringMatcher m'))
    have blobBack (b : β) (member : .blob b ∈ places namespaceSelection none obj) :=
      blob_back lawful orders.events orders'.events safe (decodes b member) (blobs b member)
    have there := visitNamespace_walked orders skipped fun b member => ⟨(blobBack b member).1, rfl⟩
    let mapped := mapNames isSkippableForNamespaceTranslation (translatedName m)
      (fun b => (one b).result) none obj
    have again : isSkippableForNamespaceTranslation mapped = false := walked_again safe skipped
    have ok' : ∀ b, .blob b ∈ places namespaceSelection none mapped → (one' b).err = none := by
      intro b member
      obtain ⟨b₀, inside, rfl⟩ := mapNames_blobs safe none obj member
      exact (blobBack b₀ inside).2.1
    have back := visitNamespace_walked orders' again fun b member => ⟨ok' b member, rfl⟩
    simp only [mapped, mapNames_mapNames safe] at back
    refine ⟨there.1, ?_⟩
    rw [there.2, decodedMessage, back.2]
    exact ⟨back.1, mapBlobs_mapNames none obj strings fun b member => (blobBack b member).2.2⟩

end Message

theorem namespace_translation_reversible (codec : Codec β) (lawful : Lawful codec)
    (pairs : List (String × String)) :
    ∀ b, newStaticBiMap pairs = .ok b →
      (∀ n n', Reversible b n → Reversible b n' →
        translatedName b.contents n = translatedName b.contents n' → n = n') ∧
      ∀ (orders orders' : Orders β) (obj : Value β), (∀ n, b.contents.lookup n ≠ some "") →
        (∀ blob, .blob blob ∈ places namespaceSelection none obj → Decodes codec blob) →
        (∀ o ∈ messageOccurrences codec (decodedEvents codec) obj, o.sight = .visited →
          Reversible b o.name) →
        let there := visitNamespace codec orders (createStringMatcher b.contents) obj
        let back := visitNamespace codec orders' (createStringMatcher b.inverseContents) there.value
        there.err = none ∧ back.err = none ∧
          decodedMessage codec back.value = decodedMessage codec obj := by
  intro b ok
  have inverts := newStaticBiMap_inverts ok
  refine ⟨fun n n' h h' same => ?_, fun orders orders' obj named decodes reversible => ?_⟩
  · rw [← h.name_back inverts, same, h'.name_back inverts]
  · have safe : ∀ n, n ≠ "" → translatedName b.contents n ≠ "" := by
      intro n nonempty
      rw [translatedName]
      cases found : b.contents.lookup n with
      | none => exact nonempty
      | some v => exact fun empty => named n (found.trans (congrArg some empty))
    refine message_back lawful orders orders' safe decodes fun n seen => ?_
    obtain ⟨o, member, visited, rfl⟩ := mem_visible.mp seen
    exact (reversible o member visited).name_back inverts

theorem sample_lawful : Lawful sampleCodec := ⟨sample_roundTrips, by simp [sampleCodec]⟩

def sampleTables : StaticBiMap String String := ⟨sampleMap, (∅ : NameMap).insert "remote" "local"⟩

theorem sampleTables_built : newStaticBiMap [("local", "remote")] = .ok sampleTables := rfl

def sampleBiMap : TwoWayMap String String := ⟨sampleTables, newStaticBiMap_inverts sampleTables_built⟩

theorem namespace_translation_reversible_sample :
    decodedMessage sampleCodec
        (visitNamespace sampleCodec fieldOrders (createStringMatcher sampleTables.inverseContents)
          (visitNamespace sampleCodec fieldOrders (createStringMatcher sampleTables.contents)
            (sampleMessage "local" (some (startedEvents "local")) "other")).value).value =
      decodedMessage sampleCodec (sampleMessage "local" (some (startedEvents "local")) "other") := by
  obtain ⟨_, back⟩ := namespace_translation_reversible sampleCodec sample_lawful
    [("local", "remote")] sampleTables sampleTables_built
  refine (back fieldOrders fieldOrders _ ?_ ?_ ?_).2.2
  · intro n
    change ((∅ : NameMap).insert "local" "remote").lookup n ≠ some ""
    by_cases key : n = "local"
    · rw [key, AList.lookup_insert]
      simp
    · rw [AList.lookup_insert_ne key, AList.lookup_empty]
      simp
  · intro b member
    have listed : places namespaceSelection none
        (sampleMessage "local" (some (startedEvents "local")) "other") =
      [.string "local", .blob (some (startedEvents "local")), .string "other"] := rfl
    rw [listed] at member
    simp only [List.mem_cons, Place.blob.injEq, reduceCtorEq, List.not_mem_nil, or_false,
      false_or] at member
    exact .inr ⟨startedEvents "local", member ▸ rfl⟩
  · unfold Reversible
    decide +kernel

/- A name that the inverse translates without the map having produced it. -/
theorem value_comes_back_as_key :
    newStaticBiMap [("local", "remote")] = .ok sampleTables ∧
      translatedName sampleTables.contents "local" = translatedName sampleTables.contents "remote" ∧
      (visitNamespace sampleCodec fieldOrders (createStringMatcher sampleTables.inverseContents)
          (visitNamespace sampleCodec fieldOrders (createStringMatcher sampleTables.contents)
            (sampleMessage "remote" (some (startedEvents "other")) "other")).value).value =
        sampleMessage "local" (some (startedEvents "other")) "other" := by
  refine ⟨sampleTables_built, by decide +kernel, rfl⟩

end NamespaceTranslation
