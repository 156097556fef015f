import S2SProxy.AttributeReversal
import S2SProxy.TranslationInterceptor

/- The namespace translator and the search attribute translator run over a message one after the
   other. Neither changes what the other one looks for, what it skips or whether a blob is
   written anew, so a call comes out the same in both orders, to the byte. -/
namespace TranslatorOrder
open MessageTree MessageVisitor NamespaceTranslation SearchAttributes StoppingUpdate TranslationInterceptor
variable {β : Type}

section Skips
variable {h : IndexedFields → IndexedFields} {g : β → β}

/-- The second value is the first, or the first with its search attributes mapped. -/
def Relabelled (h : IndexedFields → IndexedFields) (g : β → β) (v w : Value β) : Prop :=
  w = v ∨ ∃ slot, w = mapAttributes h g slot v

def RelabelledChildren (h : IndexedFields → IndexedFields) (g : β → β) (cs ds : Children β) : Prop :=
  ds = cs ∨ ds = mapChildAttributes h g cs

theorem Relabelled.children {v w : Value β} (moved : Relabelled h g v w) :
    RelabelledChildren h g v.children w.children := by
  rcases moved with rfl | ⟨slot, rfl⟩
  · exact .inl rfl
  · cases v <;> exact .inr rfl

theorem mapChildAttributes_get (name : String) : ∀ cs : Children β,
    Relabelled h g (cs.get name) ((mapChildAttributes h g cs).get name)
  | .empty => .inl rfl
  | .cons none v rest => mapChildAttributes_get name rest
  | .cons (some field) v rest => by
    simp only [mapChildAttributes, Children.get]
    split
    · split
      · exact .inl rfl
      · exact .inr ⟨some field, rfl⟩
    · exact mapChildAttributes_get name rest

theorem RelabelledChildren.get {cs ds : Children β} (moved : RelabelledChildren h g cs ds)
    (name : String) : Relabelled h g (cs.get name) (ds.get name) := by
  rcases moved with rfl | rfl
  · exact .inl rfl
  · exact mapChildAttributes_get name cs

theorem mapChildAttributes_all {p : Value β → Bool} (same : ∀ v w, Relabelled h g v w → p w = p v) :
    ∀ cs : Children β, (mapChildAttributes h g cs).all p = cs.all p := by
  intro cs
  induction cs using Children.all.induct with
  | case1 => rfl
  | case2 slot v rest ih =>
    simp only [mapChildAttributes, Children.all, ih]
    split
    · rfl
    · rw [same v _ (.inr ⟨slot, rfl⟩)]

theorem RelabelledChildren.all {cs ds : Children β} (moved : RelabelledChildren h g cs ds)
    {p : Value β → Bool} (same : ∀ v w, Relabelled h g v w → p w = p v) : ds.all p = cs.all p := by
  rcases moved with rfl | rfl
  · rfl
  · exact mapChildAttributes_all same cs

theorem Relabelled.text {v w : Value β} (moved : Relabelled h g v w) : w.text = v.text := by
  rcases moved with rfl | ⟨slot, rfl⟩
  · rfl
  · cases v <;> rfl

theorem Relabelled.linkNamespace {v w : Value β} (moved : Relabelled h g v w) :
    linkNamespace w = linkNamespace v := by
  have variant := moved.children.get "Variant"
  have workflowEvent := variant.children.get "WorkflowEvent"
  exact (workflowEvent.children.get "Namespace").text

theorem skippableEvent_mapChildAttributes (eventType : EventType) (rest : Children β) :
    skippableEvent eventType (mapChildAttributes h g rest) = skippableEvent eventType rest := by
  have links := (mapChildAttributes_get (h := h) (g := g) "Links" rest).children
  simp only [skippableEvent]
  rw [links.all fun v w moved => by rw [moved.linkNamespace]]

theorem Relabelled.skippableElement {v w : Value β} (moved : Relabelled h g v w) :
    skippableElement w = skippableElement v := by
  rcases moved with rfl | ⟨slot, rfl⟩
  · rfl
  · cases v with
    | historyEvent eventType rest => exact skippableEvent_mapChildAttributes eventType rest
    | _ => rfl

theorem skippable_mapAttributes (slot : Option StructField) (v : Value β) :
    isSkippableForNamespaceTranslation (mapAttributes h g slot v) =
      isSkippableForNamespaceTranslation v := by
  cases v with
  | historyEvent eventType rest => exact skippableEvent_mapChildAttributes eventType rest
  | list type elements =>
    simp only [mapAttributes, isSkippableForNamespaceTranslation]
    rw [mapChildAttributes_all fun v w moved => moved.skippableElement]
  | _ => rfl

theorem blind_namespaces : Blind h g (namespaceSelection : Selection β) := by
  constructor
  · intro slot listed
    cases slot <;> simp [namespaceSelection, inFields] at listed
  · exact skippable_mapAttributes

theorem guard_mapAttributes (held slot : Option StructField) (v : Value β) :
    (if held.isSome then isSkippableForNamespaceTranslation else never) (mapAttributes h g slot v) =
      (if held.isSome then isSkippableForNamespaceTranslation else never) v := by
  cases held with
  | none => rfl
  | some field => exact skippable_mapAttributes slot v

end Skips

section Commute
variable {h : IndexedFields → IndexedFields} {f : String → String} {g g' : β → β}

/-- The blobs at these places may be mapped in either order. -/
structure Commutes (g g' : β → β) (ps : List (Place β)) : Prop where
  handled : Handled ps
  blobs : ∀ b, .blob b ∈ ps → g (g' b) = g' (g b)

theorem Commutes.mono {ps qs : List (Place β)} (commutes : Commutes g g' ps)
    (subset : ∀ p ∈ qs, p ∈ ps) : Commutes g g' qs :=
  ⟨fun err member => commutes.handled err (subset _ member),
    fun b member => commutes.blobs b (subset _ member)⟩

mutual
theorem mapAttributes_mapNames (slot : Option StructField) : ∀ v : Value β,
    Commutes g g' (places searchAttributeSelection slot v) →
      mapAttributes h g slot (mapNames isSkippableForNamespaceTranslation f g' slot v) =
        mapNames isSkippableForNamespaceTranslation f g' slot (mapAttributes h g slot v)
  | .scalar _ _, _ => rfl
  | .nil, _ => rfl
  | .str _, _ => rfl
  | .dataBlob blob, commutes => by
    simp only [mapNames, mapAttributes]
    split
    · next listed => rw [commutes.blobs blob (by simp [places, listed])]
    · rfl
  | .dataBlobs bs, commutes => by
    simp only [mapNames, mapAttributes]
    split
    · next listed =>
      rw [List.map_map, List.map_map]
      refine congrArg Value.dataBlobs (List.map_congr_left fun o member => ?_)
      cases o with
      | none => rfl
      | some b =>
        apply congrArg some
        apply commutes.blobs b
        rw [places, if_pos listed]
        exact List.mem_map_of_mem (List.reduceOption_mem_iff.mpr member)
    · rfl
  | .payloads _, _ => rfl
  | .searchAttributes _, _ => rfl
  | .namespaceInfo name rest, commutes => by
    have below := commutes.mono fun p (member : p ∈ childPlaces searchAttributeSelection never rest) => by
      simp [places, member]
    simp only [mapNames, mapAttributes,
      mapChildAttributes_mapChildren never (fun _ _ => rfl) rest below]
  | .history events, commutes => by
    have below := commutes.mono fun p (member : p ∈ childPlaces searchAttributeSelection never events) => by
      cases slot <;> simpa [places, searchAttributeSelection] using member
    simp only [mapNames, mapAttributes]
    exact congrArg Value.history
      (mapChildAttributes_mapChildren _ (guard_mapAttributes slot) events below)
  | .historyEvent _ rest, commutes => by
    simp only [mapNames, mapAttributes,
      mapChildAttributes_mapChildren never (fun _ _ => rfl) rest commutes]
  | .message _ fields, commutes => by
    simp only [mapNames, mapAttributes,
      mapChildAttributes_mapChildren never (fun _ _ => rfl) fields commutes]
  | .list _ elements, commutes => by
    simp only [mapNames, mapAttributes,
      mapChildAttributes_mapChildren never (fun _ _ => rfl) elements commutes]
theorem mapChildAttributes_mapChildren (guard : Value β → Bool)
    (guarded : ∀ slot v, guard (mapAttributes h g slot v) = guard v) : ∀ cs : Children β,
    Commutes g g' (childPlaces searchAttributeSelection never cs) →
      mapChildAttributes h g (mapChildren isSkippableForNamespaceTranslation guard f g' cs) =
        mapChildren isSkippableForNamespaceTranslation guard f g' (mapChildAttributes h g cs)
  | .empty, _ => rfl
  | .cons slot v rest, commutes => by
    have later := commutes.mono fun p (member : p ∈ childPlaces searchAttributeSelection never rest) => by
      simp [childPlaces, member]
    simp only [mapChildAttributes, mapChildren,
      mapChildAttributes_mapChildren guard guarded rest later]
    cases hidden : unexported slot with
    | true => simp
    | false =>
      cases other : unhandled (searchAttributeSelection : Selection β) slot v with
      | some err => exact absurd (by simp [childPlaces, never, hidden, other]) (commutes.handled err)
      | none =>
        have here := commutes.mono fun p (member : p ∈ places searchAttributeSelection slot v) => by
          simp [childPlaces, never, hidden, other, member]
        simp only [Bool.false_eq_true, ↓reduceIte, Bool.or_false, guarded]
        cases guard v with
        | true => rfl
        | false =>
          simp only [Bool.false_eq_true, ↓reduceIte, mapAttributes_mapNames slot v here]
end

end Commute

section Places
variable {f : String → String} {g : β → β}

/-- A place of the search attribute visitor, and the same place after the names were mapped. -/
def Kept (g : β → β) (p q : Place β) : Prop := q = p ∨ ∃ b, p = .blob b ∧ q = .blob (g b)

theorem kept_refl (ps : List (Place β)) : List.Forall₂ (Kept g) ps ps := by
  induction ps with
  | nil => exact .nil
  | cons p rest ih => exact .cons (.inl rfl) ih

theorem kept_blobs (blobs : List (Option β)) :
    List.Forall₂ (Kept g) (blobPlaces blobs) (blobPlaces (blobs.map (Option.map g))) := by
  induction blobs with
  | nil => exact .nil
  | cons head rest ih =>
    cases head with
    | none => exact ih
    | some b => exact .cons (.inr ⟨b, rfl, rfl⟩) ih

mutual
theorem attributePlaces_mapNames (skip : Value β → Bool) (slot : Option StructField) : ∀ v : Value β,
    List.Forall₂ (Kept g) (places searchAttributeSelection slot v)
      (places searchAttributeSelection slot (mapNames skip f g slot v))
  | .scalar _ _ => .nil
  | .nil => .nil
  | .str _ => by
    cases slot <;> simp [mapNames, places, searchAttributeSelection, inFields]
  | .dataBlob blob => by
    simp only [mapNames, places]
    split
    · exact .cons (.inr ⟨blob, rfl, rfl⟩) .nil
    · exact .nil
  | .dataBlobs blobs => by
    simp only [mapNames, places]
    split
    · exact kept_blobs blobs
    · exact .nil
  | .payloads _ => kept_refl _
  | .searchAttributes _ => kept_refl _
  | .namespaceInfo _ rest => by
    simp only [mapNames, places, searchAttributeSelection, Bool.and_false, Bool.false_eq_true, ↓reduceIte,
      List.nil_append]
    exact attributeChildPlaces_mapNames skip never rest
  | .history events => by
    have unguarded (held : Option StructField) :
        (if held.isSome then (searchAttributeSelection : Selection β).skips else never) = never :=
      ite_self _
    simp only [mapNames, places, unguarded]
    exact attributeChildPlaces_mapNames skip _ events
  | .historyEvent _ rest => attributeChildPlaces_mapNames skip never rest
  | .message _ fields => attributeChildPlaces_mapNames skip never fields
  | .list _ elements => attributeChildPlaces_mapNames skip never elements
theorem attributeChildPlaces_mapNames (skip guard : Value β → Bool) : ∀ cs : Children β,
    List.Forall₂ (Kept g) (childPlaces searchAttributeSelection never cs)
      (childPlaces searchAttributeSelection never (mapChildren skip guard f g cs))
  | .empty => .nil
  | .cons slot v rest => by
    simp only [mapChildren, childPlaces]
    apply List.rel_append _ (attributeChildPlaces_mapNames skip guard rest)
    cases hidden : unexported slot with
    | true => simp
    | false =>
      cases guard v with
      | true => exact kept_refl _
      | false =>
        have same : unhandled (searchAttributeSelection : Selection β) slot (mapNames skip f g slot v) =
            unhandled searchAttributeSelection slot v := by
          cases v <;> rfl
        simp only [never, Bool.or_self, Bool.false_eq_true, ↓reduceIte, same]
        cases unhandled (searchAttributeSelection : Selection β) slot v with
        | some err => exact kept_refl _
        | none => exact attributePlaces_mapNames skip slot v
end

mutual
/- The namespace visitor comes to no blob that the search attribute visitor does not come to. -/
theorem attributePlaces_of_names {b : β} (slot : Option StructField) : ∀ v : Value β,
    Handled (places searchAttributeSelection slot v) → .blob b ∈ places namespaceSelection slot v →
      .blob b ∈ places searchAttributeSelection slot v
  | .scalar _ _, _, member => member
  | .nil, _, member => member
  | .str s, _, member => by
    simp only [places] at member
    split at member <;> simp at member
  | .dataBlob _, _, member => member
  | .dataBlobs _, _, member => member
  | .payloads _, _, member => by cases slot <;> simp [places, namespaceSelection, inFields] at member
  | .searchAttributes _, _, member => by
    cases slot <;> simp [places, namespaceSelection, inFields] at member
  | .namespaceInfo name rest, handled, member => by
    simp only [places, searchAttributeSelection, Bool.and_false, Bool.false_eq_true, ↓reduceIte,
      List.nil_append] at handled member ⊢
    rcases List.mem_append.mp member with own | below
    · split at own <;> simp at own
    · exact attributeChildPlaces_of_names never rest handled below
  | .history events, handled, member => by
    have unguarded : (if slot.isSome then (searchAttributeSelection : Selection β).skips else never) =
        never := ite_self _
    simp only [places, unguarded] at handled member ⊢
    exact attributeChildPlaces_of_names _ events handled member
  | .historyEvent _ rest, handled, member => attributeChildPlaces_of_names never rest handled member
  | .message _ fields, handled, member => attributeChildPlaces_of_names never fields handled member
  | .list _ elements, handled, member => attributeChildPlaces_of_names never elements handled member
theorem attributeChildPlaces_of_names {b : β} (guard : Value β → Bool) : ∀ cs : Children β,
    Handled (childPlaces searchAttributeSelection never cs) →
      .blob b ∈ childPlaces namespaceSelection guard cs →
      .blob b ∈ childPlaces searchAttributeSelection never cs
  | .empty, _, member => member
  | .cons slot v rest, handled, member => by
    simp only [childPlaces] at handled member ⊢
    have later : Handled (childPlaces searchAttributeSelection never rest) := fun err inside =>
      handled err (List.mem_append_right _ inside)
    rcases List.mem_append.mp member with own | below
    · apply List.mem_append_left
      cases hidden : unexported slot with
      | true => simp [hidden] at own
      | false =>
        cases other : unhandled (searchAttributeSelection : Selection β) slot v with
        | some err => exact absurd (by simp [never, hidden, other]) (handled err)
        | none =>
          have here : Handled (places searchAttributeSelection slot v) := fun err inside =>
            handled err (by simp [never, hidden, other, inside])
          have seen : .blob b ∈ places namespaceSelection slot v := by
            simp only [unhandled_namespace] at own
            split at own
            · cases own
            · exact own
          simpa [never] using attributePlaces_of_names slot v here seen
    · exact List.mem_append_right _ (attributeChildPlaces_of_names guard rest later below)
end

theorem kept_handled {ps qs : List (Place β)} (kept : List.Forall₂ (Kept g) ps qs) (handled : Handled ps) :
    Handled qs := by
  intro err member
  induction kept with
  | nil => cases member
  | cons first rest ih =>
    have others : Handled _ := fun err inside => handled err (List.mem_cons_of_mem _ inside)
    rcases List.mem_cons.mp member with rfl | later
    · rcases first with same | ⟨b, _, same⟩
      · exact handled err (same ▸ List.mem_cons_self)
      · cases same
    · exact ih others later

theorem kept_blob {ps qs : List (Place β)} (kept : List.Forall₂ (Kept g) ps qs) {b : β}
    (member : .blob b ∈ qs) : ∃ b₀, .blob b₀ ∈ ps ∧ (b = b₀ ∨ b = g b₀) := by
  induction kept with
  | nil => cases member
  | cons first rest ih =>
    rcases List.mem_cons.mp member with rfl | later
    · rcases first with same | ⟨b₀, rfl, same⟩
      · exact ⟨b, same ▸ List.mem_cons_self, .inl rfl⟩
      · exact ⟨b₀, List.mem_cons_self, .inr (Place.blob.inj same)⟩
    · obtain ⟨b₀, inside, same⟩ := ih later
      exact ⟨b₀, List.mem_cons_of_mem _ inside, same⟩

theorem kept_events {ps qs : List (Place Empty)} (kept : List.Forall₂ (Kept id) ps qs) : qs = ps := by
  induction kept with
  | nil => rfl
  | cons first rest ih =>
    rcases first with rfl | ⟨b, _⟩
    · rw [ih]
    · exact b.elim

end Places

section Rewriting
variable {ε : Type} {read : β → ε} {write : ε → β} {b : β}

/-- What b stands for is changed and written anew, if there is something to change. -/
def rewrite (read : β → ε) (write : ε → β) (flag : ε → Bool) (change : ε → ε) (b : β) : β :=
  if flag (read b) then write (change (read b)) else b

theorem rewrite_comm (reads : ∀ e, read (write e) = e) {flag flag' : ε → Bool} {change change' : ε → ε}
    (commute : change (change' (read b)) = change' (change (read b)))
    (unseen : flag (change' (read b)) = flag (read b))
    (unseen' : flag' (change (read b)) = flag' (read b)) :
    rewrite read write flag change (rewrite read write flag' change' b) =
      rewrite read write flag' change' (rewrite read write flag change b) := by
  cases first : flag (read b) <;> cases second : flag' (read b) <;>
    simp [rewrite, first, second, reads, unseen, unseen', commute]

end Rewriting

section Events
variable {m m' : NameMap} {events : Children Empty}

theorem skippable_attributeEvents (m' : NameMap) (events : Children Empty) :
    isSkippableForNamespaceTranslation (.list historyEventsType (attributeEvents m' events) : Event) =
      isSkippableForNamespaceTranslation (.list historyEventsType events : Event) :=
  skippable_mapAttributes none (.list historyEventsType events)

theorem translatedEvents_attributeEvents
    (handled : Handled (childPlaces searchAttributeSelection never events)) :
    attributeEvents m' (translatedEvents m events) = translatedEvents m (attributeEvents m' events) := by
  have again := skippable_attributeEvents m' events
  cases skipped : isSkippableForNamespaceTranslation (.list historyEventsType events : Event) with
  | true =>
    rw [translatedEvents_skipped m skipped, translatedEvents_skipped m (again.trans skipped)]
  | false =>
    rw [translatedEvents_walked m skipped, translatedEvents_walked m (again.trans skipped)]
    exact mapChildAttributes_mapChildren never (fun _ _ => rfl) events ⟨handled, fun b => b.elim⟩

theorem attributePlaces_translatedEvents (m : NameMap) (events : Children Empty) :
    childPlaces searchAttributeSelection never (translatedEvents m events) =
      childPlaces searchAttributeSelection never events := by
  cases skipped : isSkippableForNamespaceTranslation (.list historyEventsType events : Event) with
  | true => rw [translatedEvents_skipped m skipped]
  | false =>
    rw [translatedEvents_walked m skipped]
    exact kept_events (attributeChildPlaces_mapNames _ never events)

theorem namesMatched_attributeEvents (m m' : NameMap) (events : Children Empty) :
    namesMatched m (attributeEvents m' events) = namesMatched m events := by
  let list : Event := .list historyEventsType events
  have again := skippable_attributeEvents m' events
  have seen : places namespaceSelection none (mapAttributes (translatedFields m') id none list) =
      places namespaceSelection none list := by
    rw [places_mapAttributes blind_namespaces]
    refine (List.map_congr_left fun p member => ?_).trans (List.map_id _)
    rcases namespace_places none list member with ⟨s, rfl⟩ | ⟨b, rfl⟩
    · rfl
    · exact b.elim
  rw [← events_namesMatched fieldOrder, ← events_namesMatched fieldOrder, visitNamespaceEvents_eq,
    visitNamespaceEvents_eq, again]
  split
  · rfl
  · rw [(namespace_follows empty_steady _ none _).matched, (namespace_follows empty_steady _ none _).matched]
    exact congrArg (fun ps => (updateAll _ ps).matched) seen

theorem namesMatched_empty (m : NameMap) : namesMatched m .empty = false := by
  rfl

end Events

section Blobs
variable {codec : Codec β} {m m' : NameMap} {b : β}

/-- A blob is written anew exactly if one of its names is replaced. -/
def nameBlob (codec : Codec β) (m : NameMap) (b : β) : β :=
  if namesMatched m (decodedEvents codec b) then
    match codec.serializeEvents (translatedEvents m (decodedEvents codec b)) with
    | .ok renamed => renamed
    | .error _ => b
  else b

theorem blob_named (roundTrips : RoundTrips codec) (order : Order Empty) (m : NameMap)
    (decodes : Decodes codec b) :
    let one := translateOneDataBlob codec (visitNamespaceEvents order (createStringMatcher m)) b
    one.err = none ∧ one.result = nameBlob codec m b := by
  cases full : codec.isEmpty b with
  | true =>
    simp [translateOneDataBlob, nameBlob, full, decodedEvents_none full, namesMatched_empty]
  | false =>
    obtain ⟨events, decoded⟩ := decodes.resolve_left (by simp [full])
    have read : readEvents codec b = (events, false, none) := by simp [readEvents, decoded]
    have ok := events_err order (createStringMatcher m) (.list historyEventsType events)
    obtain ⟨written, serialized, _⟩ := roundTrips (translatedEvents m events)
    simp only [translateOne_read full read ok, writeEvents, events_namesMatched, events_translated,
      nameBlob, decodedEvents_full full decoded, Bool.or_false, Value.children, serialized]
    split <;> exact ⟨rfl, rfl⟩

theorem nameBlob_eq_rewrite {write : Children Empty → β}
    (serialized : ∀ events, codec.serializeEvents events = .ok (write events)) :
    nameBlob codec m b =
      rewrite (decodedEvents codec) write (namesMatched m) (translatedEvents m) b := by
  rw [nameBlob, serialized]
  rfl

theorem attributeBlob_eq_rewrite {write : Children Empty → β}
    (serialized : ∀ events, codec.serializeEvents events = .ok (write events)) :
    attributeBlob codec m' b = rewrite (decodedEvents codec) write
      (fun events => (eventKeys events).any (isKey m')) (attributeEvents m') b := by
  rw [attributeBlob, serialized]
  rfl

theorem readable_decodes (readable : Readable codec b) : Decodes codec b := by
  rcases readable with empty | ⟨events, decoded, _⟩
  · exact .inl empty
  · exact .inr ⟨events, decoded⟩

theorem readable_handled (readable : Readable codec b) :
    Handled (childPlaces searchAttributeSelection never (decodedEvents codec b)) := by
  cases full : codec.isEmpty b with
  | true =>
    rw [decodedEvents_none full]
    exact fun err member => by cases member
  | false =>
    obtain ⟨events, decoded, handled⟩ := readable.resolve_left (by simp [full])
    rwa [decodedEvents_full full decoded]

theorem decodedEvents_written (lawful : Lawful codec) {events : Children Empty} {written : β}
    (reads : codec.deserializeEvents written = .ok events) : decodedEvents codec written = events := by
  cases full : codec.isEmpty written with
  | false => exact decodedEvents_full full reads
  | true =>
    rw [lawful.noData written full] at reads
    rw [decodedEvents_none full]
    exact Except.ok.inj reads

theorem nameBlob_readable (roundTrips : RoundTrips codec) (m : NameMap) (readable : Readable codec b) :
    Readable codec (nameBlob codec m b) := by
  cases full : codec.isEmpty b with
  | true => exact .inl (by simp [nameBlob, decodedEvents_none full, namesMatched_empty, full])
  | false =>
    obtain ⟨events, decoded, handled⟩ := readable.resolve_left (by simp [full])
    have named := (blob_named roundTrips fieldOrder m (readable_decodes readable)).2
    have reads := (blob_decodes roundTrips fieldOrder m full decoded).2
    rw [named] at reads
    refine .inr ⟨translatedEvents m events, reads, ?_⟩
    rwa [attributePlaces_translatedEvents]

theorem blobs_commute (lawful : Lawful codec) (readable : Readable codec b) :
    attributeBlob codec m' (nameBlob codec m b) = nameBlob codec m (attributeBlob codec m' b) := by
  choose write serialized reads using lawful.roundTrips
  have handled := readable_handled readable
  rw [nameBlob_eq_rewrite serialized, nameBlob_eq_rewrite serialized,
    attributeBlob_eq_rewrite serialized, attributeBlob_eq_rewrite serialized]
  apply rewrite_comm
  · exact fun events => decodedEvents_written lawful (reads events)
  · exact translatedEvents_attributeEvents handled
  · simp only [eventKeys, attributePlaces_translatedEvents]
  · exact namesMatched_attributeEvents m m' _

end Blobs

/-- Both translators can read every part of the message. -/
structure Translatable (codec : Codec β) (obj : Value β) : Prop where
  handled : Handled (places searchAttributeSelection none obj)
  readable : ∀ b, .blob b ∈ places searchAttributeSelection none obj → Readable codec b

section Messages
variable {codec : Codec β} {obj : Value β}

def namesTranslated (codec : Codec β) (m : NameMap) (obj : Value β) : Value β :=
  if isSkippableForNamespaceTranslation obj then obj
  else mapNames isSkippableForNamespaceTranslation (translatedName m) (nameBlob codec m) none obj

theorem visitNamespace_value (roundTrips : RoundTrips codec) (orders : Orders β) (m : NameMap)
    (translatable : Translatable codec obj) :
    (visitNamespace codec orders (createStringMatcher m) obj).err = none ∧
      (visitNamespace codec orders (createStringMatcher m) obj).value = namesTranslated codec m obj := by
  cases skipped : isSkippableForNamespaceTranslation obj with
  | true => simp [visitNamespace_skipped orders skipped, namesTranslated, skipped, keep]
  | false =>
    rw [namesTranslated, skipped]
    refine visitNamespace_walked orders skipped fun b member => ?_
    have seen := attributePlaces_of_names none obj translatable.handled member
    exact blob_named roundTrips orders.events m (readable_decodes (translatable.readable b seen))

theorem Translatable.names (roundTrips : RoundTrips codec) (m : NameMap)
    (translatable : Translatable codec obj) : Translatable codec (namesTranslated codec m obj) := by
  rw [namesTranslated]
  split
  · exact translatable
  · have kept := attributePlaces_mapNames (f := translatedName m) (g := nameBlob codec m)
      isSkippableForNamespaceTranslation none obj
    constructor
    · exact kept_handled kept translatable.handled
    · intro b member
      obtain ⟨b₀, inside, rfl | rfl⟩ := kept_blob kept member
      · exact translatable.readable b inside
      · exact nameBlob_readable roundTrips m (translatable.readable b₀ inside)

theorem Translatable.attributes (roundTrips : RoundTrips codec) (m : NameMap)
    (translatable : Translatable codec obj) : Translatable codec (translatedAttributes codec m obj) := by
  have moved : places searchAttributeSelection none (translatedAttributes codec m obj) =
      (places searchAttributeSelection none obj).map
        (mapPlace (translatedFields m) (attributeBlob codec m)) :=
    places_mapAttributes blind_attributes none obj
  constructor
  · rw [moved]
    exact handled_map translatable.handled
  · intro b member
    rw [moved] at member
    obtain ⟨b₀, inside, rfl⟩ := blob_of_map member
    exact attributeBlob_readable roundTrips m (translatable.readable b₀ inside)

theorem messages_commute (lawful : Lawful codec) (m m' : NameMap) (translatable : Translatable codec obj) :
    translatedAttributes codec m' (namesTranslated codec m obj) =
      namesTranslated codec m (translatedAttributes codec m' obj) := by
  simp only [namesTranslated, translatedAttributes, skippable_mapAttributes]
  split
  · rfl
  · exact mapAttributes_mapNames none obj
      ⟨translatable.handled, fun b member => blobs_commute lawful (translatable.readable b member)⟩

end Messages

section Interceptor
variable {codec : Codec β} {obj : Value β}

def Translator.makes (codec : Codec β) (dir : Direction) : Translator → Value β → Value β
  | .namespaceName reqMap respMap => namesTranslated codec (pick dir reqMap respMap)
  | .searchAttribute reqMap respMap =>
    translatedAttributes codec (firstMapping (pick dir reqMap respMap))

theorem translate_makes (lawful : Lawful codec) (orders : Orders β) (dir : Direction) (tr : Translator)
    (translatable : Translatable codec obj) :
    (tr.translate codec orders dir obj).err = none ∧
      (tr.translate codec orders dir obj).value = Translator.makes codec dir tr obj ∧
      Translatable codec (Translator.makes codec dir tr obj) := by
  cases tr with
  | namespaceName reqMap respMap =>
    obtain ⟨ok, value⟩ :=
      visitNamespace_value lawful.roundTrips orders (pick dir reqMap respMap) translatable
    exact ⟨ok, value, translatable.names lawful.roundTrips _⟩
  | searchAttribute reqMap respMap =>
    have whole := visitSearchAttributes_eq lawful.roundTrips orders
      (firstMapping (pick dir reqMap respMap)) translatable.handled translatable.readable
    rw [← getNamespaceMatcher_eq] at whole
    exact ⟨congrArg Outcome.err whole, congrArg Outcome.value whole,
      translatable.attributes lawful.roundTrips _⟩

/- No translator fails on a message that can be read, however many there are. -/
theorem translateAll_makes (lawful : Lawful codec) (orders : Nat → Orders β) (dir : Direction)
    (translators : List Translator) (translatable : Translatable codec obj) :
    (translateAll codec orders dir translators obj).1 =
        translators.foldl (fun obj tr => Translator.makes codec dir tr obj) obj ∧
      ∀ stage ∈ (translateAll codec orders dir translators obj).2, stage.outcome.err = none := by
  induction translators generalizing orders obj with
  | nil => exact ⟨rfl, fun stage member => by cases member⟩
  | cons tr rest ih =>
    obtain ⟨ok, value, next⟩ := translate_makes lawful (orders 0) dir tr translatable
    obtain ⟨final, clean⟩ := ih (fun k => orders (k + 1)) next
    simp only [translateAll, value, List.foldl_cons]
    refine ⟨final, fun stage member => ?_⟩
    rcases List.mem_cons.mp member with rfl | later
    · exact ok
    · exact clean stage later

theorem translators_commute (lawful : Lawful codec) (orders orders' : Nat → Orders β) (dir : Direction)
    (disabled : Bool) (method : Method) (reqMap respMap : NameMap)
    (reqMaps respMaps : List (String × NameMap)) (translatable : Translatable codec obj) :
    let names := Translator.namespaceName reqMap respMap
    let attributes := Translator.searchAttribute reqMaps respMaps
    (translateAll codec orders dir (activeTranslators disabled [names, attributes] method) obj).1 =
      (translateAll codec orders' dir (activeTranslators disabled [attributes, names] method) obj).1 := by
  simp only [(translateAll_makes lawful _ dir _ translatable).1, activeTranslators]
  split
  · rfl
  · cases served : Translator.matchMethod method (.searchAttribute reqMaps respMaps) with
    | false => simp [List.filter, served]
    | true =>
      have always : Translator.matchMethod method (.namespaceName reqMap respMap) = true := rfl
      simp only [List.filter, served, always, List.foldl_cons, List.foldl_nil]
      exact messages_commute lawful _ _ translatable

/-- No translator fails on the request of a call or on its response. -/
def NoStageFails (codec : Codec β) (orders : Direction → Nat → Orders β) (disabled : Bool)
    (translators : List Translator) (method : Method) (handler : Value β → Value β × Option String)
    (req : Value β) : Prop :=
  let handled := handlerRequest codec (orders .request) disabled translators method req
  let answered := callerResponse codec (orders .response) disabled translators method
    (handler handled.1).1
  (∀ stage ∈ handled.2, stage.outcome.err = none) ∧ ∀ stage ∈ answered.2, stage.outcome.err = none

theorem no_stage_fails (lawful : Lawful codec) (orders : Direction → Nat → Orders β) (disabled : Bool)
    (translators : List Translator) (method : Method) {handler : Value β → Value β × Option String}
    {req : Value β} (request : Translatable codec req)
    (responses : ∀ received, Translatable codec (handler received).1) :
    NoStageFails codec orders disabled translators method handler req :=
  ⟨(translateAll_makes lawful _ .request _ request).2,
    (translateAll_makes lawful _ .response _ (responses _)).2⟩

end Interceptor

def mixedMessage (name : String) (fields : IndexedFields) : Value (Option (Children Empty)) :=
  .message "*sample.Request"
    (.cons (exportedField "Namespace") (.str name)
      (.cons (exportedField "SearchAttributes") (.payloads fields)
        (.cons (exportedField "Events") (.dataBlob (some (upsertEvents fields))) .empty)))

theorem mixedMessage_translatable (name : String) (fields : IndexedFields) :
    Translatable sampleCodec (mixedMessage name fields) :=
  ⟨attributesMessage_handled fields, attributesMessage_readable fields⟩

end TranslatorOrder
