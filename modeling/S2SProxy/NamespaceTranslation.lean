import S2SProxy.NameMapping

/- visitNamespace with the matcher of a map against its reference: each namespace name that
   is a key of the map is replaced once by its value, also inside serialized events, and
   nothing else changes. -/
namespace NamespaceTranslation
open MessageTree MessageVisitor StoppingUpdate
variable {β : Type}

def translatedName (m : NameMap) (n : String) : String := (m.lookup n).getD n

def renameEvents (m : NameMap) (events : Children Empty) : Children Empty :=
  mapChildren never never (translatedName m) id events

def decodedEvents (codec : Codec β) (b : β) : Children Empty :=
  if codec.isEmpty b then .empty
  else
    match codec.deserializeEvents b with
    | .ok events => events
    | .error _ => .empty

/-- A blob is written anew exactly if one of its names is in the domain of the map. -/
def renameBlob (codec : Codec β) (m : NameMap) (b : β) : β :=
  if (heldNames (eventOccurrences .visited (decodedEvents codec b))).any
      fun n => (m.lookup n).isSome then
    match codec.serializeEvents (renameEvents m (decodedEvents codec b)) with
    | .ok renamed => renamed
    | .error _ => b
  else b

/-- The reference: every namespace name of the message replaced. -/
def translated (codec : Codec β) (m : NameMap) (obj : Value β) : Value β :=
  mapNames never (translatedName m) (renameBlob codec m) none obj

/-- Every list of events can be written and reads back. -/
def RoundTrips (codec : Codec β) : Prop :=
  ∀ events, ∃ b, codec.serializeEvents events = .ok b ∧ codec.deserializeEvents b = .ok events

/-- The blob decodes on the first attempt. -/
def Decodes (codec : Codec β) (b : β) : Prop :=
  codec.isEmpty b = true ∨ ∃ events, codec.deserializeEvents b = .ok events

@[simp] theorem matchName_map (m : NameMap) (n : String) :
    (matchName (createStringMatcher m) n).value = translatedName m n := by
  unfold matchName createStringMatcher translatedName
  cases m.lookup n <;> rfl

@[simp] theorem matches_map (m : NameMap) (n : String) :
    (createStringMatcher m n).2 = (m.lookup n).isSome := by
  unfold createStringMatcher
  cases m.lookup n <;> rfl

theorem translatedName_fixed (m : NameMap) (n : String) (outside : m.lookup n = none) :
    translatedName m n = n := by
  simp [translatedName, outside]

theorem eventOccurrences_sight (s : Sight) (events : Children Empty) :
    ∀ o ∈ eventOccurrences s events, SightOf s o :=
  childOccurrences_sight (fun _ b => b.elim) s never events

section Blobs
variable {codec : Codec β} {b : β} {events : Children Empty}

theorem blobOccurrences_decoded (full : codec.isEmpty b = false)
    (decoded : codec.deserializeEvents b = .ok events) (s : Sight) :
    blobOccurrences codec (decodedEvents codec) s b =
      eventOccurrences
        (if isSkippableForNamespaceTranslation (.list historyEventsType events) then .skipped else s)
        events := by
  simp [blobOccurrences, blobSight, passedUnread, readEvents, decodedEvents, full, decoded]

theorem blobOccurrences_sight (codec : Codec β) (s : Sight) (b : β) :
    ∀ o ∈ blobOccurrences codec (decodedEvents codec) s b, SightOf s o := by
  intro o member
  have sight := eventOccurrences_sight _ _ o member
  unfold blobSight at sight
  split at sight
  · next unread =>
    -- A blob that is passed unread does not decode, so no events are counted for it.
    have nothing : decodedEvents codec b = .empty := by
      unfold passedUnread at unread
      split at unread
      · exact absurd unread (by simp)
      · next err => simp [decodedEvents, err]
    rw [blobOccurrences, nothing] at member
    cases member
  · split at sight
    · exact .inr (sight.elim .inl id)
    · exact sight

theorem events_renamed (order : Order Empty) (m : NameMap) (walked : isSkippableForNamespaceTranslation
      (.list historyEventsType events : Event) = false)
    (plain : ∀ o ∈ eventOccurrences .visited events, o.sight ≠ .skipped) :
    (visitNamespaceEvents order (createStringMatcher m) (.list historyEventsType events)).value =
      .list historyEventsType (renameEvents m events) := by
  rw [events_value order _ walked, mapNames]
  simp only [matchName_map]
  exact congrArg (Value.list historyEventsType)
    (mapChildren_plain (translatedName_fixed m) (fun _ b => b.elim) (fun _ b => b.elim) .visited
      never events plain)

theorem blob_translated (roundTrips : RoundTrips codec) (order : Order Empty) (m : NameMap)
    (decodes : Decodes codec b)
    (plain : ∀ o ∈ blobOccurrences codec (decodedEvents codec) .visited b, o.sight ≠ .skipped) :
    let one := translateOneDataBlob codec (visitNamespaceEvents order (createStringMatcher m)) b
    one.err = none ∧ one.result = renameBlob codec m b ∧
      one.matched = (visible (blobOccurrences codec (decodedEvents codec) .visited b)).any
        fun n => (createStringMatcher m n).2 := by
  cases full : codec.isEmpty b with
  | true =>
    have none : decodedEvents codec b = .empty := by simp [decodedEvents, full]
    simp [translateOneDataBlob, full, renameBlob, blobOccurrences, none, eventOccurrences,
      childOccurrences, heldNames]
  | false =>
    obtain ⟨events, decoded⟩ := decodes.resolve_left (by simp [full])
    have read : readEvents codec b = (events, false, none) := by simp [readEvents, decoded]
    have stored : decodedEvents codec b = events := by simp [decodedEvents, full, decoded]
    have ok := events_err order (createStringMatcher m) (.list historyEventsType events)
    rw [blobOccurrences_decoded full decoded] at plain ⊢
    have matched := events_matched order (createStringMatcher m) events
    simp only [translateOne_read full read ok, (writeEvents_flags _).1, matched, and_true]
    cases skipped : isSkippableForNamespaceTranslation (.list historyEventsType events : Event) with
    | true =>
      rw [skipped] at plain
      have none : heldNames (eventOccurrences .visited events) = [] := by
        rw [eventOccurrences, childHeldNames_sight .visited .skipped (by simp) (by simp)]
        exact heldNames_nil (eventOccurrences_sight .skipped events) plain
      have unseen : visible (eventOccurrences .skipped events) = [] :=
        childOccurrences_hidden (fun _ b => b.elim) .skipped (by simp) never events
      simp [writeEvents, matched, skipped, unseen, renameBlob, stored, none]
    | false =>
      rw [skipped] at plain
      have seen := heldNames_visible (eventOccurrences_sight .visited events) plain
      obtain ⟨written, serialized, _⟩ := roundTrips (renameEvents m events)
      simp only [writeEvents, matched, skipped, Bool.false_eq_true, ↓reduceIte, Bool.or_false,
        renameBlob, stored, seen, matches_map, events_renamed order m skipped plain, Value.children,
        serialized]
      split <;> exact ⟨rfl, rfl⟩

/- The new blob stands for the renamed events. -/
theorem renameBlob_decodes (roundTrips : RoundTrips codec) (m : NameMap)
    (full : codec.isEmpty b = false) (decoded : codec.deserializeEvents b = .ok events) :
    codec.deserializeEvents (renameBlob codec m b) = .ok (renameEvents m events) := by
  have stored : decodedEvents codec b = events := by simp [decodedEvents, full, decoded]
  unfold renameBlob
  rw [stored]
  split
  · obtain ⟨written, serialized, reads⟩ := roundTrips (renameEvents m events)
    simp [serialized, reads]
  · next untouched =>
    have stays : ∀ o ∈ eventOccurrences .visited events,
        Fixed (fun n => m.lookup n = none) o := by
      intro o member
      by_cases bare : o.sight = .bare
      · exact .inl bare
      · have held : o.name ∈ heldNames (eventOccurrences .visited events) :=
          mem_heldNames.mpr ⟨o, member, bare, rfl⟩
        simp only [List.any_eq_true, not_exists, not_and, Bool.not_eq_true,
          Option.isSome_eq_false_iff, Option.isNone_iff_eq_none] at untouched
        exact .inr (untouched o.name held)
    have fixed : renameEvents m events = events :=
      mapChildren_fixed (translatedName_fixed m) (fun _ b => b.elim) .visited (by simp) never events
        stays
    rw [fixed, decoded]

end Blobs

/- The blobs of a message stay as they are where no name in them is a key. -/
theorem renameBlob_fixed (codec : Codec β) (m : NameMap) (s : Sight) (b : β) (reached : s ≠ .bare)
    (stays : ∀ o ∈ blobOccurrences codec (decodedEvents codec) s b,
      Fixed (fun n => m.lookup n = none) o) : renameBlob codec m b = b := by
  have sight : blobSight codec s b ≠ .bare := by
    unfold blobSight
    split
    · simp
    · split
      · simp
      · exact reached
  have untouched : (heldNames (eventOccurrences .visited (decodedEvents codec b))).any
      (fun n => (m.lookup n).isSome) = false := by
    rw [eventOccurrences, childHeldNames_sight .visited _ (by simp) sight]
    refine List.any_eq_false.mpr fun n member => ?_
    obtain ⟨o, inside, held, rfl⟩ := mem_heldNames.mp member
    simp [(stays o inside).resolve_left held]
  simp [renameBlob, untouched]

theorem namespace_translation_equals_reference (codec : Codec β) (roundTrips : RoundTrips codec)
    (orders : Orders β) (m : NameMap) (obj : Value β)
    (decodes : ∀ b, .blob b ∈ places namespaceSelection none obj → Decodes codec b)
    (plain : ∀ o ∈ messageOccurrences codec (decodedEvents codec) obj, o.sight ≠ .skipped) :
    visitNamespace codec orders (createStringMatcher m) obj =
        ⟨translated codec m obj,
          (heldNames (messageOccurrences codec (decodedEvents codec) obj)).any
            fun n => (m.lookup n).isSome, none⟩ ∧
      ∀ b events, codec.isEmpty b = false → codec.deserializeEvents b = .ok events →
        codec.deserializeEvents (renameBlob codec m b) = .ok (renameEvents m events) := by
  refine ⟨?_, fun b events full decoded => renameBlob_decodes roundTrips m full decoded⟩
  have sights := occurrences_sight (blobOccurrences_sight codec)
  unfold messageOccurrences at plain ⊢
  unfold visitNamespace visitNamespaceOver translated
  cases skipped : isSkippableForNamespaceTranslation obj with
  | true =>
    simp only [skipped, ↓reduceIte] at plain ⊢
    have nothing := heldNames_nil (sights .skipped none obj) plain
    have bare : ∀ o ∈ occurrences (blobOccurrences codec (decodedEvents codec)) .skipped none obj,
        Fixed (fun n => m.lookup n = none) o := fun o member => by
      by_contra held
      have inside := mem_heldNames.mpr ⟨o, member, fun bare => held (.inl bare), rfl⟩
      rw [nothing] at inside
      cases inside
    rw [mapNames_fixed (translatedName_fixed m) (renameBlob_fixed codec m) .skipped (by simp) none obj
      bare, nothing]
    rfl
  | false =>
    simp only [skipped, Bool.false_eq_true, ↓reduceIte] at plain ⊢
    have blobs (b : β) (member : .blob b ∈ places namespaceSelection none obj) :=
      blob_translated roundTrips orders.events m (decodes b member) fun o inside =>
        plain o (contents_subset inside none obj member)
    have steady := translateOneDataBlob_steady codec
      (visitNamespaceEvents orders.events (createStringMatcher m))
    have ok := (namespace_walk_ok steady (createStringMatcher m)).mpr
      fun b member => (blobs b member).1
    have matched := namespace_walk_matched steady
      (blobOccurrences_hidden codec (decodedEvents codec)) (fun b member => (blobs b member).2.2) ok
    have value := walk_value steady (createStringMatcher m) none obj
      fun b member => ⟨(blobs b member).1, (blobs b member).2.1⟩
    rw [← heldNames_visible (sights .visited none obj) plain] at matched
    simp only [matchName_map, matches_map] at value matched
    rw [mapNames_plain (translatedName_fixed m) (renameBlob_fixed codec m)
      (blobOccurrences_sight codec) .visited none obj plain] at value
    rw [namespace_visit_eq_walk steady _ orders.messages fun b member => (blobs b member).1, ← value,
      ← matched, ← ok]

theorem sample_roundTrips : RoundTrips sampleCodec := fun events => ⟨some events, rfl, rfl⟩

theorem namespace_translation_equals_reference_sample :
    visitNamespace sampleCodec fieldOrders (createStringMatcher sampleMap)
        (sampleMessage "local" (some (startedEvents "local")) "other") =
      ⟨sampleMessage "remote" (some (startedEvents "remote")) "other", true, none⟩ := by
  refine (namespace_translation_equals_reference sampleCodec sample_roundTrips fieldOrders
    sampleMap _ ?_ ?_).1.trans ?_
  · intro b member
    have listed : places namespaceSelection none
        (sampleMessage "local" (some (startedEvents "local")) "other") =
      [.string "local", .blob (some (startedEvents "local")), .string "other"] := rfl
    rw [listed] at member
    simp only [List.mem_cons, Place.blob.injEq, reduceCtorEq, List.not_mem_nil, or_false,
      false_or] at member
    exact .inr ⟨startedEvents "local", member ▸ rfl⟩
  · decide +kernel
  · rfl

end NamespaceTranslation
