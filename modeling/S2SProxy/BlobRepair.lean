import S2SProxy.MessageVisitor

/- A blob of events is decoded, or repaired and decoded, or refused; there is one more way
   through translateOneDataBlob, for a blob whose invalid bytes the repair does not look at. -/
namespace MessageVisitor
open EventRepair MessageTree StoppingUpdate
variable {β : Type}

/-- What is serialized decodes to the same events. -/
def ReadsBack (codec : Codec β) : Prop :=
  ∀ events blob, codec.serializeEvents events = .ok blob → codec.deserializeEvents blob = .ok events

/-- The events of a blob: those it decodes to, or those it decodes to after the messages of its
    failures were made valid. -/
inductive ReadAs (codec : Codec β) (blob : β) : Children Empty → Bool → Prop
  | decoded {events : Children Empty} (read : codec.deserializeEvents blob = .ok events) :
      ReadAs codec blob events false
  | repaired {events : Children Empty} {err : String} {old : List HistoryEvent122} {fixed : β}
      (undecoded : codec.deserializeEvents blob = .error err) (invalid : isInvalidUTF8Error err = true)
      (olderRead : codec.gogoDeserializeEvents blob = .ok old) (shallow : Shallow old)
      (broken : Broken old)
      (rewritten : codec.gogoSerializeEvents blob (old.map repairedEvent) = .ok fixed)
      (read : codec.deserializeEvents fixed = .ok events) :
      ReadAs codec blob events true

def eventsOf (codec : Codec β) (blob : β) : Option (Children Empty × Bool) :=
  match codec.deserializeEvents blob with
  | .ok events => some (events, false)
  | .error err =>
    match codec.gogoDeserializeEvents blob with
    | .error _ => none
    | .ok old =>
      if isInvalidUTF8Error err = true ∧ Shallow old ∧ Broken old then
        match codec.gogoSerializeEvents blob (old.map repairedEvent) with
        | .error _ => none
        | .ok fixed =>
          match codec.deserializeEvents fixed with
          | .error _ => none
          | .ok events => some (events, true)
      else none

/-- Without an error, the visitor was given the events of the blob, and the blob that is
    returned holds what the visitor made of them. -/
def PassedRead (codec : Codec β) (visitor : Event → Visited Event) (blob : β) : Prop :=
  (translateOneDataBlob codec visitor blob).err = none →
    ∃ events repaired, ReadAs codec blob events repaired ∧
      (visitor (.list historyEventsType events)).err = none ∧
      if (visitor (.list historyEventsType events)).matched || repaired then
        codec.deserializeEvents (translateOneDataBlob codec visitor blob).result =
          .ok (visitor (.list historyEventsType events)).value.children
      else (translateOneDataBlob codec visitor blob).result = blob

/-- The blob has invalid utf-8, but every message of its failures is valid. -/
def NothingToRepair (codec : Codec β) (blob : β) : Prop :=
  ∃ err old, codec.deserializeEvents blob = .error err ∧ isInvalidUTF8Error err = true ∧
    codec.gogoDeserializeEvents blob = .ok old ∧ Shallow old ∧ ¬ Broken old

section OneBlob
variable {codec : Codec β} {visitor : Event → Visited Event} {blob : β}

theorem eventsOf_eq_some {events : Children Empty} {repaired : Bool} :
    eventsOf codec blob = some (events, repaired) ↔ ReadAs codec blob events repaired := by
  constructor
  · intro given
    unfold eventsOf at given
    split at given
    · next read =>
      cases given
      exact .decoded read
    · next undecoded =>
      split at given
      · cases given
      · next olderRead =>
        split at given
        · next due =>
          split at given
          · cases given
          · next rewritten =>
            split at given
            · cases given
            · next read =>
              cases given
              exact .repaired undecoded due.1 olderRead due.2.1 due.2.2 rewritten read
        · cases given
  · intro read
    cases read with
    | decoded read => simp [eventsOf, read]
    | repaired undecoded invalid olderRead shallow broken rewritten read =>
      simp [eventsOf, undecoded, olderRead, invalid, shallow, broken, rewritten, read]

theorem readEvents_invalid {err : String} (undecoded : codec.deserializeEvents blob = .error err)
    (invalid : isInvalidUTF8Error err = true) :
    readEvents codec blob = tryRepairInvalidUTF8InBlob codec blob := by
  simp [readEvents, undecoded, invalid]

theorem readEvents_readAs {events : Children Empty} {repaired : Bool}
    (read : ReadAs codec blob events repaired) :
    readEvents codec blob = (events, repaired, none) := by
  cases read with
  | decoded read => simp [readEvents, read]
  | repaired undecoded invalid olderRead shallow broken rewritten read =>
    simp [readEvents, undecoded, invalid, tryRepairInvalidUTF8InBlob, olderRead,
      validateAndRepair_shallow shallow, (any_broken _).mpr broken, rewritten, read]

theorem readEvents_nothingToRepair (unread : NothingToRepair codec blob) :
    readEvents codec blob = (.empty, false, none) := by
  obtain ⟨err, old, undecoded, invalid, olderRead, shallow, intact⟩ := unread
  rw [← any_broken, Bool.not_eq_true] at intact
  simp [readEvents, undecoded, invalid, tryRepairInvalidUTF8InBlob, olderRead,
    validateAndRepair_shallow shallow, intact]

theorem not_nothingToRepair {events : Children Empty} {repaired : Bool}
    (read : ReadAs codec blob events repaired) : ¬ NothingToRepair codec blob := by
  rintro ⟨err, old, undecoded, _, olderRead, _, intact⟩
  cases read with
  | decoded read => cases undecoded.symm.trans read
  | repaired _ _ olderRead' _ broken =>
    cases olderRead.symm.trans olderRead'
    exact intact broken

theorem readEvents_refused (unread : ∀ events repaired, ¬ ReadAs codec blob events repaired)
    (something : ¬ NothingToRepair codec blob) :
    ∃ changed err, readEvents codec blob = (.empty, changed, some err) := by
  cases decoded : codec.deserializeEvents blob with
  | ok events => exact absurd (.decoded decoded) (unread events false)
  | error err =>
    cases invalid : isInvalidUTF8Error err with
    | false => exact ⟨false, err, by simp [readEvents, decoded, invalid]⟩
    | true =>
      rw [readEvents_invalid decoded invalid, tryRepairInvalidUTF8InBlob]
      cases olderRead : codec.gogoDeserializeEvents blob with
      | error err => exact ⟨false, err, rfl⟩
      | ok old =>
        by_cases shallow : Shallow old
        · by_cases broken : Broken old
          · simp only [validateAndRepair_shallow shallow, (any_broken old).mpr broken]
            cases rewritten : codec.gogoSerializeEvents blob (old.map repairedEvent) with
            | error err => exact ⟨true, err, rfl⟩
            | ok fixed =>
              cases read : codec.deserializeEvents fixed with
              | error err => exact ⟨true, err, by simp [read]⟩
              | ok events =>
                exact absurd (.repaired decoded invalid olderRead shallow broken rewritten read)
                  (unread events true)
          · exact absurd ⟨err, old, decoded, invalid, olderRead, shallow, broken⟩ something
        · obtain ⟨events, changed, failed, same⟩ : ∃ events changed failed,
            validateAndRepairHistoryEvents old = (events, changed, failed) := ⟨_, _, _, rfl⟩
          have deep := validateAndRepair_deep shallow
          rw [same] at deep
          obtain rfl : failed = _ := deep
          exact ⟨changed, "reached maximum failure chain depth", by simp only [same]⟩

theorem translateOne_readAs {events : Children Empty} {repaired : Bool}
    (full : codec.isEmpty blob = false) (read : ReadAs codec blob events repaired) :
    translateOneDataBlob codec visitor blob =
      match (visitor (.list historyEventsType events)).err with
      | some err => ⟨blob, (visitor (.list historyEventsType events)).matched, repaired, some err⟩
      | none => writeEvents codec blob (visitor (.list historyEventsType events)) repaired := by
  have reading := readEvents_readAs read
  cases failed : (visitor (.list historyEventsType events)).err with
  | some err => simp [translateOneDataBlob, full, reading, failed]
  | none => simp [translateOneDataBlob, full, reading, failed]

theorem writeEvents_spec (readsBack : ReadsBack codec) {visited : Visited Event} {repaired : Bool}
    (ok : (writeEvents codec blob visited repaired).err = none) :
    if visited.matched || repaired then
      codec.deserializeEvents (writeEvents codec blob visited repaired).result =
        .ok visited.value.children
    else (writeEvents codec blob visited repaired).result = blob := by
  cases written : visited.matched || repaired with
  | false => simp [writeEvents, written]
  | true =>
    simp only [writeEvents, written, ↓reduceIte] at ok ⊢
    cases serialized : codec.serializeEvents visited.value.children with
    | error err =>
      rw [serialized] at ok
      cases ok
    | ok out => exact readsBack _ _ serialized

theorem passedRead_of_readAs (readsBack : ReadsBack codec) (full : codec.isEmpty blob = false)
    {events : Children Empty} {repaired : Bool} (read : ReadAs codec blob events repaired) :
    PassedRead codec visitor blob := by
  intro ok
  refine ⟨events, repaired, read, ?_⟩
  rw [translateOne_readAs full read] at ok ⊢
  cases failed : (visitor (.list historyEventsType events)).err with
  | some err =>
    rw [failed] at ok
    cases ok
  | none =>
    rw [failed] at ok
    exact ⟨rfl, writeEvents_spec readsBack ok⟩

theorem refused_passedRead (full : codec.isEmpty blob = false)
    (refused : ∃ changed err, readEvents codec blob = (.empty, changed, some err)) :
    PassedRead codec visitor blob := by
  obtain ⟨changed, err, reading⟩ := refused
  intro ok
  simp [translateOneDataBlob, full, reading] at ok

end OneBlob

theorem blob_passed_only_when_read_iff (codec : Codec β) (readsBack : ReadsBack codec) (blob : β)
    (full : codec.isEmpty blob = false) :
    (∀ visitor, PassedRead codec visitor blob) ↔ ¬ NothingToRepair codec blob := by
  constructor
  · intro passed unread
    -- A visitor that matches nothing lets the blob through.
    have through : (translateOneDataBlob codec keep blob).err = none := by
      simp [translateOneDataBlob, full, readEvents_nothingToRepair unread, keep, writeEvents]
    obtain ⟨events, repaired, read, _⟩ := passed keep through
    exact not_nothingToRepair read unread
  · intro something visitor
    by_cases read : ∃ events repaired, ReadAs codec blob events repaired
    · obtain ⟨events, repaired, read⟩ := read
      exact passedRead_of_readAs readsBack full read
    · have unread : ∀ events repaired, ¬ ReadAs codec blob events repaired :=
        fun events repaired readAs => read ⟨events, repaired, readAs⟩
      exact refused_passedRead full (readEvents_refused unread something)

/-- Blobs of either proto version. Old events with an invalid string are refused by the new
    deserializer. -/
inductive SampleBlob where
  | old (events : List HistoryEvent122)
  | new (events : Children Empty)

def oldStrings (event : HistoryEvent122) : List GoString :=
  event.others ++ event.failure.flatMap fun node => node.message :: node.others

def convertEvents (events : List HistoryEvent122) : Children Empty :=
  events.foldr (fun event rest => .cons none (.historyEvent event.attributes .empty) rest) .empty

def sampleSerializers : Codec SampleBlob where
  isEmpty _ := false
  deserializeEvents
    | .new events => .ok events
    | .old events =>
      if events.all fun event => (oldStrings event).all validString then .ok (convertEvents events)
      else .error "string field contains invalid UTF-8"
  serializeEvents events := .ok (.new events)
  gogoDeserializeEvents
    | .old events => .ok events
    | .new _ => .error "unknown encoding type"
  gogoSerializeEvents _ events := .ok (.old events)

theorem sampleSerializers_readsBack : ReadsBack sampleSerializers := by
  intro events blob written
  cases written
  rfl

theorem invalid_utf8_error : isInvalidUTF8Error "string field contains invalid UTF-8" = true := by
  decide +kernel

/-- An invalid byte in the message of a workflow's failure, where the repair looks. -/
def brokenFailure : SampleBlob := .old [⟨.workflowExecutionFailed, [⟨[some 'a', none], []⟩], []⟩]

theorem blob_passed_only_when_read_iff_repaired :
    (translateOneDataBlob sampleSerializers
      (visitNamespaceEvents fieldOrder (createStringMatcher sampleMap)) brokenFailure).err = none ∧
    PassedRead sampleSerializers (visitNamespaceEvents fieldOrder (createStringMatcher sampleMap))
      brokenFailure := by
  refine ⟨by decide +kernel, ?_⟩
  refine (blob_passed_only_when_read_iff sampleSerializers sampleSerializers_readsBack
    brokenFailure rfl).mpr ?_ (visitNamespaceEvents fieldOrder (createStringMatcher sampleMap))
  rintro ⟨err, old, _, _, olderRead, _, intact⟩
  cases olderRead
  exact intact (by decide)

/-- An invalid byte in the name of a signal, where the repair does not look. -/
def brokenSignal : SampleBlob := .old [⟨.workflowExecutionSignaled, [], [[none]]⟩]

theorem brokenSignal_nothingToRepair : NothingToRepair sampleSerializers brokenSignal :=
  ⟨_, _, rfl, invalid_utf8_error, rfl, by decide, by decide⟩

/-- The blob is returned as it came, with no error, and has not been decoded. -/
theorem invalid_signal_name_passed_unread :
    (translateOneDataBlob sampleSerializers keep brokenSignal).err = none ∧
    (translateOneDataBlob sampleSerializers keep brokenSignal).result = brokenSignal ∧
    ¬ PassedRead sampleSerializers keep brokenSignal := by
  have full : sampleSerializers.isEmpty brokenSignal = false := rfl
  have through : translateOneDataBlob sampleSerializers keep brokenSignal =
      ⟨brokenSignal, false, false, none⟩ := by
    simp [translateOneDataBlob, full, readEvents_nothingToRepair brokenSignal_nothingToRepair, keep,
      writeEvents]
  refine ⟨by rw [through], by rw [through], fun passed => ?_⟩
  obtain ⟨events, repaired, read, _⟩ := passed (by rw [through])
  exact not_nothingToRepair read brokenSignal_nothingToRepair

end MessageVisitor
