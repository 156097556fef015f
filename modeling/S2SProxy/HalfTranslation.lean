import S2SProxy.BlobRepair
import S2SProxy.SearchAttributeWalk
import S2SProxy.TranslationInterceptor

/- A translator that fails leaves what it has changed by then in the message, and the message is
   passed on. What a translator is to make of a message is said here place by place and without an
   order. A message is passed on half translated exactly if a translator comes to a place that it
   changes before it comes to one at which it fails. -/
namespace TranslationInterceptor
open MessageTree MessageVisitor NamespaceTranslation SearchAttributes StoppingUpdate
variable {β : Type}

/-- The events that a translator can take, what it makes of them, and whether it finds one of its
    names in them. -/
structure EventTranslation where
  takes : Children Empty → Prop
  renames : Children Empty → Children Empty
  hits : Children Empty → Bool
  takesNone : takes .empty
  hitsNone : hits .empty = false

def nameTranslation (m : NameMap) : EventTranslation where
  takes _ := True
  renames := translatedEvents m
  hits := namesMatched m
  takesNone := trivial
  hitsNone := rfl

/-- Events with a search attribute field of another type are not taken. -/
def attributeTranslation (m : NameMap) : EventTranslation where
  takes events := Handled (childPlaces searchAttributeSelection never events)
  renames := attributeEvents m
  hits events := (eventKeys events).any (isKey m)
  takesNone _ member := by cases member
  hitsNone := rfl

inductive BlobTo (codec : Codec β) (t : EventTranslation) (b : β) : β → Prop
  | empty (none : codec.isEmpty b = true) : BlobTo codec t b b
  | unread (full : codec.isEmpty b = false) (nothing : NothingToRepair codec b) : BlobTo codec t b b
  | kept {events : Children Empty} (full : codec.isEmpty b = false)
      (read : ReadAs codec b events false) (taken : t.takes events) (unnamed : t.hits events = false) :
      BlobTo codec t b b
  | written {events : Children Empty} {repaired : Bool} {b' : β} (full : codec.isEmpty b = false)
      (read : ReadAs codec b events repaired) (taken : t.takes events)
      (due : (t.hits events || repaired) = true)
      (serialized : codec.serializeEvents (t.renames events) = .ok b') : BlobTo codec t b b'

namespace Translator

def mapping (dir : Direction) : Translator → NameMap
  | .namespaceName reqMap respMap => pick dir reqMap respMap
  | .searchAttribute reqMap respMap => firstMapping (pick dir reqMap respMap)

def onEvents (dir : Direction) (tr : Translator) : EventTranslation :=
  match tr with
  | .namespaceName _ _ => nameTranslation (tr.mapping dir)
  | .searchAttribute _ _ => attributeTranslation (tr.mapping dir)

def onName (dir : Direction) (tr : Translator) : String → String :=
  match tr with
  | .namespaceName _ _ => translatedName (tr.mapping dir)
  | .searchAttribute _ _ => id

def onFields (dir : Direction) (tr : Translator) : IndexedFields → IndexedFields :=
  match tr with
  | .namespaceName _ _ => id
  | .searchAttribute _ _ => translatedFields (tr.mapping dir)

def selection : Translator → Selection β
  | .namespaceName _ _ => namespaceSelection
  | .searchAttribute _ _ => searchAttributeSelection

def passesOver (obj : Value β) : Translator → Bool
  | .namespaceName _ _ => isSkippableForNamespaceTranslation obj
  | .searchAttribute _ _ => false

end Translator

section Spec
variable (codec : Codec β) (dir : Direction) (tr : Translator)

inductive PlaceTo : Place β → Place β → Prop
  | string (s : String) : PlaceTo (.string s) (.string (tr.onName dir s))
  | attributes (fields : IndexedFields) :
      PlaceTo (.attributes fields) (.attributes (tr.onFields dir fields))
  | blob {b b' : β} (becomes : BlobTo codec (tr.onEvents dir) b b') : PlaceTo (.blob b) (.blob b')

inductive SpotTo : Spot β → Spot β → Prop
  | string (s : String) : SpotTo (.string s) (.string (tr.onName dir s))
  | attributes (fields : IndexedFields) :
      SpotTo (.attributes fields) (.attributes (tr.onFields dir fields))
  | blob {b b' : β} (becomes : BlobTo codec (tr.onEvents dir) b b') : SpotTo (.blob b) (.blob b')
  | blobs {bs bs' : List (Option β)}
      (each : List.Forall₂ (Option.Rel (BlobTo codec (tr.onEvents dir))) bs bs') :
      SpotTo (.blobs bs) (.blobs bs')

/-- The second message is the first one, translated everywhere. -/
def FullyTranslates (obj obj' : Value β) : Prop :=
  if tr.passesOver obj then obj' = obj
  else ∃ ss, List.Forall₂ (SpotTo codec dir tr) (spots tr.selection none obj) ss ∧
    obj' = refill tr.selection none obj ss

def visits (order : Order β) (obj : Value β) : List (Place β) :=
  if tr.passesOver obj then [] else visitedPlaces order tr.selection obj

/-- There is a place at which the translator fails, and what it comes to before that one is to stay
    as it is. -/
def StopsUntouched (order : Order β) (obj : Value β) : Prop :=
  ∃ before p after, visits tr order obj = before ++ p :: after ∧
    (∀ q ∈ before, PlaceTo codec dir tr q q) ∧ ∀ p', ¬ PlaceTo codec dir tr p p'

end Spec

/-- The message is translated everywhere or nowhere. -/
def Stage.AllOrNothing (codec : Codec β) (dir : Direction) (stage : Stage β) : Prop :=
  FullyTranslates codec dir stage.translator stage.before stage.outcome.value ∨
    stage.outcome.value = stage.before

/-- Each translator in turn can translate all of the message, or fails before it changes something. -/
def Untorn (codec : Codec β) (orders : Nat → Orders β) (dir : Direction) :
    List Translator → Value β → Prop
  | [], _ => True
  | tr :: rest, obj =>
    (∃ obj', FullyTranslates codec dir tr obj obj' ∧
      Untorn codec (fun k => orders (k + 1)) dir rest obj') ∨
    (StopsUntouched codec dir tr (orders 0).messages obj ∧
      Untorn codec (fun k => orders (k + 1)) dir rest obj)

section Blobs
variable {codec : Codec β} {t : EventTranslation} {visitor : Event → Visited Event} {b b' : β}

structure Performs (t : EventTranslation) (visitor : Event → Visited Event) : Prop where
  done : ∀ events, t.takes events → visitor (.list historyEventsType events) =
    ⟨.list historyEventsType (t.renames events), t.hits events, none⟩
  fails : ∀ events, ¬ t.takes events → (visitor (.list historyEventsType events)).err ≠ none

theorem namespaces_perform (order : Order Empty) (m : NameMap) :
    Performs (nameTranslation m) (visitNamespaceEvents order (createStringMatcher m)) := by
  constructor
  · intro events _
    exact Outcome.ext (events_translated order m events) (events_namesMatched order m events)
      (events_err order _ _)
  · exact fun events untaken => absurd trivial untaken

theorem attributes_perform (order : Order Empty) (m : NameMap) :
    Performs (attributeTranslation m) (visitSearchAttributesEvents order (createStringMatcher m)) := by
  constructor
  · exact fun events handled => events_walk_reference order m handled
  · intro events unhandled ok
    apply unhandled
    intro err member
    have fine := (visit_err_none empty_steady order (.list historyEventsType events)).mp ok
      (.unhandled err) member
    simp [Visitor.handle] at fine

theorem read_iff (performs : Performs t visitor) {events : Children Empty} {repaired : Bool}
    (full : codec.isEmpty b = false) (read : ReadAs codec b events repaired) :
    ((translateOneDataBlob codec visitor b).err = none ∧
        (translateOneDataBlob codec visitor b).result = b') ↔
      t.takes events ∧ if t.hits events || repaired then
        codec.serializeEvents (t.renames events) = .ok b' else b = b' := by
  by_cases taken : t.takes events
  · have visited := performs.done events taken
    rw [translateOne_read full (readEvents_readAs read) (by rw [visited]), visited, writeEvents]
    cases t.hits events || repaired with
    | false => simp [taken]
    | true =>
      cases serialized : codec.serializeEvents (t.renames events) <;>
        simp [Value.children, serialized, taken]
  · have failed := performs.fails events taken
    rw [translateOne_readAs full read]
    cases err : (visitor (.list historyEventsType events)).err with
    | none => exact absurd err failed
    | some text => simp [taken]

theorem blobTo_iff (performs : Performs t visitor) :
    BlobTo codec t b b' ↔ (translateOneDataBlob codec visitor b).err = none ∧
      (translateOneDataBlob codec visitor b).result = b' := by
  constructor
  · intro becomes
    cases becomes with
    | empty none => simp [translateOneDataBlob, none]
    | unread full nothing =>
      have visited := performs.done .empty t.takesNone
      rw [translateOne_read full (readEvents_nothingToRepair nothing) (by rw [visited]), visited]
      simp [writeEvents, t.hitsNone]
    | kept full read taken unnamed => exact (read_iff performs full read).mpr (by simp [taken, unnamed])
    | written full read taken due serialized =>
      exact (read_iff performs full read).mpr (by simp [taken, due, serialized])
  · rintro ⟨ok, result⟩
    cases full : codec.isEmpty b with
    | true =>
      obtain rfl : b = b' := by simpa [translateOneDataBlob, full] using result
      exact .empty full
    | false =>
      by_cases read : ∃ events repaired, ReadAs codec b events repaired
      · obtain ⟨events, repaired, read⟩ := read
        obtain ⟨taken, made⟩ := (read_iff performs full read).mp ⟨ok, result⟩
        cases due : t.hits events || repaired with
        | true => exact .written full read taken due (by simpa [due] using made)
        | false =>
          obtain rfl : b = b' := by simpa [due] using made
          obtain ⟨unnamed, rfl⟩ := Bool.or_eq_false_iff.mp due
          exact .kept full read taken unnamed
      · by_cases nothing : NothingToRepair codec b
        · have visited := performs.done .empty t.takesNone
          rw [translateOne_read full (readEvents_nothingToRepair nothing) (by rw [visited]), visited]
            at result
          obtain rfl : b = b' := by simpa [writeEvents, t.hitsNone] using result
          exact .unread full nothing
        · obtain ⟨changed, err, refused⟩ := readEvents_refused
            (fun events repaired own => read ⟨events, repaired, own⟩) nothing
          simp [translateOne_failed full refused] at ok

end Blobs

section OneTranslator
variable {codec : Codec β} {order : Order Empty} {dir : Direction} {tr : Translator}

def Translator.visitor (codec : Codec β) (order : Order Empty) (dir : Direction) (tr : Translator) :
    Visitor β :=
  match tr with
  | .namespaceName _ _ =>
    let matcher := createStringMatcher (tr.mapping dir)
    namespaceVisitor (translateOneDataBlob codec (visitNamespaceEvents order matcher)) matcher
  | .searchAttribute _ _ =>
    let matcher := createStringMatcher (tr.mapping dir)
    searchAttributeVisitor (translateOneDataBlob codec (visitSearchAttributesEvents order matcher)) matcher

theorem visitor_selection (codec : Codec β) (order : Order Empty) (dir : Direction) (tr : Translator) :
    (tr.visitor codec order dir).toSelection = tr.selection := by
  cases tr <;> rfl

theorem visitor_steady : Steady (tr.visitor codec order dir).translateOne := by
  cases tr <;> exact translateOneDataBlob_steady codec _

theorem translate_eq (orders : Orders β) (obj : Value β) :
    tr.translate codec orders dir obj =
      if tr.passesOver obj then keep obj
      else visitValues orders.messages (tr.visitor codec orders.events dir) obj := by
  cases tr with
  | namespaceName reqMap respMap => rfl
  | searchAttribute reqMap respMap =>
    simp only [Translator.translate, getNamespaceMatcher_eq]
    rfl

theorem oneBlob_iff (order : Order Empty) {b b' : β} :
    BlobTo codec (tr.onEvents dir) b b' ↔
      (visitDataBlob (tr.visitor codec order dir).translateOne b).err = none ∧
        (visitDataBlob (tr.visitor codec order dir).translateOne b).value = b' := by
  have flags := visitDataBlob_flags (tr.visitor codec order dir).translateOne b
  have becomes : BlobTo codec (tr.onEvents dir) b b' ↔
      ((tr.visitor codec order dir).translateOne b).err = none ∧
        ((tr.visitor codec order dir).translateOne b).result = b' := by
    cases tr with
    | namespaceName _ _ => exact blobTo_iff (namespaces_perform order _)
    | searchAttribute _ _ => exact blobTo_iff (attributes_perform order _)
  rw [becomes, flags.1]
  exact and_congr_right fun ok => by rw [visitDataBlob_value visitor_steady ok]

theorem name_done (s : String) :
    ((tr.visitor codec order dir).onString s).err = none ∧
      ((tr.visitor codec order dir).onString s).value = tr.onName dir s := by
  cases tr with
  | namespaceName _ _ => exact ⟨matchName_err _ s, matchName_map _ s⟩
  | searchAttribute _ _ => exact ⟨rfl, rfl⟩

theorem fields_done (fields : IndexedFields) :
    ((tr.visitor codec order dir).onAttributes fields).err = none ∧
      ((tr.visitor codec order dir).onAttributes fields).value = tr.onFields dir fields := by
  cases tr with
  | namespaceName _ _ => exact ⟨rfl, rfl⟩
  | searchAttribute _ _ => exact ⟨rfl, congrFun (fields_translated _) fields⟩

theorem placeTo_iff (order : Order Empty) {p p' : Place β} :
    PlaceTo codec dir tr p p' ↔ ((tr.visitor codec order dir).handle p).err = none ∧
      ((tr.visitor codec order dir).handle p).value = p' := by
  constructor
  · intro becomes
    cases becomes with
    | string s => simp [Visitor.handle, name_done]
    | attributes fields => simp [Visitor.handle, fields_done]
    | blob becomes => simpa [Visitor.handle] using (oneBlob_iff order).mp becomes
  · rintro ⟨ok, rfl⟩
    cases p with
    | string s =>
      simp only [Visitor.handle, map_value, name_done]
      exact .string s
    | attributes fields =>
      simp only [Visitor.handle, map_value, fields_done]
      exact .attributes fields
    | blob b => exact .blob ((oneBlob_iff order).mpr ⟨ok, rfl⟩)
    | unhandled err => simp [Visitor.handle] at ok

theorem blobs_iff (order : Order Empty) {bs bs' : List (Option β)} :
    List.Forall₂ (Option.Rel (BlobTo codec (tr.onEvents dir))) bs bs' ↔
      (visitDataBlobs (tr.visitor codec order dir).translateOne bs).err = none ∧
        (visitDataBlobs (tr.visitor codec order dir).translateOne bs).value = bs' := by
  induction bs generalizing bs' with
  | nil => simp [visitDataBlobs, translateDataBlobs, eq_comm]
  | cons head rest ih =>
    rw [List.forall₂_cons_left_iff]
    cases head with
    | none =>
      constructor
      · rintro ⟨_, _, ⟨⟩, others, rfl⟩
        obtain ⟨ok, rfl⟩ := ih.mp others
        exact ⟨ok, rfl⟩
      · rintro ⟨ok, rfl⟩
        exact ⟨_, _, .none, ih.mpr ⟨ok, rfl⟩, rfl⟩
    | some b =>
      rw [visitDataBlobs_cons visitor_steady, map_err, map_value]
      constructor
      · rintro ⟨_, _, ⟨becomes⟩, others, rfl⟩
        obtain ⟨fine, rfl⟩ := (oneBlob_iff order).mp becomes
        obtain ⟨ok, rfl⟩ := ih.mp others
        rw [both_of_ok fine]
        exact ⟨ok, rfl⟩
      · rintro ⟨ok, rfl⟩
        cases fine : (visitDataBlob (tr.visitor codec order dir).translateOne b).err with
        | some err => simp [both_of_err fine] at ok
        | none =>
          rw [both_of_ok fine] at ok ⊢
          exact ⟨_, _, .some ((oneBlob_iff order).mpr ⟨fine, rfl⟩), ih.mpr ⟨ok, rfl⟩, rfl⟩

theorem spotTo_iff (order : Order Empty) {s s' : Spot β} :
    SpotTo codec dir tr s s' ↔ ((tr.visitor codec order dir).call s).err = none ∧
      ((tr.visitor codec order dir).call s).value = s' := by
  constructor
  · intro becomes
    cases becomes with
    | string s => simp [Visitor.call, name_done]
    | attributes fields => simp [Visitor.call, fields_done]
    | blob becomes => simpa [Visitor.call] using (oneBlob_iff order).mp becomes
    | blobs each => simpa [Visitor.call] using (blobs_iff order).mp each
  · rintro ⟨ok, rfl⟩
    cases s with
    | string s =>
      simp only [Visitor.call, map_value, name_done]
      exact .string s
    | attributes fields =>
      simp only [Visitor.call, map_value, fields_done]
      exact .attributes fields
    | blob b => exact .blob ((oneBlob_iff order).mpr ⟨ok, rfl⟩)
    | blobs bs => exact .blobs ((blobs_iff order).mpr ⟨ok, rfl⟩)
    | unhandled err => simp [Visitor.call] at ok

theorem translates_iff (orders : Orders β) {obj obj' : Value β} :
    FullyTranslates codec dir tr obj obj' ↔ (tr.translate codec orders dir obj).err = none ∧
      (tr.translate codec orders dir obj).value = obj' := by
  rw [translate_eq, FullyTranslates]
  split
  · simp [keep, eq_comm]
  · let vis := tr.visitor codec orders.events dir
    have selects : vis.toSelection = tr.selection := visitor_selection codec orders.events dir tr
    have follows := updateIn_follows vis.call (spots vis.toSelection none obj)
      (orders.messages.distinct obj (spots vis.toSelection none obj).length)
    have parts := partsAt_perm (orders.messages.complete obj (spots vis.toSelection none obj).length)
    have fine : (visitValues orders.messages vis obj).err = none ↔
        ∀ s ∈ spots vis.toSelection none obj, (vis.call s).err = none := by
      rw [visitValues, map_err, follows.err_none]
      simp only [parts.mem_iff]
    rw [← selects]
    constructor
    · rintro ⟨ss, each, rfl⟩
      have ok : ∀ s ∈ spots vis.toSelection none obj, (vis.call s).err = none := by
        intro s member
        obtain ⟨i, inside, rfl⟩ := List.getElem_of_mem member
        exact ((spotTo_iff orders.events).mp (each.get inside (each.length_eq ▸ inside))).1
      have values : ss = (spots vis.toSelection none obj).map fun s => (vis.call s).value := by
        refine (List.forall₂_eq_eq_eq ▸ List.forall₂_map_left_iff.mpr (each.imp ?_)).symm
        exact fun s s' becomes => ((spotTo_iff orders.events).mp becomes).2
      refine ⟨fine.mpr ok, ?_⟩
      rw [visitValues, map_value, updateIn_ok (orders.messages.complete obj _) ok, values]
    · rintro ⟨ok, rfl⟩
      have ok' := fine.mp ok
      rw [visitValues, map_value, updateIn_ok (orders.messages.complete obj _) ok']
      refine ⟨_, List.forall₂_map_right_iff.mpr (List.forall₂_same.mpr fun s member => ?_), rfl⟩
      exact (spotTo_iff orders.events).mpr ⟨ok' s member, rfl⟩

theorem translate_follows (orders : Orders β) (obj : Value β) :
    Follows (tr.visitor codec orders.events dir).handle (visits tr orders.messages obj) obj
      (tr.translate codec orders dir obj) := by
  rw [translate_eq, visits]
  split
  · exact .keep obj
  · rw [← visitor_selection codec orders.events dir tr]
    exact visit_follows visitor_steady orders.messages obj

theorem visitor_clean (p : Place β) (failed : ((tr.visitor codec order dir).handle p).err ≠ none) :
    ((tr.visitor codec order dir).handle p).value = p :=
  handle_clean p (fun s => (name_done s).1) (fun fields => (fields_done fields).1) failed

theorem stops_fails {orders : Orders β} {obj : Value β}
    (stops : StopsUntouched codec dir tr orders.messages obj) :
    (tr.translate codec orders dir obj).err ≠ none := by
  obtain ⟨before, p, after, split, _, failed⟩ := stops
  intro ok
  have fine := (translate_follows orders obj).err_none.mp ok p (by rw [split]; simp)
  exact failed _ ((placeTo_iff orders.events).mpr ⟨fine, rfl⟩)

theorem unchanged_iff {orders : Orders β} {obj : Value β}
    (failed : (tr.translate codec orders dir obj).err ≠ none) :
    (tr.translate codec orders dir obj).value = obj ↔
      StopsUntouched codec dir tr orders.messages obj := by
  have follows : Follows (tr.visitor codec orders.events dir).handle _ obj
    (tr.translate codec orders dir obj) := translate_follows orders obj
  rw [follows.unchanged, updateAll_unchanged visitor_clean]
  constructor
  · intro still
    rw [follows.err] at failed
    obtain ⟨before, p, after, split, ok, stops⟩ := exists_failed failed
    rw [split, reached_before ok stops] at still
    refine ⟨before, p, after, split, fun q member => ?_, fun p' becomes => ?_⟩
    · exact (placeTo_iff orders.events).mpr ⟨ok q member, still q member⟩
    · exact stops ((placeTo_iff orders.events).mp becomes).1
  · rintro ⟨before, p, after, split, still, bad⟩
    have kept (q : Place β) (member : q ∈ before) := (placeTo_iff orders.events).mp (still q member)
    have stops : ((tr.visitor codec orders.events dir).handle p).err ≠ none :=
      fun fine => bad _ ((placeTo_iff orders.events).mpr ⟨fine, rfl⟩)
    rw [split, reached_before (fun q member => (kept q member).1) stops]
    exact fun q member => (kept q member).2

end OneTranslator

/- The condition follows the message from one translator to the next. -/
theorem log_all_or_nothing_iff (codec : Codec β) (orders : Nat → Orders β) (dir : Direction)
    (translators : List Translator) (obj : Value β) :
    (∀ stage ∈ (translateAll codec orders dir translators obj).2, stage.AllOrNothing codec dir) ↔
      Untorn codec orders dir translators obj := by
  induction translators generalizing orders obj with
  | nil => simp [translateAll, Untorn]
  | cons tr rest ih =>
    have later := ih (fun k => orders (k + 1)) (tr.translate codec (orders 0) dir obj).value
    refine (List.forall_mem_cons.trans (and_congr_right fun _ => later)).trans ?_
    simp only [Untorn, Stage.AllOrNothing]
    by_cases ok : (tr.translate codec (orders 0) dir obj).err = none
    · have made := (translates_iff (orders 0)).mpr ⟨ok, rfl⟩
      constructor
      · rintro ⟨_, rest⟩
        exact .inl ⟨_, made, rest⟩
      · rintro (⟨obj', full, rest⟩ | ⟨stops, _⟩)
        · obtain ⟨_, rfl⟩ := (translates_iff (orders 0)).mp full
          exact ⟨.inl made, rest⟩
        · exact absurd ok (stops_fails stops)
    · have never : ∀ obj', ¬ FullyTranslates codec dir tr obj obj' :=
        fun obj' full => ok ((translates_iff (orders 0)).mp full).1
      constructor
      · rintro ⟨full | same, rest⟩
        · exact absurd full (never _)
        · rw [same] at rest
          exact .inr ⟨(unchanged_iff ok).mp same, rest⟩
      · rintro (⟨obj', full, _⟩ | ⟨stops, rest⟩)
        · exact absurd full (never obj')
        · have same := (unchanged_iff ok).mpr stops
          rw [same]
          exact ⟨.inr rfl, rest⟩

def batchesRequest (blobs : List (Option (Children Empty))) : Value (Option (Children Empty)) :=
  .message "*adminservice.ImportWorkflowExecutionRequest"
    (.cons (exportedField "HistoryBatches") (.dataBlobs (blobs.map some)) .empty)

/-- Three blobs; the second cannot be decoded. -/
def tornRequest (first third : String) : Value (Option (Children Empty)) :=
  batchesRequest [some (startedEvents first), none, some (startedEvents third)]

theorem started_translated (order : Order Empty) :
    translateOneDataBlob sampleCodec (visitNamespaceEvents order (createStringMatcher sampleMap))
        (some (startedEvents "local")) = ⟨some (startedEvents "remote"), true, false, none⟩ := by
  have read : readEvents sampleCodec (some (startedEvents "local")) =
      (startedEvents "local", false, none) := rfl
  have named : namesMatched sampleMap (startedEvents "local") = true := by decide +kernel
  have renamed : translatedEvents sampleMap (startedEvents "local") = startedEvents "remote" := rfl
  rw [translateOne_read rfl read (events_err order _ _), writeEvents, events_namesMatched, named,
    events_translated, renamed]
  rfl

/- The list of blobs is one value of the message, so it is the same in every order. -/
theorem sample_half_translated (orders : Orders (Option (Children Empty))) :
    (Translator.namespaceName sampleMap ∅).translate sampleCodec orders .request
        (tornRequest "local" "local") =
      ⟨tornRequest "remote" "local", true, some "unknown encoding type"⟩ := by
  have unread : translateOneDataBlob sampleCodec
      (visitNamespaceEvents orders.events (createStringMatcher sampleMap)) none =
        ⟨none, false, false, some "unknown encoding type"⟩ :=
    translateOne_failed rfl sample_unreadable
  have first : orders.messages.arrange (tornRequest "local" "local") 1 = [0] :=
    List.perm_singleton.mp (orders.messages.complete _ 1)
  have listed : spots namespaceSelection none (tornRequest "local" "local") =
    [.blobs [some (some (startedEvents "local")), some none, some (some (startedEvents "local"))]] := rfl
  have walked : (Translator.namespaceName sampleMap ∅).passesOver (tornRequest "local" "local") = false := rfl
  have selects : ((Translator.namespaceName sampleMap ∅).visitor sampleCodec orders.events
    .request).toSelection = namespaceSelection := rfl
  have calls (bs : List (Option (Option (Children Empty)))) :
      ((Translator.namespaceName sampleMap ∅).visitor sampleCodec orders.events .request).call
          (.blobs bs) =
        (visitDataBlobs (translateOneDataBlob sampleCodec
          (visitNamespaceEvents orders.events (createStringMatcher sampleMap))) bs).map .blobs := rfl
  rw [translate_eq, walked, if_neg (by simp), visitValues]
  simp only [selects, listed, List.length_singleton, first, updateIn, List.getElem?_cons_zero, calls,
    visitDataBlobs, translateDataBlobs, started_translated, unread, Outcome.map]
  rfl

/- In whatever order the fields are visited. -/
theorem torn_request_passed_on (orders : Nat → Orders (Option (Children Empty))) :
    ∃ stage, handlerRequest sampleCodec orders false [.namespaceName sampleMap ∅]
          ⟨.admin, "ImportWorkflowExecution"⟩ (tornRequest "local" "local") =
        (tornRequest "remote" "local", [stage]) ∧
      ¬ stage.AllOrNothing sampleCodec .request := by
  have half := sample_half_translated (orders 0)
  have active : activeTranslators false [.namespaceName sampleMap ∅]
      ⟨.admin, "ImportWorkflowExecution"⟩ = [.namespaceName sampleMap ∅] := rfl
  refine ⟨⟨.namespaceName sampleMap ∅, tornRequest "local" "local",
    (Translator.namespaceName sampleMap ∅).translate sampleCodec (orders 0) .request
      (tornRequest "local" "local")⟩, ?_, ?_⟩
  · simp [handlerRequest, active, translateAll, half]
  · rintro (full | same)
    · have fine := ((translates_iff (orders 0)).mp full).1
      rw [half] at fine
      cases fine
    · rw [half] at same
      simp [tornRequest, batchesRequest, startedEvents] at same

end TranslationInterceptor
