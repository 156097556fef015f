import S2SProxy.VisitPlaces

/- Every namespace name in a message, and whether visitNamespace gets to see it. What it sees
   are the names at the places of its walk. The others stand in events or lists that are
   skipped, in a NamespaceInfo that no struct field holds, in a blob that is passed on without
   being read, or were lost when a blob was read. -/
namespace MessageVisitor
open MessageTree StoppingUpdate
variable {β : Type}

inductive Sight where
  | visited
  | skipped
  | bare
  | unread
  | lost
  deriving DecidableEq

structure Occurrence where
  name : String
  sight : Sight
  deriving DecidableEq

mutual
/-- The names below a value that is itself in the given sight. -/
def occurrences (contents : Sight → β → List Occurrence) (sight : Sight)
    (slot : Option StructField) : Value β → List Occurrence
  | .scalar _ _ => []
  | .nil => []
  | .str s => if inFields namespaceFieldNames slot then [⟨s, sight⟩] else []
  | .dataBlob blob => if inFields dataBlobFieldNames slot then contents sight blob else []
  | .dataBlobs blobs =>
    if inFields dataBlobFieldNames slot then blobs.reduceOption.flatMap (contents sight) else []
  | .payloads _ => []
  | .searchAttributes _ => []
  | .namespaceInfo name rest =>
    ⟨name, if slot.isSome then sight else .bare⟩ :: childOccurrences contents sight never rest
  | .history events =>
    childOccurrences contents sight
      (if slot.isSome then isSkippableForNamespaceTranslation else never) events
  | .historyEvent _ rest => childOccurrences contents sight never rest
  | .message _ fields => childOccurrences contents sight never fields
  | .list _ elements => childOccurrences contents sight never elements
def childOccurrences (contents : Sight → β → List Occurrence) (sight : Sight)
    (skip : Value β → Bool) : Children β → List Occurrence
  | .empty => []
  | .cons slot v rest =>
    (if unexported slot then []
      else occurrences contents (if skip v then .skipped else sight) slot v) ++
      childOccurrences contents sight skip rest
end

def eventOccurrences (sight : Sight) (events : Children Empty) : List Occurrence :=
  childOccurrences (fun _ => Empty.elim) sight never events

/-- The blob has invalid utf-8 and nothing in it was repaired. -/
def passedUnread (codec : Codec β) (blob : β) : Bool :=
  match codec.deserializeEvents blob with
  | .ok _ => false
  | .error _ => !(readEvents codec blob).2.1

def blobSight (codec : Codec β) (sight : Sight) (blob : β) : Sight :=
  if passedUnread codec blob then .unread
  else if isSkippableForNamespaceTranslation (.list historyEventsType (readEvents codec blob).1) then
    .skipped
  else sight

/-- The names in the events that a blob stands for. -/
def blobOccurrences (codec : Codec β) (stored : β → Children Empty) (sight : Sight) (blob : β) :
    List Occurrence :=
  eventOccurrences (blobSight codec sight blob) (stored blob)

def messageOccurrences (codec : Codec β) (stored : β → Children Empty) (obj : Value β) :
    List Occurrence :=
  occurrences (blobOccurrences codec stored)
    (if isSkippableForNamespaceTranslation obj then .skipped else .visited) none obj

def visible (occs : List Occurrence) : List String :=
  (occs.filter fun o => o.sight = .visited).map Occurrence.name

@[simp] theorem visible_nil : visible [] = [] := rfl

@[simp] theorem visible_append (xs ys : List Occurrence) :
    visible (xs ++ ys) = visible xs ++ visible ys := by
  simp [visible]

theorem mem_visible {occs : List Occurrence} {n : String} :
    n ∈ visible occs ↔ ∃ o ∈ occs, o.sight = .visited ∧ o.name = n := by
  simp [visible, and_assoc]

theorem visible_flatMap {α : Type} (xs : List α) (f : α → List Occurrence) :
    visible (xs.flatMap f) = xs.flatMap fun x => visible (f x) := by
  induction xs with
  | nil => rfl
  | cons x rest ih => simp [ih]

@[simp] theorem unhandled_namespace (slot : Option StructField) (v : Value β) :
    unhandled namespaceSelection slot v = none := by
  cases slot <;> simp [unhandled, namespaceSelection, inFields]

section Hidden
variable {contents : Sight → β → List Occurrence}

mutual
theorem occurrences_hidden (hidden : ∀ sight b, sight ≠ .visited → visible (contents sight b) = [])
    (sight : Sight) (unseen : sight ≠ .visited) (slot : Option StructField) :
    ∀ v : Value β, visible (occurrences contents sight slot v) = []
  | .scalar _ _ => rfl
  | .nil => rfl
  | .str s => by
    rw [occurrences]
    split <;> simp [visible, unseen]
  | .dataBlob blob => by
    rw [occurrences]
    split
    · exact hidden sight blob unseen
    · rfl
  | .dataBlobs blobs => by
    rw [occurrences]
    split
    · rw [visible_flatMap]
      simp [hidden sight _ unseen]
    · rfl
  | .payloads _ => rfl
  | .searchAttributes _ => rfl
  | .namespaceInfo name rest => by
    have tail := childOccurrences_hidden hidden sight unseen never rest
    rw [occurrences]
    cases slot <;> simpa [visible, unseen] using tail
  | .history events => childOccurrences_hidden hidden sight unseen _ events
  | .historyEvent _ rest => childOccurrences_hidden hidden sight unseen never rest
  | .message _ fields => childOccurrences_hidden hidden sight unseen never fields
  | .list _ elements => childOccurrences_hidden hidden sight unseen never elements
theorem childOccurrences_hidden
    (hidden : ∀ sight b, sight ≠ .visited → visible (contents sight b) = [])
    (sight : Sight) (unseen : sight ≠ .visited) (skip : Value β → Bool) :
    ∀ cs : Children β, visible (childOccurrences contents sight skip cs) = []
  | .empty => rfl
  | .cons slot v rest => by
    rw [childOccurrences, visible_append, childOccurrences_hidden hidden sight unseen skip rest,
      List.append_nil]
    split
    · rfl
    · split
      · exact occurrences_hidden hidden .skipped (by simp) slot v
      · exact occurrences_hidden hidden sight unseen slot v
end

/-- The names that are seen at a place. -/
def Place.names (contents : Sight → β → List Occurrence) : Place β → List String
  | .string s => [s]
  | .blob b => visible (contents .visited b)
  | _ => []

mutual
/- What is seen of a message is what is seen at the places of the walk. -/
theorem visible_places (hidden : ∀ sight b, sight ≠ .visited → visible (contents sight b) = [])
    (slot : Option StructField) :
    ∀ v : Value β, visible (occurrences contents .visited slot v) =
      (places namespaceSelection slot v).flatMap (Place.names contents)
  | .scalar _ _ => rfl
  | .nil => rfl
  | .str s => by
    rw [occurrences, places]
    by_cases named : inFields namespaceFieldNames slot <;>
      simp [namespaceSelection, named, visible, Place.names]
  | .dataBlob blob => by
    rw [occurrences, places]
    split <;> simp [Place.names]
  | .dataBlobs blobs => by
    rw [occurrences, places]
    split
    · simp [blobPlaces, visible_flatMap, List.flatMap_map, Place.names]
    · rfl
  | .payloads _ => by cases slot <;> simp [occurrences, places, namespaceSelection, inFields]
  | .searchAttributes _ => by cases slot <;> simp [occurrences, places, namespaceSelection, inFields]
  | .namespaceInfo name rest => by
    have tail := childVisible_places hidden never rest
    rw [occurrences, places, List.flatMap_append, ← tail]
    cases slot <;> simp [visible, namespaceSelection, Place.names]
  | .history events => by
    rw [occurrences, places]
    exact childVisible_places hidden _ events
  | .historyEvent _ rest => childVisible_places hidden never rest
  | .message _ fields => childVisible_places hidden never fields
  | .list _ elements => childVisible_places hidden never elements
theorem childVisible_places
    (hidden : ∀ sight b, sight ≠ .visited → visible (contents sight b) = [])
    (skip : Value β → Bool) :
    ∀ cs : Children β, visible (childOccurrences contents .visited skip cs) =
      (childPlaces namespaceSelection skip cs).flatMap (Place.names contents)
  | .empty => rfl
  | .cons slot v rest => by
    rw [childOccurrences, childPlaces, visible_append, List.flatMap_append,
      childVisible_places hidden skip rest, unhandled_namespace]
    cases skipped : skip v with
    | true =>
      cases unexported slot <;> simp [occurrences_hidden hidden .skipped (by simp) slot v]
    | false => cases unexported slot <;> simp [visible_places hidden slot v]
end

end Hidden

theorem blobOccurrences_hidden (codec : Codec β) (stored : β → Children Empty) (sight : Sight)
    (blob : β) (unseen : sight ≠ .visited) : visible (blobOccurrences codec stored sight blob) = [] := by
  refine childOccurrences_hidden (fun _ b => b.elim) _ ?_ never _
  unfold blobSight
  split
  · simp
  · split
    · simp
    · exact unseen

mutual
theorem namespace_places {p : Place β} (slot : Option StructField) :
    ∀ v : Value β, p ∈ places namespaceSelection slot v → (∃ s, p = .string s) ∨ ∃ b, p = .blob b
  | .scalar _ _, member => nomatch member
  | .nil, member => nomatch member
  | .str s, member => by
    rw [places] at member
    split at member
    · exact .inl ⟨s, List.mem_singleton.mp member⟩
    · cases member
  | .dataBlob blob, member => by
    rw [places] at member
    split at member
    · exact .inr ⟨blob, List.mem_singleton.mp member⟩
    · cases member
  | .dataBlobs blobs, member => by
    rw [places] at member
    split at member
    · obtain ⟨b, _, rfl⟩ := List.mem_map.mp member
      exact .inr ⟨b, rfl⟩
    · cases member
  | .payloads _, member => by
    cases slot <;> simp [places, namespaceSelection, inFields] at member
  | .searchAttributes _, member => by
    cases slot <;> simp [places, namespaceSelection, inFields] at member
  | .namespaceInfo name rest, member => by
    rw [places] at member
    rcases List.mem_append.mp member with own | below
    · split at own
      · exact .inl ⟨name, List.mem_singleton.mp own⟩
      · cases own
    · exact namespace_childPlaces never rest below
  | .history events, member => namespace_childPlaces _ events member
  | .historyEvent _ rest, member => namespace_childPlaces never rest member
  | .message _ fields, member => namespace_childPlaces never fields member
  | .list _ elements, member => namespace_childPlaces never elements member
theorem namespace_childPlaces {p : Place β} (skip : Value β → Bool) :
    ∀ cs : Children β, p ∈ childPlaces namespaceSelection skip cs →
      (∃ s, p = .string s) ∨ ∃ b, p = .blob b
  | .empty, member => nomatch member
  | .cons slot v rest, member => by
    rw [childPlaces, unhandled_namespace] at member
    rcases List.mem_append.mp member with own | below
    · split at own
      · cases own
      · exact namespace_places slot v own
    · exact namespace_childPlaces skip rest below
end

theorem matchName_err (matcher : StringMatcher) (name : String) :
    (matchName matcher name).err = none := by
  unfold matchName
  split <;> rfl

theorem matchName_matched (matcher : StringMatcher) (name : String) :
    (matchName matcher name).matched = (matcher name).2 := by
  unfold matchName
  split <;> simp_all [keep]

theorem matchName_unmatched {matcher : StringMatcher} {n : String}
    (unmatched : (matchName matcher n).matched = false) : (matchName matcher n).value = n := by
  unfold matchName at unmatched ⊢
  split at unmatched
  · simp_all [keep]
  · exact absurd unmatched (by simp)

section Walk
variable {contents : Sight → β → List Occurrence} {translateOne : β → Translated β}

theorem namespace_follows (steady : Steady translateOne) (matcher : StringMatcher)
    (slot : Option StructField) (v : Value β) :
    Follows (namespaceVisitor translateOne matcher).handle (places namespaceSelection slot v) v
      (walk (namespaceVisitor translateOne matcher) slot v) :=
  walk_follows steady slot v

theorem namespace_visit_follows (steady : Steady translateOne) (matcher : StringMatcher)
    (order : Order β) (v : Value β) :
    Follows (namespaceVisitor translateOne matcher).handle (visitedPlaces order namespaceSelection v) v
      (visitValues order (namespaceVisitor translateOne matcher) v) :=
  visit_follows steady order v

/- Only a blob can fail. -/
theorem namespace_walk_ok (steady : Steady translateOne) (matcher : StringMatcher)
    {slot : Option StructField} {v : Value β} :
    (walk (namespaceVisitor translateOne matcher) slot v).err = none ↔
      ∀ b, .blob b ∈ places namespaceSelection slot v → (translateOne b).err = none := by
  have blobErr (b : β) :
      ((namespaceVisitor translateOne matcher).handle (.blob b)).err = (translateOne b).err :=
    (visitDataBlob_flags translateOne b).1
  rw [(walk_follows steady slot v).err, updateAll_err_none]
  constructor
  · intro ok b member
    rw [← blobErr]
    exact ok _ member
  · intro ok p member
    rcases namespace_places slot v member with ⟨s, rfl⟩ | ⟨b, rfl⟩
    · exact matchName_err matcher s
    · rw [blobErr]
      exact ok b member

/- A visit in which no blob fails is the walk. -/
theorem namespace_visit_eq_walk (steady : Steady translateOne) (matcher : StringMatcher)
    (order : Order β) {v : Value β}
    (ok : ∀ b, .blob b ∈ places namespaceSelection none v → (translateOne b).err = none) :
    visitValues order (namespaceVisitor translateOne matcher) v =
      walk (namespaceVisitor translateOne matcher) none v :=
  visit_eq_walk steady order
    ((namespace_follows steady matcher none v).err_none.mp ((namespace_walk_ok steady matcher).mpr ok))

variable {matcher : StringMatcher}

theorem namespace_walk_matched (steady : Steady translateOne)
    (hidden : ∀ sight b, sight ≠ .visited → visible (contents sight b) = [])
    {slot : Option StructField} {v : Value β}
    (blobs : ∀ b, .blob b ∈ places namespaceSelection slot v →
      (translateOne b).matched = (visible (contents .visited b)).any fun n => (matcher n).2)
    (ok : (walk (namespaceVisitor translateOne matcher) slot v).err = none) :
    (walk (namespaceVisitor translateOne matcher) slot v).matched =
      (visible (occurrences contents .visited slot v)).any fun n => (matcher n).2 := by
  have follows := namespace_follows steady matcher slot v
  have allOk := (updateAll_err_none _).mp (follows.err.symm.trans ok)
  rw [follows.matched, updateAll_ok allOk, visible_places hidden, List.any_flatMap]
  rw [Bool.eq_iff_iff, List.any_eq_true, List.any_eq_true]
  refine exists_congr fun p => and_congr_right fun member => ?_
  rw [← Bool.eq_iff_iff]
  rcases namespace_places slot v member with ⟨s, rfl⟩ | ⟨b, rfl⟩
  · simpa [Visitor.handle, Place.names, namespaceVisitor] using matchName_matched matcher s
  · have fine := (namespace_walk_ok steady matcher).mp ok b member
    simp [Visitor.handle, Place.names, namespaceVisitor, visitDataBlob_value steady fine,
      blobs b member]

end Walk

theorem event_walk_ok (matcher : StringMatcher) (e : Event) :
    (walk (namespaceVisitor Empty.elim matcher) none e).err = none :=
  (namespace_walk_ok empty_steady matcher).mpr fun b => b.elim

theorem event_walk_unmatched {matcher : StringMatcher} {e : Event}
    (unmatched : (walk (namespaceVisitor Empty.elim matcher) none e).matched = false) :
    (walk (namespaceVisitor Empty.elim matcher) none e).value = e := by
  have ok := event_walk_ok matcher e
  have follows := namespace_follows empty_steady matcher none e
  have quiet := (updateAll_quiet _).mp ⟨follows.err.symm.trans ok, follows.matched.symm.trans unmatched⟩
  rw [follows.unchanged, updateAll_ok fun p member => (quiet p member).1]
  refine (List.map_congr_left fun p member => ?_).trans (List.map_id _)
  rcases namespace_places none e member with ⟨s, rfl⟩ | ⟨b, rfl⟩
  · exact congrArg Place.string (matchName_unmatched (quiet _ member).2)
  · exact b.elim

/- The visit of events does not fail, so its order does not matter. -/
theorem visitNamespaceEvents_eq (order : Order Empty) (matcher : StringMatcher) (e : Event) :
    visitNamespaceEvents order matcher e =
      if isSkippableForNamespaceTranslation e then keep e
      else walk (namespaceVisitor Empty.elim matcher) none e := by
  have ok := (walk_follows empty_steady none e).err_none.mp (event_walk_ok matcher e)
  rw [visitNamespaceEvents, visitNamespaceOver, visit_eq_walk empty_steady order ok]

theorem events_err (order : Order Empty) (matcher : StringMatcher) (e : Event) :
    (visitNamespaceEvents order matcher e).err = none := by
  rw [visitNamespaceEvents_eq]
  split
  · rfl
  · exact event_walk_ok matcher e

theorem events_matched (order : Order Empty) (matcher : StringMatcher) (events : Children Empty) :
    (visitNamespaceEvents order matcher (.list historyEventsType events)).matched =
      (visible (eventOccurrences
        (if isSkippableForNamespaceTranslation (.list historyEventsType events) then .skipped
          else .visited) events)).any fun n => (matcher n).2 := by
  rw [visitNamespaceEvents_eq]
  split
  · rw [eventOccurrences, childOccurrences_hidden (fun _ b => b.elim) .skipped (by simp)]
    rfl
  · exact namespace_walk_matched empty_steady (fun _ b => b.elim) (fun b => b.elim)
      (event_walk_ok matcher _)

end MessageVisitor
