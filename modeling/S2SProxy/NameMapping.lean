import S2SProxy.NameOccurrences

/- Replacing the names of a message. A walk of the namespace visitor that does not fail leaves
   the message with its names mapped, except below what it skips; where nothing below a
   skipped value is to be replaced, this is the message with all its names mapped. -/
namespace MessageVisitor
open MessageTree StoppingUpdate
variable {β : Type}

mutual
/-- The message with f applied to its names and g to its event blobs, except for the events of
    a History that are skipped. -/
def mapNames (skip : Value β → Bool) (f : String → String) (g : β → β)
    (slot : Option StructField) : Value β → Value β
  | .scalar type code => .scalar type code
  | .nil => .nil
  | .str s => .str (if inFields namespaceFieldNames slot then f s else s)
  | .dataBlob blob => .dataBlob (if inFields dataBlobFieldNames slot then g blob else blob)
  | .dataBlobs blobs =>
    .dataBlobs (if inFields dataBlobFieldNames slot then blobs.map (Option.map g) else blobs)
  | .payloads fields => .payloads fields
  | .searchAttributes indexedFields => .searchAttributes indexedFields
  | .namespaceInfo name rest =>
    .namespaceInfo (if slot.isSome then f name else name) (mapChildren skip never f g rest)
  | .history events => .history (mapChildren skip (if slot.isSome then skip else never) f g events)
  | .historyEvent eventType rest => .historyEvent eventType (mapChildren skip never f g rest)
  | .message type fields => .message type (mapChildren skip never f g fields)
  | .list type elements => .list type (mapChildren skip never f g elements)
def mapChildren (skip guard : Value β → Bool) (f : String → String) (g : β → β) :
    Children β → Children β
  | .empty => .empty
  | .cons slot v rest =>
    .cons slot (if guard v || unexported slot then v else mapNames skip f g slot v)
      (mapChildren skip guard f g rest)
end

section Walk
variable {translateOne : β → Translated β} {g : β → β}

theorem visitDataBlobs_value (blobs : List (Option β))
    (agree : ∀ b ∈ blobs.reduceOption,
      (translateOne b).err = none ∧ (translateOne b).result = g b) :
    (visitDataBlobs translateOne blobs).value = blobs.map (Option.map g) := by
  induction blobs with
  | nil => rfl
  | cons head rest ih =>
    cases head with
    | none =>
      have tail := ih agree
      simpa [visitDataBlobs, translateDataBlobs] using tail
    | some blob =>
      have tail := ih fun b member => agree b (List.mem_cons_of_mem blob member)
      obtain ⟨ok, result⟩ := agree blob List.mem_cons_self
      simp only [visitDataBlobs] at tail
      simp [visitDataBlobs, translateDataBlobs, ok, result, tail]

mutual
theorem walk_value (steady : Steady translateOne) (matcher : StringMatcher)
    (slot : Option StructField) :
    ∀ v : Value β, (∀ b, .blob b ∈ places namespaceSelection slot v →
        (translateOne b).err = none ∧ (translateOne b).result = g b) →
      (walk (namespaceVisitor translateOne matcher) slot v).value =
        mapNames isSkippableForNamespaceTranslation (fun n => (matchName matcher n).value) g slot v
  | .scalar _ _, _ => rfl
  | .nil, _ => rfl
  | .str s, _ => by
    by_cases named : inFields namespaceFieldNames slot <;>
      simp [walk, mapNames, namespaceVisitor, namespaceSelection, named, keep]
  | .dataBlob blob, agree => by
    by_cases listed : inFields dataBlobFieldNames slot
    · obtain ⟨ok, result⟩ := agree blob (by simp [places, listed])
      simp [walk, mapNames, namespaceVisitor, listed, visitDataBlob_value steady ok, result]
    · simp [walk, mapNames, listed, keep]
  | .dataBlobs blobs, agree => by
    by_cases listed : inFields dataBlobFieldNames slot
    · have all := visitDataBlobs_value (g := g) blobs
        fun b member => agree b (by simpa [places, listed, blobPlaces] using member)
      simp [walk, mapNames, namespaceVisitor, listed, all]
    · simp [walk, mapNames, listed, keep]
  | .payloads _, _ => by
    cases slot <;> simp [walk, mapNames, namespaceVisitor, namespaceSelection, inFields, keep]
  | .searchAttributes _, _ => by
    cases slot <;> simp [walk, mapNames, namespaceVisitor, namespaceSelection, inFields, keep]
  | .namespaceInfo name rest, agree => by
    have below := walkChildren_value steady matcher never rest fun b member =>
      agree b (by simp [places, member])
    have named : (if slot.isSome && (namespaceVisitor translateOne matcher).namespaceInfo then
        (namespaceVisitor translateOne matcher).onString name else keep name : Visited String).err =
          none := by
      split
      · exact matchName_err matcher name
      · rfl
    rw [walk, mapNames, map_value, both_of_ok named, below]
    cases slot <;> rfl
  | .history events, agree => by
    rw [walk, mapNames, map_value]
    exact congrArg Value.history (walkChildren_value steady matcher _ events agree)
  | .historyEvent eventType rest, agree => by
    rw [walk, mapNames, map_value, walkChildren_value steady matcher never rest agree]
  | .message type fields, agree => by
    rw [walk, mapNames, map_value, walkChildren_value steady matcher never fields agree]
  | .list type elements, agree => by
    rw [walk, mapNames, map_value, walkChildren_value steady matcher never elements agree]
theorem walkChildren_value (steady : Steady translateOne) (matcher : StringMatcher)
    (guard : Value β → Bool) :
    ∀ cs : Children β, (∀ b, .blob b ∈ childPlaces namespaceSelection guard cs →
        (translateOne b).err = none ∧ (translateOne b).result = g b) →
      (walkChildren (namespaceVisitor translateOne matcher) guard cs).value =
        mapChildren isSkippableForNamespaceTranslation guard
          (fun n => (matchName matcher n).value) g cs
  | .empty, _ => rfl
  | .cons slot v rest, agree => by
    have rest_value := walkChildren_value steady matcher guard rest fun b member =>
      agree b (by simp [childPlaces, member])
    rw [walkChildren, mapChildren, map_value]
    cases hidden : guard v || unexported slot with
    | true => simp [both_of_ok, keep, rest_value]
    | false =>
      have here : ∀ b, .blob b ∈ places namespaceSelection slot v →
          (translateOne b).err = none ∧ (translateOne b).result = g b := fun b member =>
        agree b (by simp [childPlaces, hidden, member])
      have ok : (walk (namespaceVisitor translateOne matcher) slot v).err = none :=
        (namespace_walk_ok steady matcher).mpr fun b member => (here b member).1
      have handled : unhandled (namespaceVisitor translateOne matcher).toSelection slot v = none :=
        unhandled_namespace slot v
      simp [handled, both_of_ok ok, rest_value, walk_value steady matcher slot v here]
end

end Walk

theorem events_value (order : Order Empty) (matcher : StringMatcher) {e : Event}
    (walked : isSkippableForNamespaceTranslation e = false) :
    (visitNamespaceEvents order matcher e).value =
      mapNames isSkippableForNamespaceTranslation (fun n => (matchName matcher n).value) id none e := by
  rw [visitNamespaceEvents_eq, walked, if_neg (by simp)]
  exact walk_value empty_steady matcher none e fun b => b.elim

section Plain
variable {contents : Sight → β → List Occurrence} {f : String → String} {g : β → β}
  {fixed : String → Prop}

/-- Occurrences are in the sight they were reached in, skipped or bare. -/
def SightOf (s : Sight) (o : Occurrence) : Prop :=
  o.sight = s ∨ o.sight = .skipped ∨ o.sight = .bare

mutual
theorem occurrences_sight (sights : ∀ s b, ∀ o ∈ contents s b, SightOf s o) (s : Sight)
    (slot : Option StructField) :
    ∀ v : Value β, ∀ o ∈ occurrences contents s slot v, SightOf s o
  | .scalar _ _, _, member => nomatch member
  | .nil, _, member => nomatch member
  | .str t, o, member => by
    rw [occurrences] at member
    split at member
    · exact .inl (congrArg Occurrence.sight (List.mem_singleton.mp member))
    · cases member
  | .dataBlob blob, o, member => by
    rw [occurrences] at member
    split at member
    · exact sights s blob o member
    · cases member
  | .dataBlobs blobs, o, member => by
    rw [occurrences] at member
    split at member
    · obtain ⟨b, _, here⟩ := List.mem_flatMap.mp member
      exact sights s b o here
    · cases member
  | .payloads _, _, member => nomatch member
  | .searchAttributes _, _, member => nomatch member
  | .namespaceInfo name rest, o, member => by
    rw [occurrences] at member
    rcases List.mem_cons.mp member with rfl | below
    · cases slot
      · exact .inr (.inr rfl)
      · exact .inl rfl
    · exact childOccurrences_sight sights s never rest o below
  | .history events, o, member => childOccurrences_sight sights s _ events o member
  | .historyEvent _ rest, o, member => childOccurrences_sight sights s never rest o member
  | .message _ fields, o, member => childOccurrences_sight sights s never fields o member
  | .list _ elements, o, member => childOccurrences_sight sights s never elements o member
theorem childOccurrences_sight (sights : ∀ s b, ∀ o ∈ contents s b, SightOf s o) (s : Sight)
    (guard : Value β → Bool) :
    ∀ cs : Children β, ∀ o ∈ childOccurrences contents s guard cs, SightOf s o
  | .empty, _, member => nomatch member
  | .cons slot v rest, o, member => by
    rw [childOccurrences] at member
    rcases List.mem_append.mp member with own | below
    · split at own
      · cases own
      · split at own
        · exact .inr ((occurrences_sight sights .skipped slot v o own).elim .inl id)
        · exact occurrences_sight sights s slot v o own
    · exact childOccurrences_sight sights s guard rest o below
end

def Fixed (fixed : String → Prop) (o : Occurrence) : Prop := o.sight = .bare ∨ fixed o.name

mutual
/- A message whose names stay as they are stays as it is. -/
theorem mapNames_fixed (still : ∀ n, fixed n → f n = n)
    (blobs : ∀ s b, s ≠ .bare → (∀ o ∈ contents s b, Fixed fixed o) → g b = b) (s : Sight)
    (reached : s ≠ .bare) (slot : Option StructField) :
    ∀ v : Value β, (∀ o ∈ occurrences contents s slot v, Fixed fixed o) →
      mapNames never f g slot v = v
  | .scalar _ _, _ => rfl
  | .nil, _ => rfl
  | .str t, stays => by
    rw [mapNames]
    split
    · next named =>
      have same := stays ⟨t, s⟩ (by simp [occurrences, named])
      exact congrArg Value.str (still t (same.resolve_left reached))
    · rfl
  | .dataBlob blob, stays => by
    rw [mapNames]
    split
    · next listed => rw [blobs s blob reached (by simpa [occurrences, listed] using stays)]
    · rfl
  | .dataBlobs bs, stays => by
    rw [mapNames]
    split
    · next listed =>
      simp only [occurrences, listed, ↓reduceIte] at stays
      refine congrArg Value.dataBlobs ?_
      refine (List.map_congr_left fun o member => ?_).trans (List.map_id bs)
      cases o with
      | none => rfl
      | some b =>
        have inside : b ∈ bs.reduceOption := List.reduceOption_mem_iff.mpr member
        exact congrArg some (blobs s b reached fun o here => stays o (List.mem_flatMap.mpr ⟨b, inside, here⟩))
    · rfl
  | .payloads _, _ => rfl
  | .searchAttributes _, _ => rfl
  | .namespaceInfo name rest, stays => by
    have below := mapChildren_fixed still blobs s reached never rest fun o member =>
      stays o (by simp [occurrences, member])
    rw [mapNames, below]
    cases slot with
    | none => rfl
    | some field =>
      have same := stays ⟨name, s⟩ (by simp [occurrences])
      simp [still name (same.resolve_left reached)]
  | .history events, stays => by
    rw [mapNames, ite_self]
    exact congrArg Value.history (mapChildren_fixed still blobs s reached _ events stays)
  | .historyEvent eventType rest, stays => by
    rw [mapNames, mapChildren_fixed still blobs s reached never rest stays]
  | .message type fields, stays => by
    rw [mapNames, mapChildren_fixed still blobs s reached never fields stays]
  | .list type elements, stays => by
    rw [mapNames, mapChildren_fixed still blobs s reached never elements stays]
theorem mapChildren_fixed (still : ∀ n, fixed n → f n = n)
    (blobs : ∀ s b, s ≠ .bare → (∀ o ∈ contents s b, Fixed fixed o) → g b = b) (s : Sight)
    (reached : s ≠ .bare) (guard : Value β → Bool) :
    ∀ cs : Children β, (∀ o ∈ childOccurrences contents s guard cs, Fixed fixed o) →
      mapChildren never never f g cs = cs
  | .empty, _ => rfl
  | .cons slot v rest, stays => by
    have below := mapChildren_fixed still blobs s reached guard rest fun o member =>
      stays o (by simp [childOccurrences, member])
    rw [mapChildren, below]
    cases hidden : unexported slot with
    | true => simp
    | false =>
      have here : mapNames never f g slot v = v := by
        cases skipped : guard v with
        | true =>
          exact mapNames_fixed still blobs .skipped (by simp) slot v fun o member =>
            stays o (by simp [childOccurrences, hidden, skipped, member])
        | false =>
          exact mapNames_fixed still blobs s reached slot v fun o member =>
            stays o (by simp [childOccurrences, hidden, skipped, member])
      simp [never, here]
end

mutual
/- Where nothing that is skipped holds a name, skipping makes no difference. -/
theorem mapNames_plain (still : ∀ n, fixed n → f n = n)
    (blobs : ∀ s b, s ≠ .bare → (∀ o ∈ contents s b, Fixed fixed o) → g b = b)
    (sights : ∀ s b, ∀ o ∈ contents s b, SightOf s o) (s : Sight) (slot : Option StructField) :
    ∀ v : Value β, (∀ o ∈ occurrences contents s slot v, o.sight ≠ .skipped) →
      mapNames isSkippableForNamespaceTranslation f g slot v = mapNames never f g slot v
  | .scalar _ _, _ => rfl
  | .nil, _ => rfl
  | .str _, _ => rfl
  | .dataBlob _, _ => rfl
  | .dataBlobs _, _ => rfl
  | .payloads _, _ => rfl
  | .searchAttributes _, _ => rfl
  | .namespaceInfo name rest, plain => by
    have below := mapChildren_plain still blobs sights s never rest fun o member =>
      plain o (by simp [occurrences, member])
    rw [mapNames, mapNames, below]
  | .history events, plain => by
    rw [mapNames, mapNames, ite_self]
    exact congrArg Value.history (mapChildren_plain still blobs sights s _ events plain)
  | .historyEvent eventType rest, plain => by
    rw [mapNames, mapNames, mapChildren_plain still blobs sights s never rest plain]
  | .message type fields, plain => by
    rw [mapNames, mapNames, mapChildren_plain still blobs sights s never fields plain]
  | .list type elements, plain => by
    rw [mapNames, mapNames, mapChildren_plain still blobs sights s never elements plain]
theorem mapChildren_plain (still : ∀ n, fixed n → f n = n)
    (blobs : ∀ s b, s ≠ .bare → (∀ o ∈ contents s b, Fixed fixed o) → g b = b)
    (sights : ∀ s b, ∀ o ∈ contents s b, SightOf s o) (s : Sight) (guard : Value β → Bool) :
    ∀ cs : Children β, (∀ o ∈ childOccurrences contents s guard cs, o.sight ≠ .skipped) →
      mapChildren isSkippableForNamespaceTranslation guard f g cs = mapChildren never never f g cs
  | .empty, _ => rfl
  | .cons slot v rest, plain => by
    have below := mapChildren_plain still blobs sights s guard rest fun o member =>
      plain o (by simp [childOccurrences, member])
    rw [mapChildren, mapChildren, below]
    cases hidden : unexported slot with
    | true => simp
    | false =>
      cases skipped : guard v with
      | true =>
        have bare : ∀ o ∈ occurrences contents .skipped slot v, o.sight = .bare := by
          intro o member
          have unskipped := plain o (by simp [childOccurrences, hidden, skipped, member])
          have sight := occurrences_sight sights .skipped slot v o member
          exact (sight.resolve_left unskipped).resolve_left unskipped
        have kept := mapNames_fixed still blobs .skipped (by simp) slot v fun o member =>
          .inl (bare o member)
        simp [never, kept]
      | false =>
        have here := mapNames_plain still blobs sights s slot v fun o member =>
          plain o (by simp [childOccurrences, hidden, skipped, member])
        simp [never, here]
end

mutual
theorem contents_subset {b : β} {o : Occurrence} (inside : o ∈ contents .visited b)
    (slot : Option StructField) :
    ∀ v : Value β, .blob b ∈ places namespaceSelection slot v →
      o ∈ occurrences contents .visited slot v
  | .scalar _ _, member => nomatch member
  | .nil, member => nomatch member
  | .str s, member => by
    rw [places] at member
    split at member <;> simp at member
  | .dataBlob blob, member => by
    rw [places] at member
    split at member
    · next listed =>
      cases List.mem_singleton.mp member
      simpa [occurrences, listed] using inside
    · cases member
  | .dataBlobs blobs, member => by
    rw [places] at member
    split at member
    · next listed =>
      obtain ⟨b', here, same⟩ := List.mem_map.mp member
      cases same
      simp only [occurrences, listed, ↓reduceIte]
      exact List.mem_flatMap.mpr ⟨b, here, inside⟩
    · cases member
  | .payloads _, member => by
    cases slot <;> simp [places, namespaceSelection, inFields] at member
  | .searchAttributes _, member => by
    cases slot <;> simp [places, namespaceSelection, inFields] at member
  | .namespaceInfo name rest, member => by
    rw [places] at member
    rcases List.mem_append.mp member with own | below
    · split at own <;> simp at own
    · exact List.mem_cons_of_mem _ (childContents_subset inside never rest below)
  | .history events, member => childContents_subset inside _ events member
  | .historyEvent _ rest, member => childContents_subset inside never rest member
  | .message _ fields, member => childContents_subset inside never fields member
  | .list _ elements, member => childContents_subset inside never elements member
theorem childContents_subset {b : β} {o : Occurrence} (inside : o ∈ contents .visited b)
    (guard : Value β → Bool) :
    ∀ cs : Children β, .blob b ∈ childPlaces namespaceSelection guard cs →
      o ∈ childOccurrences contents .visited guard cs
  | .empty, member => nomatch member
  | .cons slot v rest, member => by
    rw [childPlaces, unhandled_namespace] at member
    rw [childOccurrences]
    rcases List.mem_append.mp member with own | below
    · cases skipped : guard v <;> cases hidden : unexported slot <;> simp [skipped, hidden] at own
      simp [contents_subset inside slot v own]
    · exact List.mem_append_right _ (childContents_subset inside guard rest below)
end

def heldNames (occs : List Occurrence) : List String :=
  (occs.filter fun o => o.sight ≠ .bare).map Occurrence.name

theorem mem_heldNames {occs : List Occurrence} {n : String} :
    n ∈ heldNames occs ↔ ∃ o ∈ occs, o.sight ≠ .bare ∧ o.name = n := by
  simp [heldNames, and_assoc]

@[simp] theorem heldNames_append (xs ys : List Occurrence) :
    heldNames (xs ++ ys) = heldNames xs ++ heldNames ys := by
  simp [heldNames]

/- Where nothing is skipped, the names that are held are the names that are seen. -/
theorem heldNames_visible {occs : List Occurrence} (sights : ∀ o ∈ occs, SightOf .visited o)
    (plain : ∀ o ∈ occs, o.sight ≠ .skipped) : heldNames occs = visible occs := by
  refine congrArg (List.map Occurrence.name) (List.filter_congr fun o member => ?_)
  rcases sights o member with visited | skipped | bare
  · simp [visited]
  · exact absurd skipped (plain o member)
  · simp [bare]

theorem heldNames_nil {occs : List Occurrence} (sights : ∀ o ∈ occs, SightOf .skipped o)
    (plain : ∀ o ∈ occs, o.sight ≠ .skipped) : heldNames occs = [] := by
  rw [List.eq_nil_iff_forall_not_mem]
  intro n member
  obtain ⟨o, inside, held, _⟩ := mem_heldNames.mp member
  rcases sights o inside with skipped | skipped | bare
  · exact plain o inside skipped
  · exact plain o inside skipped
  · exact held bare

end Plain

mutual
/- Which names there are does not depend on the sight they are reached in. -/
theorem heldNames_sight (s s' : Sight) (held : s ≠ .bare) (held' : s' ≠ .bare)
    (slot : Option StructField) :
    ∀ v : Event, heldNames (occurrences (fun _ => Empty.elim) s slot v) =
      heldNames (occurrences (fun _ => Empty.elim) s' slot v)
  | .scalar _ _ => rfl
  | .nil => rfl
  | .str t => by
    rw [occurrences, occurrences]
    split <;> simp [heldNames, held, held']
  | .dataBlob blob => blob.elim
  | .dataBlobs blobs => by
    have none : blobs.reduceOption = [] := by
      rw [List.eq_nil_iff_forall_not_mem]
      exact fun b => b.elim
    simp [occurrences, none]
  | .payloads _ => rfl
  | .searchAttributes _ => rfl
  | .namespaceInfo name rest => by
    have below := childHeldNames_sight s s' held held' never rest
    rw [occurrences, occurrences]
    cases slot <;> simpa [heldNames, held, held'] using below
  | .history events => childHeldNames_sight s s' held held' _ events
  | .historyEvent _ rest => childHeldNames_sight s s' held held' never rest
  | .message _ fields => childHeldNames_sight s s' held held' never fields
  | .list _ elements => childHeldNames_sight s s' held held' never elements
theorem childHeldNames_sight (s s' : Sight) (held : s ≠ .bare) (held' : s' ≠ .bare)
    (guard : Event → Bool) :
    ∀ cs : Children Empty, heldNames (childOccurrences (fun _ => Empty.elim) s guard cs) =
      heldNames (childOccurrences (fun _ => Empty.elim) s' guard cs)
  | .empty => rfl
  | .cons slot v rest => by
    rw [childOccurrences, childOccurrences, heldNames_append, heldNames_append,
      childHeldNames_sight s s' held held' guard rest]
    cases unexported slot with
    | true => rfl
    | false =>
      cases guard v with
      | true => rfl
      | false => simp [heldNames_sight s s' held held' slot v]
end

end MessageVisitor
