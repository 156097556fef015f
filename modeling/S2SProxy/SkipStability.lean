import S2SProxy.NamespaceTranslation

/- Whether an event is skipped depends on its type and on the namespaces of its links. A
   mapping that sends no name to the empty one does not make an event skippable, so mapping
   the names of a message twice reaches the same places twice. -/
namespace MessageVisitor
open MessageTree StoppingUpdate
variable {β : Type}

/-- The second value is the first, or the first with its names mapped. -/
def Moved (f : String → String) (g : β → β) (v w : Value β) : Prop :=
  w = v ∨ ∃ slot, w = mapNames isSkippableForNamespaceTranslation f g slot v

def MovedChildren (f : String → String) (g : β → β) (cs ds : Children β) : Prop :=
  ds = cs ∨ ds = mapChildren isSkippableForNamespaceTranslation never f g cs

variable {f : String → String} {g : β → β}

theorem Moved.children {v w : Value β} (h : Moved f g v w) :
    MovedChildren f g v.children w.children := by
  rcases h with rfl | ⟨slot, rfl⟩
  · exact .inl rfl
  · cases v <;> exact .inr rfl

theorem mapChildren_get (name : String) : ∀ cs : Children β,
    Moved f g (cs.get name)
      ((mapChildren isSkippableForNamespaceTranslation never f g cs).get name)
  | .empty => .inl rfl
  | .cons none v rest => mapChildren_get name rest
  | .cons (some field) v rest => by
    simp only [mapChildren, Children.get]
    split
    · split
      · exact .inl rfl
      · exact .inr ⟨some field, rfl⟩
    · exact mapChildren_get name rest

theorem MovedChildren.get {cs ds : Children β} (h : MovedChildren f g cs ds) (name : String) :
    Moved f g (cs.get name) (ds.get name) := by
  rcases h with rfl | rfl
  · exact .inl rfl
  · exact mapChildren_get name cs

theorem mapChildren_all {p : Value β → Bool}
    (moves : ∀ v w, Moved f g v w → p v = false → p w = false) : ∀ cs : Children β,
    cs.all p = false →
      (mapChildren isSkippableForNamespaceTranslation never f g cs).all p = false
  | .empty, unmet => unmet
  | .cons slot v rest, unmet => by
    simp only [mapChildren, Children.all, Bool.and_eq_false_iff] at unmet ⊢
    rcases unmet with here | later
    · refine .inl (moves v _ ?_ here)
      split
      · exact .inl rfl
      · exact .inr ⟨slot, rfl⟩
    · exact .inr (mapChildren_all moves rest later)

theorem MovedChildren.all {cs ds : Children β} (h : MovedChildren f g cs ds) {p : Value β → Bool}
    (moves : ∀ v w, Moved f g v w → p v = false → p w = false) (unmet : cs.all p = false) :
    ds.all p = false := by
  rcases h with rfl | rfl
  · exact unmet
  · exact mapChildren_all moves cs unmet

theorem Moved.text (safe : ∀ n, n ≠ "" → f n ≠ "") {v w : Value β} (h : Moved f g v w)
    (named : v.text ≠ "") : w.text ≠ "" := by
  rcases h with rfl | ⟨slot, rfl⟩
  · exact named
  · cases v with
    | str s =>
      simp only [mapNames, Value.text]
      split
      · exact safe s named
      · exact named
    | _ => exact absurd rfl named

theorem Moved.linkNamespace (safe : ∀ n, n ≠ "" → f n ≠ "") {v w : Value β} (h : Moved f g v w)
    (named : linkNamespace v ≠ "") : linkNamespace w ≠ "" := by
  have variant := h.children.get "Variant"
  have workflowEvent := variant.children.get "WorkflowEvent"
  exact (workflowEvent.children.get "Namespace").text safe named

theorem MovedChildren.skippableEvent (safe : ∀ n, n ≠ "" → f n ≠ "") {cs ds : Children β}
    (h : MovedChildren f g cs ds) {eventType : EventType} (walked : skippableEvent eventType cs = false) :
    skippableEvent eventType ds = false := by
  simp only [MessageTree.skippableEvent, Bool.and_eq_false_iff] at walked ⊢
  refine walked.imp_left fun linked => ?_
  refine (h.get "Links").children.all (fun v w moved named => ?_) linked
  simp only [String.isEmpty_eq_false_iff] at named ⊢
  exact moved.linkNamespace safe named

theorem Moved.skippableElement (safe : ∀ n, n ≠ "" → f n ≠ "") {v w : Value β} (h : Moved f g v w)
    (walked : skippableElement v = false) : skippableElement w = false := by
  rcases h with rfl | ⟨slot, rfl⟩
  · exact walked
  · cases v with
    | historyEvent eventType rest => exact MovedChildren.skippableEvent safe (.inr rfl) walked
    | _ => rfl

/- What is walked is walked again after its names have been mapped. -/
theorem walked_again (safe : ∀ n, n ≠ "" → f n ≠ "") {slot : Option StructField} {v : Value β}
    (walked : isSkippableForNamespaceTranslation v = false) :
    isSkippableForNamespaceTranslation
      (mapNames isSkippableForNamespaceTranslation f g slot v) = false := by
  cases v with
  | message type fields => exact walked
  | historyEvent eventType rest => exact MovedChildren.skippableEvent safe (.inr rfl) walked
  | list type elements =>
    simp only [isSkippableForNamespaceTranslation, mapNames, Bool.and_eq_false_iff] at walked ⊢
    exact walked.imp_right fun unmet =>
      MovedChildren.all (.inr rfl) (fun v w moved => moved.skippableElement safe) unmet
  | _ => rfl

theorem guard_again (safe : ∀ n, n ≠ "" → f n ≠ "") (held : Option StructField)
    (slot : Option StructField) (v : Value β)
    (walked : (if held.isSome then isSkippableForNamespaceTranslation else never) v = false) :
    (if held.isSome then isSkippableForNamespaceTranslation else never)
      (mapNames isSkippableForNamespaceTranslation f g slot v) = false := by
  cases held with
  | none => rfl
  | some field => exact walked_again safe walked

section Twice
variable {f' : String → String} {g' : β → β}

mutual
theorem mapNames_mapNames (safe : ∀ n, n ≠ "" → f n ≠ "") (slot : Option StructField) :
    ∀ v : Value β,
      mapNames isSkippableForNamespaceTranslation f' g' slot
          (mapNames isSkippableForNamespaceTranslation f g slot v) =
        mapNames isSkippableForNamespaceTranslation (f' ∘ f) (g' ∘ g) slot v
  | .scalar _ _ => rfl
  | .nil => rfl
  | .str s => by
    simp only [mapNames]
    split <;> rfl
  | .dataBlob blob => by
    simp only [mapNames]
    split <;> rfl
  | .dataBlobs blobs => by
    simp only [mapNames]
    split <;> simp
  | .payloads _ => rfl
  | .searchAttributes _ => rfl
  | .namespaceInfo name rest => by
    simp only [mapNames, mapChildren_mapChildren safe never (fun _ _ h => h) rest]
    cases slot <;> rfl
  | .history events => by
    simp only [mapNames]
    exact congrArg Value.history (mapChildren_mapChildren safe _ (guard_again safe slot) events)
  | .historyEvent _ rest => by
    simp only [mapNames, mapChildren_mapChildren safe never (fun _ _ h => h) rest]
  | .message _ fields => by
    simp only [mapNames, mapChildren_mapChildren safe never (fun _ _ h => h) fields]
  | .list _ elements => by
    simp only [mapNames, mapChildren_mapChildren safe never (fun _ _ h => h) elements]
theorem mapChildren_mapChildren (safe : ∀ n, n ≠ "" → f n ≠ "") (guard : Value β → Bool)
    (again : ∀ slot v, guard v = false →
      guard (mapNames isSkippableForNamespaceTranslation f g slot v) = false) :
    ∀ cs : Children β,
      mapChildren isSkippableForNamespaceTranslation guard f' g'
          (mapChildren isSkippableForNamespaceTranslation guard f g cs) =
        mapChildren isSkippableForNamespaceTranslation guard (f' ∘ f) (g' ∘ g) cs
  | .empty => rfl
  | .cons slot v rest => by
    simp only [mapChildren, mapChildren_mapChildren safe guard again rest]
    cases hidden : unexported slot with
    | true => simp
    | false =>
      cases skipped : guard v with
      | true => simp [skipped]
      | false => simp [again slot v skipped, mapNames_mapNames safe slot v]
end

mutual
/- The blobs that a second walk comes to are those of the first, mapped. -/
theorem mapNames_blobs (safe : ∀ n, n ≠ "" → f n ≠ "") {b : β} (slot : Option StructField) :
    ∀ v : Value β, .blob b ∈ places namespaceSelection slot
        (mapNames isSkippableForNamespaceTranslation f g slot v) →
      ∃ b₀, .blob b₀ ∈ places namespaceSelection slot v ∧ b = g b₀
  | .scalar _ _, member => nomatch member
  | .nil, member => nomatch member
  | .str s, member => by
    simp only [mapNames, places] at member
    split at member <;> simp at member
  | .dataBlob blob, member => by
    simp only [mapNames, places] at member ⊢
    split at member
    · next listed => exact ⟨blob, by simp [listed], by simpa [listed] using member⟩
    · cases member
  | .dataBlobs blobs, member => by
    simp only [mapNames, places] at member ⊢
    split at member
    · next listed =>
      obtain ⟨b', inside, same⟩ := List.mem_map.mp member
      cases same
      rw [List.reduceOption_mem_iff, List.mem_map] at inside
      obtain ⟨o, inBlobs, same⟩ := inside
      obtain ⟨b₀, rfl, rfl⟩ := Option.map_eq_some_iff.mp same
      refine ⟨b₀, ?_, rfl⟩
      rw [if_pos listed]
      exact List.mem_map_of_mem (List.reduceOption_mem_iff.mpr inBlobs)
    · cases member
  | .payloads _, member => by
    cases slot <;> simp [mapNames, places, namespaceSelection, inFields] at member
  | .searchAttributes _, member => by
    cases slot <;> simp [mapNames, places, namespaceSelection, inFields] at member
  | .namespaceInfo name rest, member => by
    simp only [mapNames, places] at member ⊢
    rcases List.mem_append.mp member with own | below
    · split at own <;> simp at own
    · obtain ⟨b₀, here, same⟩ := mapChildren_blobs safe never (fun _ _ h => h) rest below
      exact ⟨b₀, List.mem_append_right _ here, same⟩
  | .history events, member => by
    simp only [mapNames, places] at member ⊢
    exact mapChildren_blobs safe _ (guard_again safe slot) events member
  | .historyEvent _ rest, member => mapChildren_blobs safe never (fun _ _ h => h) rest member
  | .message _ fields, member => mapChildren_blobs safe never (fun _ _ h => h) fields member
  | .list _ elements, member => mapChildren_blobs safe never (fun _ _ h => h) elements member
theorem mapChildren_blobs (safe : ∀ n, n ≠ "" → f n ≠ "") {b : β} (guard : Value β → Bool)
    (again : ∀ slot v, guard v = false →
      guard (mapNames isSkippableForNamespaceTranslation f g slot v) = false) :
    ∀ cs : Children β, .blob b ∈ childPlaces namespaceSelection guard
        (mapChildren isSkippableForNamespaceTranslation guard f g cs) →
      ∃ b₀, .blob b₀ ∈ childPlaces namespaceSelection guard cs ∧ b = g b₀
  | .empty, member => nomatch member
  | .cons slot v rest, member => by
    simp only [mapChildren, childPlaces, unhandled_namespace] at member ⊢
    rcases List.mem_append.mp member with own | below
    · cases hidden : unexported slot <;> cases skipped : guard v <;>
        simp [hidden, skipped, again slot v] at own
      obtain ⟨b₀, here, same⟩ := mapNames_blobs safe slot v own
      exact ⟨b₀, by simp [here], same⟩
    · obtain ⟨b₀, here, same⟩ := mapChildren_blobs safe guard again rest below
      exact ⟨b₀, List.mem_append_right _ here, same⟩
end

end Twice

end MessageVisitor
