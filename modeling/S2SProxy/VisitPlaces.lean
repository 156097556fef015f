import S2SProxy.MessageVisitor

/- The places of a message that a visitor looks at. A visit is the update of these places one
   after the other, so what it matches, whether it fails and whether it leaves the message alone
   can be read off the list of places in the order of the visit. A visit that fails nowhere is
   the walk through the fields of the message, whatever its order. -/
namespace MessageVisitor
open MessageTree StoppingUpdate
variable {β : Type}

/-! The same update by recursion on the message, from the first field to the last. -/

mutual
def walk (vis : Visitor β) (slot : Option StructField) : Value β → Visited (Value β)
  | .scalar type code => keep (.scalar type code)
  | .nil => keep .nil
  | .str s => if inFields vis.stringFields slot then (vis.onString s).map .str else keep (.str s)
  | .dataBlob blob =>
    if inFields dataBlobFieldNames slot then (visitDataBlob vis.translateOne blob).map .dataBlob
    else keep (.dataBlob blob)
  | .dataBlobs blobs =>
    if inFields dataBlobFieldNames slot then
      (visitDataBlobs vis.translateOne blobs).map .dataBlobs
    else keep (.dataBlobs blobs)
  | .payloads fields =>
    if inFields vis.attributeFields slot then (vis.onAttributes fields).map .payloads
    else keep (.payloads fields)
  | .searchAttributes indexedFields =>
    if inFields vis.attributeFields slot then
      (vis.onAttributes indexedFields).map .searchAttributes
    else keep (.searchAttributes indexedFields)
  | .namespaceInfo name rest =>
    let named := if slot.isSome && vis.namespaceInfo then vis.onString name else keep name
    (named.both rest (walkChildren vis never rest)).map fun p => .namespaceInfo p.1 p.2
  | .history events =>
    (walkChildren vis (if slot.isSome then vis.skips else never) events).map .history
  | .historyEvent eventType rest => (walkChildren vis never rest).map (.historyEvent eventType)
  | .message type fields => (walkChildren vis never fields).map (.message type)
  | .list type elements => (walkChildren vis never elements).map (.list type)
def walkChildren (vis : Visitor β) (skip : Value β → Bool) : Children β → Visited (Children β)
  | .empty => keep .empty
  | .cons slot v rest =>
    let first :=
      if skip v || unexported slot then keep v
      else
        match unhandled vis.toSelection slot v with
        | some err => ⟨v, false, some err⟩
        | none => walk vis slot v
    (first.both rest (walkChildren vis skip rest)).map fun p => .cons slot p.1 p.2
end

inductive Place (β : Type) where
  | string (s : String)
  | blob (b : β)
  | attributes (fields : IndexedFields)
  | unhandled (err : String)

def Visitor.handle (vis : Visitor β) : Place β → Visited (Place β)
  | .string s => (vis.onString s).map .string
  | .blob b => (visitDataBlob vis.translateOne b).map .blob
  | .attributes fields => (vis.onAttributes fields).map .attributes
  | .unhandled err => ⟨.unhandled err, false, some err⟩

def blobPlaces (blobs : List (Option β)) : List (Place β) := blobs.reduceOption.map .blob

mutual
def places (sel : Selection β) (slot : Option StructField) : Value β → List (Place β)
  | .scalar _ _ => []
  | .nil => []
  | .str s => if inFields sel.stringFields slot then [.string s] else []
  | .dataBlob blob => if inFields dataBlobFieldNames slot then [.blob blob] else []
  | .dataBlobs blobs => if inFields dataBlobFieldNames slot then blobPlaces blobs else []
  | .payloads fields => if inFields sel.attributeFields slot then [.attributes fields] else []
  | .searchAttributes fields =>
    if inFields sel.attributeFields slot then [.attributes fields] else []
  | .namespaceInfo name rest =>
    (if slot.isSome && sel.namespaceInfo then [.string name] else []) ++ childPlaces sel never rest
  | .history events => childPlaces sel (if slot.isSome then sel.skips else never) events
  | .historyEvent _ rest => childPlaces sel never rest
  | .message _ fields => childPlaces sel never fields
  | .list _ elements => childPlaces sel never elements
def childPlaces (sel : Selection β) (skip : Value β → Bool) : Children β → List (Place β)
  | .empty => []
  | .cons slot v rest =>
    (if skip v || unexported slot then []
      else
        match unhandled sel slot v with
        | some err => [.unhandled err]
        | none => places sel slot v) ++ childPlaces sel skip rest
end

/-- A blob that is neither matched nor changed is the result. -/
def Steady (translateOne : β → Translated β) : Prop :=
  ∀ b, (translateOne b).err = none → ((translateOne b).matched || (translateOne b).changed) = false →
    (translateOne b).result = b

section Blobs
variable {codec : Codec β} {visitor : Event → Visited Event} {b : β} {events : Children Empty}
  {changed : Bool}

theorem writeEvents_untouched {visited : Visited Event}
    (same : (visited.matched || changed) = false) :
    writeEvents codec b visited changed = ⟨b, visited.matched, changed, none⟩ := by
  simp [writeEvents, same]

theorem writeEvents_flags (visited : Visited Event) :
    (writeEvents codec b visited changed).matched = visited.matched ∧
      (writeEvents codec b visited changed).changed = changed := by
  unfold writeEvents
  split
  · split <;> exact ⟨rfl, rfl⟩
  · exact ⟨rfl, rfl⟩

theorem translateOne_read (full : codec.isEmpty b = false)
    (read : readEvents codec b = (events, changed, none))
    (ok : (visitor (.list historyEventsType events)).err = none) :
    translateOneDataBlob codec visitor b =
      writeEvents codec b (visitor (.list historyEventsType events)) changed := by
  simp [translateOneDataBlob, full, read, ok]

theorem translateOne_failed {err : String} (full : codec.isEmpty b = false)
    (read : readEvents codec b = (events, changed, some err)) :
    translateOneDataBlob codec visitor b = ⟨b, false, changed, some err⟩ := by
  simp [translateOneDataBlob, full, read]

theorem translateOneDataBlob_steady (codec : Codec β) (visitor : Event → Visited Event) :
    Steady (translateOneDataBlob codec visitor) := by
  intro b ok same
  cases full : codec.isEmpty b with
  | true => simp [translateOneDataBlob, full]
  | false =>
    rcases read : readEvents codec b with ⟨events, changed, err⟩
    cases err with
    | some err => rw [translateOne_failed full read]
    | none =>
      cases visitErr : (visitor (.list historyEventsType events)).err with
      | some err => simp [translateOneDataBlob, full, read, visitErr]
      | none =>
        rw [translateOne_read full read visitErr] at same ⊢
        obtain ⟨matched, changed⟩ := writeEvents_flags (visitor (.list historyEventsType events))
        rw [matched, changed] at same
        rw [writeEvents_untouched same]

end Blobs

theorem empty_steady : Steady (Empty.elim : Empty → Translated Empty) := fun b => b.elim

theorem visitDataBlob_value {translateOne : β → Translated β} (steady : Steady translateOne) {b : β}
    (ok : (translateOne b).err = none) :
    visitDataBlob translateOne b = ⟨(translateOne b).result, (translateOne b).matched, none⟩ := by
  cases same : (translateOne b).matched || (translateOne b).changed with
  | false => simp [visitDataBlob, ok, same, steady b ok same]
  | true => simp [visitDataBlob, ok, same]

theorem visitDataBlob_flags (translateOne : β → Translated β) (b : β) :
    (visitDataBlob translateOne b).err = (translateOne b).err ∧
      (visitDataBlob translateOne b).matched = (translateOne b).matched := by
  cases err : (translateOne b).err <;> simp [visitDataBlob, err]

variable {vis : Visitor β}

/- The slice of blobs is updated element by element, nil elements aside. -/
theorem visitDataBlobs_cons (steady : Steady vis.translateOne) (blob : β) (rest : List (Option β)) :
    visitDataBlobs vis.translateOne (some blob :: rest) =
      ((visitDataBlob vis.translateOne blob).both rest (visitDataBlobs vis.translateOne rest)).map
        fun p => some p.1 :: p.2 := by
  cases err : (vis.translateOne blob).err with
  | none =>
    rw [visitDataBlob_value steady err]
    simp [visitDataBlobs, translateDataBlobs, err, Outcome.both, Outcome.map]
  | some e =>
    simp [visitDataBlobs, translateDataBlobs, visitDataBlob, err, Outcome.both, Outcome.map]

theorem visitDataBlobs_follows (steady : Steady vis.translateOne) (blobs : List (Option β)) :
    Follows vis.handle (blobPlaces blobs) blobs (visitDataBlobs vis.translateOne blobs) := by
  induction blobs with
  | nil => exact .keep []
  | cons head rest ih =>
    cases head with
    | none => exact ih.map (List.cons_injective (a := none))
    | some blob =>
      have one : Follows vis.handle [.blob blob] blob (visitDataBlob vis.translateOne blob) :=
        .part (fun _ _ => Place.blob.inj) rfl
      have injective : Function.Injective fun p : β × List (Option β) => some p.1 :: p.2 := by
        intro p q same
        simp only [List.cons.injEq, Option.some.injEq] at same
        exact Prod.ext same.1 same.2
      rw [visitDataBlobs_cons steady]
      exact (one.both ih).map injective

mutual
theorem walk_follows (steady : Steady vis.translateOne) (slot : Option StructField) :
    ∀ v : Value β, Follows vis.handle (places vis.toSelection slot v) v (walk vis slot v)
  | .scalar type code => .keep _
  | .nil => .keep _
  | .str s => by
    rw [places, walk]
    split
    · exact (Follows.part (fun _ _ => Place.string.inj) rfl).map fun _ _ => Value.str.inj
    · exact .keep _
  | .dataBlob blob => by
    rw [places, walk]
    split
    · exact (Follows.part (fun _ _ => Place.blob.inj) rfl).map fun _ _ => Value.dataBlob.inj
    · exact .keep _
  | .dataBlobs blobs => by
    rw [places, walk]
    split
    · exact (visitDataBlobs_follows steady blobs).map fun _ _ => Value.dataBlobs.inj
    · exact .keep _
  | .payloads fields => by
    rw [places, walk]
    split
    · exact (Follows.part (fun _ _ => Place.attributes.inj) rfl).map fun _ _ => Value.payloads.inj
    · exact .keep _
  | .searchAttributes fields => by
    rw [places, walk]
    split
    · exact (Follows.part (fun _ _ => Place.attributes.inj) rfl).map
        fun _ _ => Value.searchAttributes.inj
    · exact .keep _
  | .namespaceInfo name rest => by
    rw [places, walk]
    have injective : Function.Injective
        fun p : String × Children β => Value.namespaceInfo p.1 p.2 := by
      intro p q same
      simp only [Value.namespaceInfo.injEq] at same
      exact Prod.ext same.1 same.2
    refine (Follows.both ?_ (walkChildren_follows steady never rest)).map injective
    split
    · exact .part (fun _ _ => Place.string.inj) rfl
    · exact .keep _
  | .history events => by
    rw [places, walk]
    exact (walkChildren_follows steady _ events).map fun _ _ => Value.history.inj
  | .historyEvent eventType rest => by
    rw [places, walk]
    exact (walkChildren_follows steady never rest).map fun _ _ same => (Value.historyEvent.inj same).2
  | .message type fields => by
    rw [places, walk]
    exact (walkChildren_follows steady never fields).map fun _ _ same => (Value.message.inj same).2
  | .list type elements => by
    rw [places, walk]
    exact (walkChildren_follows steady never elements).map fun _ _ same => (Value.list.inj same).2
theorem walkChildren_follows (steady : Steady vis.translateOne) (skip : Value β → Bool) :
    ∀ cs : Children β, Follows vis.handle (childPlaces vis.toSelection skip cs) cs (walkChildren vis skip cs)
  | .empty => .keep _
  | .cons slot v rest => by
    rw [childPlaces, walkChildren]
    have injective : Function.Injective fun p : Value β × Children β => Children.cons slot p.1 p.2 := by
      intro p q same
      simp only [Children.cons.injEq, true_and] at same
      exact Prod.ext same.1 same.2
    refine (Follows.both ?_ (walkChildren_follows steady skip rest)).map injective
    split
    · exact .keep _
    · cases unhandled vis.toSelection slot v with
      | some err => exact ⟨rfl, rfl, iff_of_true rfl rfl⟩
      | none => exact walk_follows steady slot v
end

theorem handle_clean (p : Place β) (strings : ∀ s, (vis.onString s).err = none)
    (attributes : ∀ fields, (vis.onAttributes fields).err = none) (failed : (vis.handle p).err ≠ none) :
    (vis.handle p).value = p := by
  cases p with
  | string s => exact absurd (strings s) failed
  | attributes fields => exact absurd (attributes fields) failed
  | unhandled err => rfl
  | blob b =>
    cases err : (vis.translateOne b).err with
    | none => exact absurd (by simp [Visitor.handle, visitDataBlob, err]) failed
    | some e => simp [Visitor.handle, visitDataBlob, err]

/-! The visit in the order of visit.Values. -/

/-- The blobs of a slice are places of their own. -/
def Spot.places : Spot β → List (Place β)
  | .string s => [.string s]
  | .blob b => [.blob b]
  | .blobs bs => blobPlaces bs
  | .attributes fields => [.attributes fields]
  | .unhandled err => [.unhandled err]

mutual
theorem spots_places (sel : Selection β) (slot : Option StructField) :
    ∀ v : Value β, (spots sel slot v).flatMap Spot.places = places sel slot v
  | .scalar _ _ => rfl
  | .nil => rfl
  | .str s => by
    rw [spots, places]
    split <;> rfl
  | .dataBlob blob => by
    rw [spots, places]
    split <;> rfl
  | .dataBlobs blobs => by
    rw [spots, places]
    split
    · exact List.append_nil _
    · rfl
  | .payloads fields => by
    rw [spots, places]
    split <;> rfl
  | .searchAttributes fields => by
    rw [spots, places]
    split <;> rfl
  | .namespaceInfo name rest => by
    rw [spots, places, List.flatMap_append, childSpots_places sel never rest]
    split <;> rfl
  | .history events => childSpots_places sel _ events
  | .historyEvent _ rest => childSpots_places sel never rest
  | .message _ fields => childSpots_places sel never fields
  | .list _ elements => childSpots_places sel never elements
theorem childSpots_places (sel : Selection β) (skip : Value β → Bool) :
    ∀ cs : Children β, (childSpots sel skip cs).flatMap Spot.places = childPlaces sel skip cs
  | .empty => rfl
  | .cons slot v rest => by
    rw [childSpots, childPlaces, List.flatMap_append, childSpots_places sel skip rest, reachedSpots]
    split
    · rfl
    · cases unhandled sel slot v with
      | some err => rfl
      | none => rw [spots_places sel slot v]
end

theorem call_follows (steady : Steady vis.translateOne) (spot : Spot β) :
    Follows vis.handle spot.places spot (vis.call spot) := by
  cases spot with
  | string s => exact (Follows.part (fun _ _ => Place.string.inj) rfl).map fun _ _ => Spot.string.inj
  | blob b => exact (Follows.part (fun _ _ => Place.blob.inj) rfl).map fun _ _ => Spot.blob.inj
  | blobs bs => exact (visitDataBlobs_follows steady bs).map fun _ _ => Spot.blobs.inj
  | attributes fields =>
    exact (Follows.part (fun _ _ => Place.attributes.inj) rfl).map fun _ _ => Spot.attributes.inj
  | unhandled err => exact ⟨rfl, rfl, iff_of_true rfl rfl⟩

/-- Of one kind, so that the one can stand where the other stood. -/
inductive Spot.Alike : Spot β → Spot β → Prop
  | string (s t : String) : Alike (.string s) (.string t)
  | blob (b c : β) : Alike (.blob b) (.blob c)
  | blobs (bs cs : List (Option β)) : Alike (.blobs bs) (.blobs cs)
  | attributes (fields others : IndexedFields) : Alike (.attributes fields) (.attributes others)
  | unhandled (err : String) : Alike (.unhandled err) (.unhandled err)

theorem Spot.Alike.refl (spot : Spot β) : spot.Alike spot := by
  cases spot <;> constructor

theorem call_alike (vis : Visitor β) (spot : Spot β) : (vis.call spot).value.Alike spot := by
  cases spot <;> constructor

section Refill
variable {sel : Selection β} {ss : List (Spot β)}

theorem refill_split {α γ : Type} {own others : List (Spot β)} {x : α} {y : γ}
    {f : List (Spot β) → α} {g : List (Spot β) → γ}
    (first : ∀ {ss}, List.Forall₂ Spot.Alike ss own → (f ss = x ↔ ss = own))
    (second : ∀ {ss}, List.Forall₂ Spot.Alike ss others → (g ss = y ↔ ss = others))
    (alike : List.Forall₂ Spot.Alike ss (own ++ others)) :
    (f (ss.take own.length) = x ∧ g (ss.drop own.length) = y) ↔ ss = own ++ others := by
  rw [first (List.forall₂_take_append ss own others alike),
    second (List.forall₂_drop_append ss own others alike)]
  constructor
  · rintro ⟨left, right⟩
    rw [← List.take_append_drop own.length ss, left, right]
  · rintro rfl
    exact ⟨List.take_left, List.drop_left⟩

mutual
/- A value stays as it is exactly if all its spots do. -/
theorem refill_eq_self (slot : Option StructField) :
    ∀ (v : Value β) {ss : List (Spot β)}, List.Forall₂ Spot.Alike ss (spots sel slot v) →
      (refill sel slot v ss = v ↔ ss = spots sel slot v)
  | .scalar _ _, ss, alike => by
    cases alike
    exact iff_of_true rfl rfl
  | .nil, ss, alike => by
    cases alike
    exact iff_of_true rfl rfl
  | .str s, ss, alike => by
    by_cases listed : inFields sel.stringFields slot = true
    · rw [spots, if_pos listed] at alike ⊢
      rcases alike with _ | ⟨⟨⟩, _ | _⟩
      simp [refill]
    · rw [spots, if_neg listed] at alike ⊢
      cases alike
      simp [refill]
  | .dataBlob blob, ss, alike => by
    by_cases listed : inFields dataBlobFieldNames slot = true
    · rw [spots, if_pos listed] at alike ⊢
      rcases alike with _ | ⟨⟨⟩, _ | _⟩
      simp [refill]
    · rw [spots, if_neg listed] at alike ⊢
      cases alike
      simp [refill]
  | .dataBlobs blobs, ss, alike => by
    by_cases listed : inFields dataBlobFieldNames slot = true
    · rw [spots, if_pos listed] at alike ⊢
      rcases alike with _ | ⟨⟨⟩, _ | _⟩
      simp [refill]
    · rw [spots, if_neg listed] at alike ⊢
      cases alike
      simp [refill]
  | .payloads fields, ss, alike => by
    by_cases listed : inFields sel.attributeFields slot = true
    · rw [spots, if_pos listed] at alike ⊢
      rcases alike with _ | ⟨⟨⟩, _ | _⟩
      simp [refill]
    · rw [spots, if_neg listed] at alike ⊢
      cases alike
      simp [refill]
  | .searchAttributes fields, ss, alike => by
    by_cases listed : inFields sel.attributeFields slot = true
    · rw [spots, if_pos listed] at alike ⊢
      rcases alike with _ | ⟨⟨⟩, _ | _⟩
      simp [refill]
    · rw [spots, if_neg listed] at alike ⊢
      cases alike
      simp [refill]
  | .namespaceInfo name rest, ss, alike => by
    rw [spots] at alike ⊢
    cases named : slot.isSome && sel.namespaceInfo with
    | true =>
      simp only [named, if_true, List.singleton_append] at alike ⊢
      rcases alike with _ | ⟨⟨name', _⟩, others⟩
      simp [refill, named, refillChildren_eq_self never rest others]
    | false =>
      simp only [named, Bool.false_eq_true, if_false, List.nil_append] at alike ⊢
      simp [refill, named, refillChildren_eq_self never rest alike]
  | .history events, ss, alike => by
    rw [spots] at alike ⊢
    simp [refill, refillChildren_eq_self _ events alike]
  | .historyEvent eventType rest, ss, alike => by
    rw [spots] at alike ⊢
    simp [refill, refillChildren_eq_self never rest alike]
  | .message type fields, ss, alike => by
    rw [spots] at alike ⊢
    simp [refill, refillChildren_eq_self never fields alike]
  | .list type elements, ss, alike => by
    rw [spots] at alike ⊢
    simp [refill, refillChildren_eq_self never elements alike]
theorem refillChildren_eq_self (skip : Value β → Bool) :
    ∀ (cs : Children β) {ss : List (Spot β)}, List.Forall₂ Spot.Alike ss (childSpots sel skip cs) →
      (refillChildren sel skip cs ss = cs ↔ ss = childSpots sel skip cs)
  | .empty, ss, alike => by
    cases alike
    exact iff_of_true rfl rfl
  | .cons slot v rest, ss, alike => by
    have own : ∀ {ss}, List.Forall₂ Spot.Alike ss (reachedSpots sel skip slot v (spots sel slot v)) →
        ((if entered sel skip slot v then refill sel slot v ss else v) = v ↔
          ss = reachedSpots sel skip slot v (spots sel slot v)) := by
      intro ss alike
      cases hidden : skip v || unexported slot with
      | true =>
        simp only [reachedSpots, hidden, if_true] at alike ⊢
        cases alike
        simp [entered, hidden]
      | false =>
        cases other : unhandled sel slot v with
        | some err =>
          simp only [reachedSpots, hidden, other, Bool.false_eq_true, if_false] at alike ⊢
          rcases alike with _ | ⟨⟨⟩, _ | _⟩
          simp [entered, other]
        | none =>
          simp only [reachedSpots, hidden, other, Bool.false_eq_true, if_false] at alike ⊢
          simpa [entered, hidden, other] using refill_eq_self slot v alike
    rw [childSpots] at alike ⊢
    rw [← refill_split own (refillChildren_eq_self skip rest) alike, refillChildren]
    simp
end

end Refill

/-- The places in the order in which the visit comes to them. -/
def visitedPlaces (order : Order β) (sel : Selection β) (v : Value β) : List (Place β) :=
  let all := spots sel none v
  (partsAt all (order.arrange v all.length)).flatMap Spot.places

theorem visitedPlaces_perm (order : Order β) (sel : Selection β) (v : Value β) :
    (visitedPlaces order sel v).Perm (places sel none v) := by
  rw [← spots_places]
  exact (partsAt_perm (order.complete v _)).flatMap_right Spot.places

theorem Order.distinct (order : Order β) (v : Value β) (count : Nat) :
    (order.arrange v count).Nodup :=
  (order.complete v count).nodup_iff.mpr List.nodup_range

theorem visit_follows (steady : Steady vis.translateOne) (order : Order β) (v : Value β) :
    Follows vis.handle (visitedPlaces order vis.toSelection v) v (visitValues order vis v) := by
  have distinct := order.distinct v (spots vis.toSelection none v).length
  have inner := (updateIn_follows vis.call (spots vis.toSelection none v) distinct).refine
    fun spot _ => call_follows steady spot
  have alike := updateIn_alike (spots vis.toSelection none v) Spot.Alike.refl (call_alike vis) distinct
  exact ⟨inner.matched, inner.err, (refill_eq_self none v alike).trans inner.unchanged⟩

theorem visit_err_none (steady : Steady vis.translateOne) (order : Order β) (v : Value β) :
    (visitValues order vis v).err = none ↔
      ∀ p ∈ places vis.toSelection none v, (vis.handle p).err = none := by
  rw [(visit_follows steady order v).err_none]
  simp only [(visitedPlaces_perm order vis.toSelection v).mem_iff]

def calledSpots (vis : Visitor β) (all : List (Spot β)) : List (Spot β) :=
  all.map fun spot => (vis.call spot).value

theorem calledSpots_take (vis : Visitor β) (own others : List (Spot β)) :
    (calledSpots vis (own ++ others)).take own.length = calledSpots vis own := by
  rw [calledSpots, List.map_append, List.take_left' (List.length_map _)]
  rfl

theorem calledSpots_drop (vis : Visitor β) (own others : List (Spot β)) :
    (calledSpots vis (own ++ others)).drop own.length = calledSpots vis others := by
  rw [calledSpots, List.map_append, List.drop_left' (List.length_map _)]
  rfl

mutual
theorem walk_refill (steady : Steady vis.translateOne) (slot : Option StructField) :
    ∀ v : Value β, (∀ p ∈ places vis.toSelection slot v, (vis.handle p).err = none) →
      (walk vis slot v).value =
        refill vis.toSelection slot v (calledSpots vis (spots vis.toSelection slot v))
  | .scalar _ _, _ => rfl
  | .nil, _ => rfl
  | .str s, _ => by
    simp only [walk, spots]
    split <;> rfl
  | .dataBlob blob, _ => by
    simp only [walk, spots]
    split <;> rfl
  | .dataBlobs blobs, _ => by
    simp only [walk, spots]
    split <;> rfl
  | .payloads fields, _ => by
    simp only [walk, spots]
    split <;> rfl
  | .searchAttributes fields, _ => by
    simp only [walk, spots]
    split <;> rfl
  | .namespaceInfo name rest, ok => by
    have below := walkChildren_refill steady never rest fun p member =>
      ok p (List.mem_append_right _ member)
    cases named : slot.isSome && vis.namespaceInfo with
    | true =>
      have fine : (vis.onString name).err = none := by
        simpa [Visitor.handle] using ok (.string name) (by simp [places, named])
      simp only [walk, spots, named, if_true, both_of_ok fine, map_value, below]
      simp [refill, named, calledSpots, Visitor.call]
    | false =>
      have fine : (keep name : Visited String).err = none := rfl
      simp only [walk, spots, named, Bool.false_eq_true, if_false, both_of_ok fine, map_value, below]
      simp [refill, named, keep]
  | .history events, ok => by
    simp only [walk, spots, refill, map_value, walkChildren_refill steady _ events ok]
  | .historyEvent _ rest, ok => by
    simp only [walk, spots, refill, map_value, walkChildren_refill steady never rest ok]
  | .message _ fields, ok => by
    simp only [walk, spots, refill, map_value, walkChildren_refill steady never fields ok]
  | .list _ elements, ok => by
    simp only [walk, spots, refill, map_value, walkChildren_refill steady never elements ok]
theorem walkChildren_refill (steady : Steady vis.translateOne) (skip : Value β → Bool) :
    ∀ cs : Children β, (∀ p ∈ childPlaces vis.toSelection skip cs, (vis.handle p).err = none) →
      (walkChildren vis skip cs).value =
        refillChildren vis.toSelection skip cs (calledSpots vis (childSpots vis.toSelection skip cs))
  | .empty, _ => rfl
  | .cons slot v rest, ok => by
    have below := walkChildren_refill steady skip rest fun p member =>
      ok p (List.mem_append_right _ member)
    simp only [childSpots, refillChildren, calledSpots_take, calledSpots_drop, ← below, walkChildren,
      map_value]
    cases hidden : skip v || unexported slot with
    | true => simp [both_of_ok, keep, entered, hidden]
    | false =>
      cases other : unhandled vis.toSelection slot v with
      | some err =>
        have failed := ok (.unhandled err) (by simp [childPlaces, hidden, other])
        simp [Visitor.handle] at failed
      | none =>
        have own : ∀ p ∈ places vis.toSelection slot v, (vis.handle p).err = none :=
          fun p member => ok p (by simp [childPlaces, hidden, other, member])
        have fine := (walk_follows steady slot v).err_none.mpr own
        simp [both_of_ok fine, entered, hidden, other, reachedSpots, walk_refill steady slot v own]
end

/-- A visit that fails nowhere is the walk, in whatever order. -/
theorem visit_eq_walk (steady : Steady vis.translateOne) (order : Order β) {v : Value β}
    (ok : ∀ p ∈ places vis.toSelection none v, (vis.handle p).err = none) :
    visitValues order vis v = walk vis none v := by
  have perm := visitedPlaces_perm order vis.toSelection v
  have visits := visit_follows steady order v
  have walks := walk_follows steady none v
  have fine : ∀ spot ∈ spots vis.toSelection none v, (vis.call spot).err = none := by
    intro spot member
    refine (call_follows steady spot).err_none.mpr fun p inside => ok p ?_
    rw [← spots_places]
    exact List.mem_flatMap.mpr ⟨spot, member, inside⟩
  have value : (visitValues order vis v).value = (walk vis none v).value := by
    rw [walk_refill steady none v ok, visitValues, map_value, updateIn_ok (order.complete v _) fine]
    rfl
  have matched : (visitValues order vis v).matched = (walk vis none v).matched := by
    rw [visits.matched, walks.matched, updateAll_ok ok,
      updateAll_ok fun p member => ok p (perm.mem_iff.mp member)]
    exact perm.any_eq
  have err : (visitValues order vis v).err = (walk vis none v).err := by
    rw [(visit_err_none steady order v).mpr ok, walks.err_none.mpr ok]
  exact Outcome.ext value matched err

theorem visit_eq_walk_of_ok (steady : Steady vis.translateOne) {order : Order β} {v : Value β}
    (ok : (visitValues order vis v).err = none) : visitValues order vis v = walk vis none v :=
  visit_eq_walk steady order ((visit_err_none steady order v).mp ok)

end MessageVisitor
