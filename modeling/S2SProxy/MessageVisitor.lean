import S2SProxy.EventRepair
import S2SProxy.Lib.StoppingUpdate

/- The two visitors of messages, visitNamespace and visitSearchAttributes: the callback that
   each hands to visit.Values and the translation of serialized events. The serializers are
   parameters, and so is the order in which visit.Values comes to the values of a message. -/
namespace MessageVisitor
open EventRepair MessageTree StoppingUpdate

/-- A new name and whether the name matched. -/
abbrev StringMatcher := String → String × Bool

abbrev Visited (α : Type) := Outcome String α

abbrev NameMap := AList fun _ : String => String

def createStringMatcher (mapping : NameMap) : StringMatcher := fun name =>
  match mapping.lookup name with
  | some newName => (newName, true)
  | none => ("", false)

def isInvalidUTF8Error (err : String) : Bool :=
  decide ("invalid utf-8".toList <:+: err.toLower.toList)

/-- The serializers, over blobs β, and those of the old protos. -/
structure Codec (β : Type) where
  isEmpty : β → Bool
  deserializeEvents : β → Except String (Children Empty)
  serializeEvents : Children Empty → Except String β
  gogoDeserializeEvents : β → Except String (List HistoryEvent122)
  /-- The events as data of the given blob's encoding. -/
  gogoSerializeEvents : β → List HistoryEvent122 → Except String β

variable {β : Type}

def tryRepairInvalidUTF8InBlob (codec : Codec β) (blob : β) :
    Children Empty × Bool × Option String :=
  match codec.gogoDeserializeEvents blob with
  | .error err => (.empty, false, some err)
  | .ok events122 =>
    match validateAndRepairHistoryEvents events122 with
    | (_, changed, some err) => (.empty, changed, some err)
    | (_, false, none) => (.empty, false, none)
    | (events122, true, none) =>
      match codec.gogoSerializeEvents blob events122 with
      | .error err => (.empty, true, some err)
      | .ok repairedEvents =>
        match codec.deserializeEvents repairedEvents with
        | .error err => (.empty, true, some err)
        | .ok events => (events, true, none)

/-- The events that translateOneDataBlob works on, whether they were repaired, the error. A
    blob with invalid utf-8 in which nothing is repaired gives no events and no error. -/
def readEvents (codec : Codec β) (blob : β) : Children Empty × Bool × Option String :=
  match codec.deserializeEvents blob with
  | .ok events => (events, false, none)
  | .error err =>
    if isInvalidUTF8Error err then tryRepairInvalidUTF8InBlob codec blob
    else (.empty, false, some err)

structure Translated (α : Type) where
  result : α
  matched : Bool
  changed : Bool
  err : Option String

/-- The end of translateOneDataBlob: events that matched or were repaired are serialized. -/
def writeEvents (codec : Codec β) (blob : β) (visited : Visited Event) (changed : Bool) :
    Translated β :=
  if visited.matched || changed then
    match codec.serializeEvents visited.value.children with
    | .ok blob => ⟨blob, visited.matched, changed, none⟩
    | .error err => ⟨blob, visited.matched, changed, some err⟩
  else ⟨blob, visited.matched, changed, none⟩

def translateOneDataBlob (codec : Codec β) (visitor : Event → Visited Event) (blob : β) :
    Translated β :=
  if codec.isEmpty blob then ⟨blob, false, false, none⟩
  else
    match readEvents codec blob with
    | (_, changed, some err) => ⟨blob, false, changed, some err⟩
    | (events, changed, none) =>
      let visited := visitor (.list historyEventsType events)
      match visited.err with
      | some err => ⟨blob, visited.matched, changed, some err⟩
      | none => writeEvents codec blob visited changed

def translateDataBlobs (translateOne : β → Translated β) :
    List (Option β) → Translated (List (Option β))
  | [] => ⟨[], false, false, none⟩
  | none :: rest =>
    let others := translateDataBlobs translateOne rest
    { others with result := none :: others.result }
  | some blob :: rest =>
    let one := translateOne blob
    match one.err with
    | some err => ⟨some blob :: rest, one.matched, one.changed, some err⟩
    | none =>
      let others := translateDataBlobs translateOne rest
      ⟨some one.result :: others.result, one.matched || others.matched,
        one.changed || others.changed, others.err⟩

def visitDataBlob (translateOne : β → Translated β) (blob : β) : Visited β :=
  let one := translateOne blob
  match one.err with
  | some err => ⟨blob, one.matched, some err⟩
  | none => ⟨if one.matched || one.changed then one.result else blob, one.matched, none⟩

def visitDataBlobs (translateOne : β → Translated β) (blobs : List (Option β)) :
    Visited (List (Option β)) :=
  let all := translateDataBlobs translateOne blobs
  ⟨all.result, all.matched, all.err⟩

/-- What a callback looks for. Both callbacks handle the data blob fields; they differ in the
    strings, search attributes and types they single out. -/
structure Selection (β : Type) where
  stringFields : List String
  attributeFields : List String
  namespaceInfo : Bool
  /-- The events of a *history.History that a recursive call skips. -/
  skips : Value β → Bool

structure Visitor (β : Type) extends Selection β where
  onString : String → Visited String
  onAttributes : IndexedFields → Visited IndexedFields
  translateOne : β → Translated β

def inFields (names : List String) : Option StructField → Bool
  | none => false
  | some field => field.name ∈ names

def unexported : Option StructField → Bool
  | none => false
  | some field => !field.exported

def unhandled (sel : Selection β) (slot : Option StructField) (v : Value β) : Option String :=
  if inFields sel.attributeFields slot then
    match v with
    | .nil | .payloads _ | .searchAttributes _ => none
    | v => some ("unhandled search attribute type: " ++ v.typeName)
  else none

def never (_ : Value β) : Bool := false

/-- What the callback handles, where it comes to it. -/
inductive Spot (β : Type) where
  | string (s : String)
  | blob (b : β)
  | blobs (bs : List (Option β))
  | attributes (fields : IndexedFields)
  | unhandled (err : String)

def Visitor.call (vis : Visitor β) : Spot β → Visited (Spot β)
  | .string s => (vis.onString s).map .string
  | .blob b => (visitDataBlob vis.translateOne b).map .blob
  | .blobs bs => (visitDataBlobs vis.translateOne bs).map .blobs
  | .attributes fields => (vis.onAttributes fields).map .attributes
  | .unhandled err => ⟨.unhandled err, false, some err⟩

/-- The visit goes on below the value: it is held by an exported field and is no event that is
    skipped or search attribute of another type. -/
def entered (sel : Selection β) (skip : Value β → Bool) (slot : Option StructField)
    (v : Value β) : Bool :=
  !(skip v || unexported slot) && (unhandled sel slot v).isNone

def reachedSpots (sel : Selection β) (skip : Value β → Bool) (slot : Option StructField)
    (v : Value β) (below : List (Spot β)) : List (Spot β) :=
  if skip v || unexported slot then []
  else
    match unhandled sel slot v with
    | some err => [.unhandled err]
    | none => below

mutual
/-- All that the callback handles in a value, by the order of the fields. -/
def spots (sel : Selection β) (slot : Option StructField) : Value β → List (Spot β)
  | .scalar _ _ => []
  | .nil => []
  | .str s => if inFields sel.stringFields slot then [.string s] else []
  | .dataBlob blob => if inFields dataBlobFieldNames slot then [.blob blob] else []
  | .dataBlobs blobs => if inFields dataBlobFieldNames slot then [.blobs blobs] else []
  | .payloads fields => if inFields sel.attributeFields slot then [.attributes fields] else []
  | .searchAttributes fields =>
    if inFields sel.attributeFields slot then [.attributes fields] else []
  | .namespaceInfo name rest =>
    (if slot.isSome && sel.namespaceInfo then [.string name] else []) ++ childSpots sel never rest
  | .history events => childSpots sel (if slot.isSome then sel.skips else never) events
  | .historyEvent _ rest => childSpots sel never rest
  | .message _ fields => childSpots sel never fields
  | .list _ elements => childSpots sel never elements
def childSpots (sel : Selection β) (skip : Value β → Bool) : Children β → List (Spot β)
  | .empty => []
  | .cons slot v rest =>
    reachedSpots sel skip slot v (spots sel slot v) ++ childSpots sel skip rest
end

mutual
def refill (sel : Selection β) (slot : Option StructField) : Value β → List (Spot β) → Value β
  | .str _, [.string s] => .str s
  | .dataBlob _, [.blob b] => .dataBlob b
  | .dataBlobs _, [.blobs bs] => .dataBlobs bs
  | .payloads _, [.attributes fields] => .payloads fields
  | .searchAttributes _, [.attributes fields] => .searchAttributes fields
  | .namespaceInfo name rest, ss =>
    if slot.isSome && sel.namespaceInfo then
      match ss with
      | .string name :: ss => .namespaceInfo name (refillChildren sel never rest ss)
      | _ => .namespaceInfo name rest
    else .namespaceInfo name (refillChildren sel never rest ss)
  | .history events, ss =>
    .history (refillChildren sel (if slot.isSome then sel.skips else never) events ss)
  | .historyEvent eventType rest, ss => .historyEvent eventType (refillChildren sel never rest ss)
  | .message type fields, ss => .message type (refillChildren sel never fields ss)
  | .list type elements, ss => .list type (refillChildren sel never elements ss)
  | v, _ => v
def refillChildren (sel : Selection β) (skip : Value β → Bool) :
    Children β → List (Spot β) → Children β
  | .empty, _ => .empty
  | .cons slot v rest, ss =>
    let own := (reachedSpots sel skip slot v (spots sel slot v)).length
    .cons slot (if entered sel skip slot v then refill sel slot v (ss.take own) else v)
      (refillChildren sel skip rest (ss.drop own))
end

/-- The order in which visit.Values comes to the spots of a message: each of them once. -/
structure Order (β : Type) where
  arrange : Value β → Nat → List Nat
  complete : ∀ v count, (arrange v count).Perm (List.range count)

/-- visit.Values: the callback is called until it fails. -/
def visitValues (order : Order β) (vis : Visitor β) (v : Value β) : Visited (Value β) :=
  let all := spots vis.toSelection none v
  (updateIn vis.call (order.arrange v all.length) all).map (refill vis.toSelection none v)

def matchName (matcher : StringMatcher) (name : String) : Visited String :=
  match matcher name with
  | (_, false) => keep name
  | (newName, true) => ⟨newName, true, none⟩

def namespaceSelection : Selection β where
  stringFields := namespaceFieldNames
  attributeFields := []
  namespaceInfo := true
  skips := isSkippableForNamespaceTranslation

def namespaceVisitor (translateOne : β → Translated β) (matcher : StringMatcher) : Visitor β where
  toSelection := namespaceSelection
  onString := matchName matcher
  onAttributes := keep
  translateOne := translateOne

/-- The result is built entry by entry; of two entries that get one key the later one stays. -/
def translateIndexedFields (matcher : StringMatcher) (fields : IndexedFields) :
    Visited IndexedFields :=
  ⟨fields.entries.foldr
      (fun entry newIndexed => newIndexed.insert (matchName matcher entry.1).value entry.2) ∅,
    fields.entries.any fun entry => (matcher entry.1).2, none⟩

def searchAttributeSelection : Selection β where
  stringFields := []
  attributeFields := searchAttributeFieldNames
  namespaceInfo := false
  skips := never

def searchAttributeVisitor (translateOne : β → Translated β) (matcher : StringMatcher) :
    Visitor β where
  toSelection := searchAttributeSelection
  onString := keep
  onAttributes := translateIndexedFields matcher
  translateOne := translateOne

/-- The orders of the visits of messages, and of the events in their blobs. -/
structure Orders (β : Type) where
  messages : Order β
  events : Order Empty

def visitNamespaceOver (order : Order β) (translateOne : β → Translated β) (matcher : StringMatcher)
    (obj : Value β) : Visited (Value β) :=
  if isSkippableForNamespaceTranslation obj then keep obj
  else visitValues order (namespaceVisitor translateOne matcher) obj

/-- visitNamespace of events, which hold no blobs. -/
def visitNamespaceEvents (order : Order Empty) (matcher : StringMatcher) : Event → Visited Event :=
  visitNamespaceOver order Empty.elim matcher

def visitNamespace (codec : Codec β) (orders : Orders β) (matcher : StringMatcher) :
    Value β → Visited (Value β) :=
  visitNamespaceOver orders.messages
    (translateOneDataBlob codec (visitNamespaceEvents orders.events matcher)) matcher

def visitSearchAttributesEvents (order : Order Empty) (matcher : StringMatcher) :
    Event → Visited Event :=
  visitValues order (searchAttributeVisitor Empty.elim matcher)

def visitSearchAttributes (codec : Codec β) (orders : Orders β) (matcher : StringMatcher) :
    Value β → Visited (Value β) :=
  visitValues orders.messages (searchAttributeVisitor
    (translateOneDataBlob codec (visitSearchAttributesEvents orders.events matcher)) matcher)

def sampleCodec : Codec (Option (Children Empty)) where
  isEmpty _ := false
  deserializeEvents
    | some events => .ok events
    | none => .error "unknown encoding type"
  serializeEvents events := .ok (some events)
  gogoDeserializeEvents _ := .error "unknown encoding type"
  gogoSerializeEvents _ _ := .error "unknown encoding type"

def fieldOrder : Order β := ⟨fun _ count => List.range count, fun _ _ => .refl _⟩

def fieldOrders : Orders β := ⟨fieldOrder, fieldOrder⟩

def exportedField (name : String) : Option StructField := some ⟨name, true⟩

def sampleMessage (first : String) (blob : Option (Children Empty)) (second : String) :
    Value (Option (Children Empty)) :=
  .message "*sample.Request"
    (.cons (exportedField "Namespace") (.str first)
      (.cons (exportedField "Events") (.dataBlob blob)
        (.cons (exportedField "WorkflowNamespace") (.str second) .empty)))

def sampleMap : NameMap := (∅ : NameMap).insert "local" "remote"

def startedEvents (parent : String) : Children Empty :=
  .cons none (.historyEvent .workflowExecutionStarted
    (.cons (exportedField "ParentWorkflowNamespace") (.str parent) .empty)) .empty

theorem sample_unreadable :
    readEvents sampleCodec none = (.empty, false, some "unknown encoding type") := by
  have other : isInvalidUTF8Error "unknown encoding type" = false := by decide +kernel
  simp [readEvents, sampleCodec, other]

end MessageVisitor
