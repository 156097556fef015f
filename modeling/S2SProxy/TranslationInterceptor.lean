import S2SProxy.NameOccurrences

/- The translation interceptor runs its translators over a message in place and passes the
   message on whatever they return; a translator's error is only logged. A stream translates the
   object it receives into before the message has come. -/
namespace TranslationInterceptor
open MessageTree MessageVisitor StoppingUpdate
variable {β : Type}

inductive Direction where
  | request
  | response
  deriving DecidableEq

/-- translatorImpl and saTranslator. The mappings of search attributes are keyed by namespace
    id, in the order in which range meets them. -/
inductive Translator where
  | namespaceName (reqMap respMap : NameMap)
  | searchAttribute (reqMap respMap : List (String × NameMap))

def Translator.matchMethod (method : Method) : Translator → Bool
  | .namespaceName _ _ => true
  | .searchAttribute _ _ => method.service ≠ .workflow

/-- getNamespaceReqMatcher and getNamespaceRespMatcher: the first mapping there is. -/
def getNamespaceMatcher : List (String × NameMap) → StringMatcher
  | [] => createStringMatcher ∅
  | (_, mapping) :: _ => createStringMatcher mapping

def pick {α : Type} (dir : Direction) (req resp : α) : α :=
  match dir with
  | .request => req
  | .response => resp

def firstMapping : List (String × NameMap) → NameMap
  | [] => ∅
  | (_, mapping) :: _ => mapping

theorem getNamespaceMatcher_eq (mappings : List (String × NameMap)) :
    getNamespaceMatcher mappings = createStringMatcher (firstMapping mappings) := by
  cases mappings <;> rfl

def Translator.translate (codec : Codec β) (orders : Orders β) (dir : Direction) :
    Translator → Value β → Visited (Value β)
  | .namespaceName reqMap respMap =>
    visitNamespace codec orders (createStringMatcher (pick dir reqMap respMap))
  | .searchAttribute reqMap respMap =>
    visitSearchAttributes codec orders (getNamespaceMatcher (pick dir reqMap respMap))

structure Stage (β : Type) where
  translator : Translator
  before : Value β
  outcome : Visited (Value β)

/-- The loop over the translators: the message in the end, and the log. Each visit has its own
    orders. -/
def translateAll (codec : Codec β) (orders : Nat → Orders β) (dir : Direction) :
    List Translator → Value β → Value β × List (Stage β)
  | [], obj => (obj, [])
  | tr :: rest, obj =>
    let outcome := tr.translate codec (orders 0) dir obj
    let (final, log) := translateAll codec (fun k => orders (k + 1)) dir rest outcome.value
    (final, ⟨tr, obj, outcome⟩ :: log)

def activeTranslators (disabled : Bool) (translators : List Translator) (method : Method) :
    List Translator :=
  if disabled || method.service = .other then []
  else translators.filter (Translator.matchMethod method)

def handlerRequest (codec : Codec β) (orders : Nat → Orders β) (disabled : Bool)
    (translators : List Translator) (method : Method) (req : Value β) : Value β × List (Stage β) :=
  translateAll codec orders .request (activeTranslators disabled translators method) req

def callerResponse (codec : Codec β) (orders : Nat → Orders β) (disabled : Bool)
    (translators : List Translator) (method : Method) (resp : Value β) : Value β × List (Stage β) :=
  translateAll codec orders .response (activeTranslators disabled translators method) resp

def intercept (codec : Codec β) (orders : Direction → Nat → Orders β) (disabled : Bool)
    (translators : List Translator) (method : Method)
    (handler : Value β → Value β × Option String) (req : Value β) : Value β × Option String :=
  let (resp, err) := handler (handlerRequest codec (orders .request) disabled translators method req).1
  ((callerResponse codec (orders .response) disabled translators method resp).1, err)

/-- streamTranslator.SendMsg: what is passed to the stream, and the log. -/
def sendMsg (codec : Codec β) (orders : Nat → Orders β) (translators : List Translator)
    (m : Value β) : Value β × List (Stage β) :=
  translateAll codec orders .response translators m

def Chain : Value β → List (Stage β) → Value β → Prop
  | obj, [], final => obj = final
  | obj, stage :: rest, final => stage.before = obj ∧ Chain stage.outcome.value rest final

theorem translateAll_chain (codec : Codec β) (orders : Nat → Orders β) (dir : Direction)
    (translators : List Translator) (obj : Value β) :
    Chain obj (translateAll codec orders dir translators obj).2
      (translateAll codec orders dir translators obj).1 := by
  induction translators generalizing orders obj with
  | nil => rfl
  | cons tr rest ih => exact ⟨rfl, ih _ _⟩

section Receiving

/-- What the wrapped stream does with the object it is given: it overwrites it with the next
    message, or it fails and leaves anything in it. -/
inductive Arrival (β : Type) where
  | message (m : Value β)
  | fails (err : String) (left : Value β)

abbrev Objects (β : Type) := Nat → Value β

def serverStreamRecvMsg (objects : Objects β) (object : Nat) :
    Arrival β → Objects β × Option String
  | .message m => (Function.update objects object m, none)
  | .fails err left => (Function.update objects object left, some err)

/-- streamTranslator.RecvMsg. -/
def recvMsg (codec : Codec β) (orders : Nat → Orders β) (translators : List Translator)
    (objects : Objects β) (object : Nat) (arrival : Arrival β) : Objects β × Option String :=
  let (m, _) := translateAll codec orders .request translators (objects object)
  serverStreamRecvMsg (Function.update objects object m) object arrival

/-- A call of the handler, which may have made new objects or worked on those it has. -/
structure Receive (β : Type) where
  prepare : Objects β → Objects β
  orders : Nat → Orders β
  object : Nat
  arrival : Arrival β

/-- What the handler finds in its objects whenever RecvMsg has returned nil. -/
def observed (codec : Codec β) (translators : List Translator) :
    Objects β → List (Receive β) → List (Value β)
  | _, [] => []
  | objects, call :: rest =>
    let (objects', err) :=
      recvMsg codec call.orders translators (call.prepare objects) call.object call.arrival
    match err with
    | none => objects' call.object :: observed codec translators objects' rest
    | some _ => observed codec translators objects' rest

def arrived : List (Receive β) → List (Value β)
  | [] => []
  | call :: rest =>
    match call.arrival with
    | .message m => m :: arrived rest
    | .fails _ _ => arrived rest

/- The translation is overwritten, whatever the object was. -/
theorem observed_eq_arrived (codec : Codec β) (translators : List Translator) (objects : Objects β)
    (calls : List (Receive β)) : observed codec translators objects calls = arrived calls := by
  induction calls generalizing objects with
  | nil => rfl
  | cons call rest ih =>
    obtain ⟨prepare, orders, object, arrival⟩ := call
    cases arrival with
    | message m => simp [observed, arrived, recvMsg, serverStreamRecvMsg, ih]
    | fails err left => simp [observed, arrived, recvMsg, serverStreamRecvMsg, ih]

theorem received_messages_translated_iff (codec : Codec β) (orders : Nat → Orders β)
    (translators : List Translator) (objects : Objects β) (calls : List (Receive β)) :
    observed codec translators objects calls =
        (arrived calls).map (fun m => (translateAll codec orders .request translators m).1) ↔
      ∀ m ∈ arrived calls, (translateAll codec orders .request translators m).1 = m := by
  rw [observed_eq_arrived]
  constructor
  · intro same m member
    have pointwise := List.map_inj_left.mp ((List.map_id _).trans same)
    exact (pointwise m member).symm
  · intro fixed
    rw [List.map_congr_left fixed, List.map_id']

end Receiving

def namespaceRequest (name : String) : Value (Option (Children Empty)) :=
  .message "*sample.Request" (.cons (exportedField "Namespace") (.str name) .empty)

theorem namespaceRequest_translated :
    (translateAll sampleCodec (fun _ => fieldOrders) .request [.namespaceName sampleMap ∅]
      (namespaceRequest "local")).1 = namespaceRequest "remote" := rfl

/-- A message comes into a new object and then into the same one again; the name is the old one
    both times. -/
theorem received_message_not_translated :
    let call : Receive (Option (Children Empty)) :=
      ⟨id, fun _ => fieldOrders, 0, .message (namespaceRequest "local")⟩
    observed sampleCodec [.namespaceName sampleMap ∅] (fun _ => .nil) [call, call] =
        [namespaceRequest "local", namespaceRequest "local"] ∧
      (arrived [call, call]).map
          (fun m => (translateAll sampleCodec (fun _ => fieldOrders) .request
            [.namespaceName sampleMap ∅] m).1) =
        [namespaceRequest "remote", namespaceRequest "remote"] ∧
      namespaceRequest "local" ≠ namespaceRequest "remote" := by
  refine ⟨observed_eq_arrived _ _ _ _, ?_, by simp [namespaceRequest]⟩
  simp only [arrived, List.map_cons, List.map_nil, namespaceRequest_translated]

end TranslationInterceptor
