import Mathlib

/- Messages as reflection sees them: trees of values, each with the struct field it is held
   by. The types that the interceptors single out have constructors of their own. Events do
   not hold blobs, so an event is a tree over the empty type of blobs. -/
namespace MessageTree

/-- enums.EventType, with one constructor for the types the proxy does not know. -/
inductive EventType where
  | unspecified
  | workflowExecutionStarted
  | workflowExecutionCompleted
  | workflowExecutionFailed
  | workflowExecutionTimedOut
  | workflowTaskScheduled
  | workflowTaskStarted
  | workflowTaskCompleted
  | workflowTaskTimedOut
  | workflowTaskFailed
  | activityTaskScheduled
  | activityTaskStarted
  | activityTaskCompleted
  | activityTaskFailed
  | activityTaskTimedOut
  | activityTaskCancelRequested
  | activityTaskCanceled
  | timerStarted
  | timerFired
  | timerCanceled
  | workflowExecutionCancelRequested
  | workflowExecutionCanceled
  | requestCancelExternalWorkflowExecutionInitiated
  | requestCancelExternalWorkflowExecutionFailed
  | externalWorkflowExecutionCancelRequested
  | markerRecorded
  | workflowExecutionSignaled
  | workflowExecutionTerminated
  | workflowExecutionContinuedAsNew
  | startChildWorkflowExecutionInitiated
  | startChildWorkflowExecutionFailed
  | childWorkflowExecutionStarted
  | childWorkflowExecutionCompleted
  | childWorkflowExecutionFailed
  | childWorkflowExecutionCanceled
  | childWorkflowExecutionTimedOut
  | childWorkflowExecutionTerminated
  | signalExternalWorkflowExecutionInitiated
  | signalExternalWorkflowExecutionFailed
  | externalWorkflowExecutionSignaled
  | upsertWorkflowSearchAttributes
  | workflowExecutionUpdateAdmitted
  | workflowExecutionUpdateAccepted
  | workflowExecutionUpdateRejected
  | workflowExecutionUpdateCompleted
  | workflowPropertiesModifiedExternally
  | activityPropertiesModifiedExternally
  | workflowPropertiesModified
  | nexusOperationScheduled
  | nexusOperationStarted
  | nexusOperationCompleted
  | nexusOperationFailed
  | nexusOperationCanceled
  | nexusOperationTimedOut
  | nexusOperationCancelRequested
  | workflowExecutionOptionsUpdated
  | workflowExecutionPaused
  | workflowExecutionUnpaused
  | workflowExecutionTimeSkippingTransitioned
  | unlisted (number : Nat)
  deriving DecidableEq

def namespaceTranslationSkippableHistoryEvents : List EventType :=
  [.workflowExecutionCompleted, .workflowExecutionFailed, .workflowExecutionTimedOut,
    .workflowTaskScheduled, .workflowTaskStarted, .workflowTaskCompleted, .workflowTaskTimedOut,
    .workflowTaskFailed, .activityTaskScheduled, .activityTaskStarted, .activityTaskCompleted,
    .activityTaskFailed, .activityTaskTimedOut, .activityTaskCancelRequested,
    .activityTaskCanceled, .timerStarted, .timerFired, .timerCanceled,
    .workflowExecutionCancelRequested, .workflowExecutionCanceled, .markerRecorded,
    .workflowExecutionSignaled, .workflowExecutionTerminated, .workflowExecutionContinuedAsNew,
    .upsertWorkflowSearchAttributes, .workflowExecutionUpdateAdmitted,
    .workflowExecutionUpdateAccepted, .workflowExecutionUpdateRejected,
    .workflowExecutionUpdateCompleted, .workflowPropertiesModifiedExternally,
    .activityPropertiesModifiedExternally, .workflowPropertiesModified, .nexusOperationScheduled,
    .nexusOperationStarted, .nexusOperationCompleted, .nexusOperationFailed,
    .nexusOperationCanceled, .nexusOperationTimedOut, .nexusOperationCancelRequested,
    .workflowExecutionOptionsUpdated, .workflowExecutionPaused, .workflowExecutionUnpaused,
    .workflowExecutionTimeSkippingTransitioned]

def namespaceFieldNames : List String :=
  ["Namespace", "WorkflowNamespace", "ParentWorkflowNamespace"]

def dataBlobFieldNames : List String :=
  ["Events", "NewRunEvents", "EventBatch", "EventBatches", "EventsBatches", "HistoryBatches"]

def searchAttributeFieldNames : List String := ["SearchAttributes"]

structure StructField where
  name : String
  exported : Bool
  deriving DecidableEq

abbrev Payload := Int

abbrev IndexedFields := AList fun _ : String => Payload

mutual
/-- A value of a message over blobs β. A pointer to a struct and an interface that holds such
    a pointer are walked alike and are one constructor; maps are walked like slices. -/
inductive Value (β : Type) where
  | scalar (type : String) (code : Int)
  | str (s : String)
  | nil
  | dataBlob (blob : β)
  | dataBlobs (blobs : List (Option β))
  | payloads (fields : IndexedFields)
  | searchAttributes (indexedFields : IndexedFields)
  | namespaceInfo (name : String) (rest : Children β)
  | history (events : Children β)
  | historyEvent (eventType : EventType) (rest : Children β)
  | message (type : String) (fields : Children β)
  | list (type : String) (elements : Children β)
/-- The values below a value. A slot is the struct field that holds the value, or none when
    the parent is not a struct. -/
inductive Children (β : Type) where
  | empty
  | cons (slot : Option StructField) (value : Value β) (rest : Children β)
end

abbrev Event := Value Empty

variable {β : Type}

/-- Getters of generated messages; a field that is not set reads as nil. -/
def Children.get (name : String) : Children β → Value β
  | .empty => .nil
  | .cons none _ rest => rest.get name
  | .cons (some field) v rest => if field.name = name then v else rest.get name

def Value.children : Value β → Children β
  | .historyEvent _ rest => rest
  | .message _ fields => fields
  | .list _ elements => elements
  | _ => .empty

def Value.text : Value β → String
  | .str s => s
  | _ => ""

def Children.all (p : Value β → Bool) : Children β → Bool
  | .empty => true
  | .cons _ v rest => p v && rest.all p

/-- l.GetWorkflowEvent().GetNamespace() of a *common.Link. -/
def linkNamespace (l : Value β) : String :=
  let variant := l.children.get "Variant"
  let workflowEvent := variant.children.get "WorkflowEvent"
  (workflowEvent.children.get "Namespace").text

def skippableEvent (eventType : EventType) (rest : Children β) : Bool :=
  let links := (rest.get "Links").children
  links.all (fun l => (linkNamespace l).isEmpty) &&
    decide (eventType ∈ namespaceTranslationSkippableHistoryEvents)

def skippableElement : Value β → Bool
  | .historyEvent eventType rest => skippableEvent eventType rest
  | _ => false

def historyEventsType : String := "[]*history.HistoryEvent"

def isSkippableForNamespaceTranslation : Value β → Bool
  | .message type _ => type = "*workflowservice.ListWorkflowExecutionsResponse"
  | .list type elements => type = historyEventsType && elements.all skippableElement
  | .historyEvent eventType rest => skippableEvent eventType rest
  | _ => false

def Value.typeName : Value β → String
  | .scalar type _ => type
  | .str _ => "string"
  | .nil => "nil"
  | .dataBlob _ => "*common.DataBlob"
  | .dataBlobs _ => "[]*common.DataBlob"
  | .payloads _ => "map[string]*common.Payload"
  | .searchAttributes _ => "*common.SearchAttributes"
  | .namespaceInfo _ _ => "*namespace.NamespaceInfo"
  | .history _ => "*history.History"
  | .historyEvent _ _ => "*history.HistoryEvent"
  | .message type _ => type
  | .list type _ => type

/-- The services whose full method names the interceptors tell apart by prefix. -/
inductive Service where
  | workflow
  | admin
  | operator
  | other
  deriving DecidableEq

/-- info.FullMethod: the service and api.MethodName. -/
structure Method where
  service : Service
  name : String

end MessageTree
