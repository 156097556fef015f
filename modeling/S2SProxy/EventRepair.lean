import S2SProxy.MessageTree

/- The repair of one history event of the old protos: it replaces invalid bytes in the messages of a
   failure chain and looks at no other string of the event. -/
namespace EventRepair
open MessageTree

/-- A Go string by its runes; none is a byte that is no part of a valid encoding. -/
abbrev GoString := List (Option Char)

def validString (s : GoString) : Bool := s.all Option.isSome

def replacementCharacter : Char := Char.ofNat 0xFFFD

/-- strings.ToValidUTF8 with the replacement character: one for each run of invalid bytes. -/
def toValidUTF8 : GoString → GoString
  | [] => []
  | some c :: rest => some c :: toValidUTF8 rest
  | none :: none :: rest => toValidUTF8 (none :: rest)
  | none :: rest => some replacementCharacter :: toValidUTF8 rest

structure FailureNode122 where
  message : GoString
  others : List GoString
  deriving DecidableEq

abbrev Failure122 := List FailureNode122

def maxFailureDepth : Nat := 10

def repairFailureChain : Nat → Failure122 → Failure122 × Bool × Option String
  | _, [] => ([], false, none)
  | 0, failure => (failure, false, some "reached maximum failure chain depth")
  | count + 1, failure :: cause =>
    let (cause, changed, err) := repairFailureChain count cause
    if validString failure.message then (failure :: cause, changed, err)
    else ({ failure with message := toValidUTF8 failure.message } :: cause, true, err)

def repairInvalidUTF8InFailure : Failure122 → Failure122 × Bool × Option String :=
  repairFailureChain maxFailureDepth

/-- The attributes with a failure: Failure, LastFailure, ContinuedFailure or Outcome. -/
def attributesWithFailure : List EventType :=
  [.activityTaskFailed, .activityTaskStarted, .activityTaskTimedOut, .childWorkflowExecutionFailed,
    .markerRecorded, .workflowExecutionContinuedAsNew, .workflowExecutionFailed,
    .workflowExecutionStarted, .workflowExecutionUpdateCompleted, .workflowExecutionUpdateRejected,
    .workflowTaskFailed]

/-- A history event of the old protos: its attributes, the failure in them and every other
    string of the event. -/
structure HistoryEvent122 where
  attributes : EventType
  failure : Failure122
  others : List GoString
  deriving DecidableEq

/-- RepairInvalidUTF8 of a *history.HistoryEvent. -/
def repairInvalidUTF8 (event : HistoryEvent122) : HistoryEvent122 × Bool × Option String :=
  if event.attributes ∈ attributesWithFailure then
    let (failure, changed, err) := repairInvalidUTF8InFailure event.failure
    ({ event with failure := failure }, changed, err)
  else (event, false, none)

def validateAndRepairHistoryEvents :
    List HistoryEvent122 → List HistoryEvent122 × Bool × Option String
  | [] => ([], false, none)
  | event :: rest =>
    match repairInvalidUTF8 event with
    | (event, c, some err) => (event :: rest, c, some err)
    | (event, c, none) =>
      let (rest, changed, err) := validateAndRepairHistoryEvents rest
      (event :: rest, c || changed, err)

/-! What the repair is for: every message of every failure is made valid, and nothing else is
    touched. -/

def invalidNode (node : FailureNode122) : Bool := !validString node.message

def repairedNode (node : FailureNode122) : FailureNode122 :=
  if validString node.message then node else { node with message := toValidUTF8 node.message }

def seenFailure (event : HistoryEvent122) : Failure122 :=
  if event.attributes ∈ attributesWithFailure then event.failure else []

def repairedEvent (event : HistoryEvent122) : HistoryEvent122 :=
  if event.attributes ∈ attributesWithFailure then
    { event with failure := event.failure.map repairedNode }
  else event

def Shallow (events : List HistoryEvent122) : Prop :=
  ∀ event ∈ events, (seenFailure event).length ≤ maxFailureDepth

def Broken (events : List HistoryEvent122) : Prop :=
  ∃ event ∈ events, ∃ node ∈ seenFailure event, validString node.message = false

instance (events : List HistoryEvent122) : Decidable (Shallow events) :=
  inferInstanceAs (Decidable (∀ event ∈ events, _))

instance (events : List HistoryEvent122) : Decidable (Broken events) :=
  inferInstanceAs (Decidable (∃ event ∈ events, _))

theorem toValidUTF8_valid (s : GoString) : validString (toValidUTF8 s) = true := by
  fun_induction toValidUTF8 s with
  | case1 => rfl
  | case2 c rest ih => simpa [validString] using ih
  | case3 rest ih => exact ih
  | case4 rest _ ih => simpa [validString] using ih

theorem repairFailureChain_eq (count : Nat) (failure : Failure122) :
    repairFailureChain count failure =
      ((failure.take count).map repairedNode ++ failure.drop count,
        (failure.take count).any invalidNode,
        if failure.length ≤ count then none else some "reached maximum failure chain depth") := by
  induction failure generalizing count with
  | nil => cases count <;> simp [repairFailureChain]
  | cons node cause ih =>
    cases count with
    | zero => simp [repairFailureChain]
    | succ count =>
      cases valid : validString node.message <;>
        simp [repairFailureChain, ih count, repairedNode, invalidNode, valid]

theorem repairInvalidUTF8_short {event : HistoryEvent122}
    (short : (seenFailure event).length ≤ maxFailureDepth) :
    repairInvalidUTF8 event = (repairedEvent event, (seenFailure event).any invalidNode, none) := by
  by_cases seen : event.attributes ∈ attributesWithFailure
  · rw [seenFailure, if_pos seen] at short
    simp [repairInvalidUTF8, seen, repairInvalidUTF8InFailure, repairFailureChain_eq, seenFailure,
      repairedEvent, short, List.take_of_length_le, List.drop_eq_nil_of_le]
  · simp [repairInvalidUTF8, seen, seenFailure, repairedEvent]

theorem repairInvalidUTF8_deep {event : HistoryEvent122}
    (deep : ¬ (seenFailure event).length ≤ maxFailureDepth) :
    (repairInvalidUTF8 event).2.2 = some "reached maximum failure chain depth" := by
  by_cases seen : event.attributes ∈ attributesWithFailure
  · rw [seenFailure, if_pos seen] at deep
    simp [repairInvalidUTF8, seen, repairInvalidUTF8InFailure, repairFailureChain_eq, deep]
  · simp [seenFailure, seen] at deep

theorem validateAndRepair_shallow {events : List HistoryEvent122} (shallow : Shallow events) :
    validateAndRepairHistoryEvents events =
      (events.map repairedEvent, events.any fun event => (seenFailure event).any invalidNode, none) := by
  induction events with
  | nil => rfl
  | cons event rest ih =>
    have here := repairInvalidUTF8_short (shallow event List.mem_cons_self)
    have later := ih fun e member => shallow e (List.mem_cons_of_mem _ member)
    simp only [validateAndRepairHistoryEvents, here, later]
    rfl

/-- One failure that is too deep makes the whole repair fail. -/
theorem validateAndRepair_deep {events : List HistoryEvent122} (deep : ¬ Shallow events) :
    (validateAndRepairHistoryEvents events).2.2 = some "reached maximum failure chain depth" := by
  induction events with
  | nil => exact absurd (by simp [Shallow]) deep
  | cons event rest ih =>
    by_cases short : (seenFailure event).length ≤ maxFailureDepth
    · have later : ¬ Shallow rest := fun rest => deep (List.forall_mem_cons.mpr ⟨short, rest⟩)
      simp [validateAndRepairHistoryEvents, repairInvalidUTF8_short short, ih later]
    · have here := repairInvalidUTF8_deep short
      obtain ⟨fixed, changed, err, same⟩ : ∃ fixed changed err,
        repairInvalidUTF8 event = (fixed, changed, err) := ⟨_, _, _, rfl⟩
      rw [same] at here
      obtain rfl : err = _ := here
      simp [validateAndRepairHistoryEvents, same]

theorem any_broken (events : List HistoryEvent122) :
    (events.any fun event => (seenFailure event).any invalidNode) = true ↔ Broken events := by
  simp [Broken, invalidNode]

end EventRepair
