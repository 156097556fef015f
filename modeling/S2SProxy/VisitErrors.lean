import Mathlib

/- What the caller of the admin encryptor is told when a payload, a failure or opaque data could
   not be visited. The cause is marked as a visit error where it arises; the libraries between
   there and the caller may wrap it. -/
namespace VisitErrors

inductive Code where
  | internal
  | unknown
  | other (number : Nat)
  deriving DecidableEq

/-- An error with the errors it wraps. -/
inductive GoError where
  | plain (text : String)
  | status (code : Code) (message : String)
  | wrap (text : String) (inner : GoError)
  | join (text : String) (first second : GoError)
  | visit (cause : GoError)
  deriving DecidableEq

def asVisitError : GoError → Option GoError
  | .plain _ => none
  | .status _ _ => none
  | .wrap _ inner => asVisitError inner
  | .join _ first second => (asVisitError first).or (asVisitError second)
  | .visit cause => some (.visit cause)

def surface (err : GoError) : GoError :=
  match asVisitError err with
  | some visitErr => visitErr
  | none => err

def markVisitError (err : GoError) : GoError :=
  match asVisitError err with
  | some _ => err
  | none => .visit err

def GoError.text : GoError → String
  | .plain text => text
  | .status _ message => message
  | .wrap text _ => text
  | .join text _ _ => text
  | .visit cause => cause.text

def genericMessage : String := "s2s-proxy could not seal or open a replication message; see its logs"

/-- The code of the first error in the tree that has a status of its own. -/
def statusCode : GoError → Option Code
  | .plain _ => none
  | .status code _ => some code
  | .wrap _ inner => statusCode inner
  | .join _ first second => (statusCode first).or (statusCode second)
  | .visit _ => some .internal

/-- The status built from an error: its own, or a wrapped code with the wrapper's text. -/
def grpcStatus : GoError → Code × String
  | .status code message => (code, message)
  | .visit _ => (.internal, genericMessage)
  | err => ((statusCode err).getD .unknown, err.text)

/-- The outer error is the inner one or wraps it. -/
inductive Holds : GoError → GoError → Prop where
  | self (e : GoError) : Holds e e
  | wrap {text inner e} (h : Holds inner e) : Holds (.wrap text inner) e
  | joinFirst {text first second e} (h : Holds first e) : Holds (.join text first second) e
  | joinSecond {text first second e} (h : Holds second e) : Holds (.join text first second) e

/-- What the libraries make of a visitor's error on its way back. -/
structure Wrapping where
  apply : GoError → GoError
  holds : ∀ e, Holds (apply e) e

/-- How a visit ends: well, by a visitor's error, or by an error of its own such as a blob that
    does not decode. -/
inductive Outcome where
  | ok
  | failed (cause : GoError) (wrapping : Wrapping)
  | other (err : GoError)

def Outcome.result : Outcome → Option GoError
  | .ok => none
  | .failed cause wrapping => some (wrapping.apply (markVisitError cause))
  | .other err => some err

/-- One direction's work: the visit of a message, and the visits of the payloads and of the
    failures in the details of a call's error. -/
structure AdminVisit where
  message : Outcome
  details : Outcome
  failureDetails : Option Outcome
  failuresAfter : Bool

def visit : Option AdminVisit → Option GoError
  | none => none
  | some v => v.message.result

/-- The visit of an error's details by an interceptor around a call that returned the error. -/
def interceptDetails (outcome : Outcome) (err : GoError) : GoError :=
  match statusCode err with
  | none => err
  | some code =>
    match outcome.result with
    | some failure => failure
    | none => .status code err.text

def runDetails (interceptor : Option Outcome) (err : GoError) : GoError :=
  match interceptor, asVisitError err with
  | some outcome, none => interceptDetails outcome err
  | _, _ => err

def visitError (v : Option AdminVisit) (err : GoError) : GoError :=
  match v with
  | none => err
  | some v =>
    if v.failuresAfter then runDetails v.failureDetails (runDetails (some v.details) err)
    else runDetails (some v.details) (runDetails v.failureDetails err)

/-- The four ways back to the caller, with the outcome of the call or stream underneath. -/
inductive Path where
  | unary (req resp : Option AdminVisit) (called : Option GoError)
  | openStream (resp : Option AdminVisit) (opened : Option GoError)
  | sendMsg (send : Option AdminVisit) (sent : Option GoError)
  | recvMsg (recv : Option AdminVisit) (received : Option GoError)

def adminUnary (req resp : Option AdminVisit) (called : Option GoError) : Option GoError :=
  match visit req, called with
  | some err, _ => some (surface err)
  | none, some err => some (surface (visitError resp err))
  | none, none => (visit resp).map surface

/-- The failure is reported, and returned as it is. -/
def adminStream (resp : Option AdminVisit) (opened : Option GoError) : Option GoError :=
  match opened with
  | some err => some (visitError resp err)
  | none => none

def sendMsg (send : Option AdminVisit) (sent : Option GoError) : Option GoError :=
  match visit send with
  | some err => some (surface err)
  | none => sent

def recvMsg (recv : Option AdminVisit) (received : Option GoError) : Option GoError :=
  match received with
  | some err => some (surface (visitError recv err))
  | none => (visit recv).map surface

def Path.returned : Path → Option GoError
  | .unary req resp called => adminUnary req resp called
  | .openStream resp opened => adminStream resp opened
  | .sendMsg send sent => VisitErrors.sendMsg send sent
  | .recvMsg recv received => VisitErrors.recvMsg recv received

def Outcome.failure : Outcome → Option (GoError × Wrapping)
  | .failed cause wrapping => some (cause, wrapping)
  | _ => none

def messageFailure : Option AdminVisit → Option (GoError × Wrapping)
  | none => none
  | some v => v.message.failure

/-- The details of an error are visited unless it is a failed visit, or no status. -/
def runFailure (interceptor : Option Outcome) (err : GoError) : Option (GoError × Wrapping) :=
  match interceptor, asVisitError err, statusCode err with
  | some outcome, none, some _ => outcome.failure
  | _, _, _ => none

def detailsFailure (v : Option AdminVisit) (err : GoError) : Option (GoError × Wrapping) :=
  match v with
  | none => none
  | some v =>
    let first := if v.failuresAfter then some v.details else v.failureDetails
    let second := if v.failuresAfter then v.failureDetails else some v.details
    (runFailure first err).or (runFailure second (runDetails first err))

def Path.failure : Path → Option (GoError × Wrapping)
  | .unary req resp called =>
    match visit req, called with
    | some _, _ => messageFailure req
    | none, some err => detailsFailure resp err
    | none, none => messageFailure resp
  | .openStream resp opened => opened.bind (detailsFailure resp)
  | .sendMsg send _ => messageFailure send
  | .recvMsg recv received =>
    match received with
    | some err => detailsFailure recv err
    | none => messageFailure recv

def Outermost (err : GoError) : Prop := ∃ cause, err = .visit cause

instance (err : GoError) : Decidable (Outermost err) :=
  match err with
  | .visit cause => .isTrue ⟨cause, rfl⟩
  | .plain _ => .isFalse nofun
  | .status _ _ => .isFalse nofun
  | .wrap _ _ => .isFalse nofun
  | .join _ _ _ => .isFalse nofun

/-- When a stream is opened, the libraries hand the marked error back unwrapped. -/
def OpensUnwrapped : Path → Prop
  | .openStream resp opened => ∀ failure ∈ opened.bind (detailsFailure resp),
      Outermost (failure.2.apply (markVisitError failure.1))
  | _ => True

theorem asVisitError_outermost {err found : GoError} (h : asVisitError err = some found) :
    Outermost found := by
  induction err with
  | plain => cases h
  | status => cases h
  | wrap text inner ih => exact ih h
  | join text first second ih ih' =>
    rcases Option.or_eq_some_iff.mp h with here | ⟨-, later⟩
    · exact ih here
    · exact ih' later
  | visit cause =>
    cases h
    exact ⟨cause, rfl⟩

theorem asVisitError_mark (err : GoError) : ∃ found, asVisitError (markVisitError err) = some found := by
  unfold markVisitError
  split
  · next found h => exact ⟨found, h⟩
  · exact ⟨.visit err, rfl⟩

theorem Holds.asVisitError {outer inner : GoError} (h : Holds outer inner)
    (found : ∃ v, VisitErrors.asVisitError inner = some v) :
    ∃ v, VisitErrors.asVisitError outer = some v := by
  induction h with
  | self => exact found
  | wrap _ ih => exact ih found
  | joinFirst _ ih =>
    obtain ⟨v, here⟩ := ih found
    exact ⟨v, by simp [VisitErrors.asVisitError, here]⟩
  | @joinSecond text first second e _ ih =>
    obtain ⟨v, here⟩ := ih found
    cases other : VisitErrors.asVisitError first with
    | none => exact ⟨v, by simp [VisitErrors.asVisitError, here, other]⟩
    | some w => exact ⟨w, by simp [VisitErrors.asVisitError, other]⟩

/- However a marked error is wrapped, the visit error is found in it. -/
theorem asVisitError_wrapped (cause : GoError) (wrapping : Wrapping) :
    ∃ v, asVisitError (wrapping.apply (markVisitError cause)) = some v :=
  (wrapping.holds _).asVisitError (asVisitError_mark cause)

theorem surface_wrapped (cause : GoError) (wrapping : Wrapping) :
    Outermost (surface (wrapping.apply (markVisitError cause))) := by
  obtain ⟨v, found⟩ := asVisitError_wrapped cause wrapping
  simp only [surface, found]
  exact asVisitError_outermost found

section Failures
variable {failure : GoError × Wrapping}

theorem Outcome.result_failure {outcome : Outcome} (h : outcome.failure = some failure) :
    outcome.result = some (failure.2.apply (markVisitError failure.1)) := by
  cases outcome <;> cases h
  rfl

theorem visit_failure {v : Option AdminVisit} (h : messageFailure v = some failure) :
    visit v = some (failure.2.apply (markVisitError failure.1)) := by
  cases v with
  | none => cases h
  | some v => exact Outcome.result_failure h

theorem runDetails_failure {interceptor : Option Outcome} {err : GoError}
    (h : runFailure interceptor err = some failure) :
    runDetails interceptor err = failure.2.apply (markVisitError failure.1) := by
  unfold runFailure at h
  split at h
  · next outcome code notVisit isStatus =>
    simp only [runDetails, notVisit, interceptDetails, isStatus, Outcome.result_failure h]
  · cases h

theorem runDetails_after (interceptor : Option Outcome) (cause : GoError) (wrapping : Wrapping) :
    runDetails interceptor (wrapping.apply (markVisitError cause)) =
      wrapping.apply (markVisitError cause) := by
  obtain ⟨v, found⟩ := asVisitError_wrapped cause wrapping
  cases interceptor <;> simp [runDetails, found]

theorem visitError_failure {v : Option AdminVisit} {err : GoError}
    (h : detailsFailure v err = some failure) :
    visitError v err = failure.2.apply (markVisitError failure.1) := by
  cases v with
  | none => cases h
  | some v =>
    have inOrder : visitError (some v) err =
        runDetails (if v.failuresAfter then v.failureDetails else some v.details)
          (runDetails (if v.failuresAfter then some v.details else v.failureDetails) err) := by
      cases after : v.failuresAfter <;> simp [visitError, after]
    rw [inOrder]
    rcases Option.or_eq_some_iff.mp h with first | ⟨-, second⟩
    · rw [runDetails_failure first, runDetails_after]
    · exact runDetails_failure second

end Failures

/- What comes back from a failed visit: the visit error, or, when a stream is opened, the error
   as the libraries wrapped it. -/
theorem returned_failure {p : Path} {failure : GoError × Wrapping} (h : p.failure = some failure) :
    ∃ err, p.returned = some err ∧ (Outermost err ↔ OpensUnwrapped p) := by
  have surfaced := surface_wrapped failure.1 failure.2
  cases p with
  | unary req resp called =>
    simp only [Path.failure] at h
    split at h
    · next err visited =>
      refine ⟨surface err, by simp [Path.returned, adminUnary, visited], ?_⟩
      cases visited.symm.trans (visit_failure h)
      exact iff_of_true surfaced trivial
    · next err visited =>
      refine ⟨surface (visitError resp err), by simp [Path.returned, adminUnary, visited], ?_⟩
      rw [visitError_failure h]
      exact iff_of_true surfaced trivial
    · next visited =>
      refine ⟨surface (failure.2.apply (markVisitError failure.1)), ?_, ?_⟩
      · simp [Path.returned, adminUnary, visited, visit_failure h]
      · exact iff_of_true surfaced trivial
  | openStream resp opened =>
    cases opened with
    | none => cases h
    | some err =>
      refine ⟨visitError resp err, rfl, ?_⟩
      have h : detailsFailure resp err = some failure := h
      simp [OpensUnwrapped, visitError_failure h, h]
  | sendMsg send sent =>
    refine ⟨surface (failure.2.apply (markVisitError failure.1)), ?_, ?_⟩
    · simp [Path.returned, VisitErrors.sendMsg, visit_failure h]
    · exact iff_of_true surfaced trivial
  | recvMsg recv received =>
    cases received with
    | some err =>
      refine ⟨_, rfl, ?_⟩
      rw [visitError_failure h]
      exact iff_of_true surfaced trivial
    | none =>
      refine ⟨surface (failure.2.apply (markVisitError failure.1)), ?_, ?_⟩
      · simp [Path.returned, VisitErrors.recvMsg, visit_failure h]
      · exact iff_of_true surfaced trivial

theorem failed_visit_returns_visit_error_iff (p : Path) (failure : GoError × Wrapping)
    (h : p.failure = some failure) :
    ((∃ err, p.returned = some err ∧ Outermost err) ↔ OpensUnwrapped p) ∧
      (OpensUnwrapped p → p.returned.map grpcStatus = some (.internal, genericMessage)) := by
  obtain ⟨err, returned, exact_⟩ := returned_failure h
  refine ⟨⟨?_, fun unwrapped => ⟨err, returned, exact_.mpr unwrapped⟩⟩, fun unwrapped => ?_⟩
  · rintro ⟨err', returned', outermost⟩
    cases returned.symm.trans returned'
    exact exact_.mp outermost
  · obtain ⟨cause, rfl⟩ := exact_.mpr unwrapped
    rw [returned]
    rfl

section Samples

def unwrapped : Wrapping where
  apply e := e
  holds := .self

def wrappedOnce (text : String) : Wrapping where
  apply e := .wrap (text ++ e.text) e
  holds e := .wrap (.self e)

/-- Opening a stream failed with details that could not be opened. -/
def refusedStream (cause : String) (wrapping : Wrapping) : Path :=
  .openStream
    (some { message := .ok, details := .failed (.plain cause) wrapping, failureDetails := some .ok,
            failuresAfter := true })
    (some (.status (.other 5) "no such cluster"))

end Samples

theorem refused_stream_returns_visit_error :
    (refusedStream "kms: key" unwrapped).failure = some (.plain "kms: key", unwrapped) ∧
      OpensUnwrapped (refusedStream "kms: key" unwrapped) ∧
      (refusedStream "kms: key" unwrapped).returned.map grpcStatus =
        some (.internal, genericMessage) := by
  have opens : OpensUnwrapped (refusedStream "kms: key" unwrapped) := by
    rintro failure ⟨⟩
    exact ⟨_, rfl⟩
  exact ⟨rfl, opens, (failed_visit_returns_visit_error_iff _ (.plain "kms: key", unwrapped) rfl).2 opens⟩

/- Two causes, one wrapping: the two statuses name them. -/
theorem refused_stream_reveals_cause :
    (refusedStream "kms: key" (wrappedOnce "visit: ")).returned.map grpcStatus =
        some (.internal, "visit: kms: key") ∧
      (refusedStream "no binding" (wrappedOnce "visit: ")).returned.map grpcStatus =
        some (.internal, "visit: no binding") ∧
      ¬∃ err, (refusedStream "kms: key" (wrappedOnce "visit: ")).returned = some err ∧
        Outermost err := by
  refine ⟨by decide, by decide, ?_⟩
  rintro ⟨err, ⟨⟩, cause, same⟩
  cases same

end VisitErrors
