import Mathlib

/- A reader hands what it receives to a writer over an unbuffered channel, and the writer
   passes on what its handler lets through. Both may leave once they see the shutdown signal;
   the reader closes the channel as it leaves. A value taken from a closed channel is the zero
   value. -/
namespace StoppableRelay
variable {ρ μ : Type}

inductive Reader (ρ : Type) where
  | idle
  | checking
  | receiving
  | offering (r : ρ)
  | closed

inductive Writer (μ : Type) where
  | starting
  | selecting
  | sending (m : μ)
  | awaiting
  | leaving
  | left

inductive Event (ρ μ : Type) where
  | took (r : ρ)
  | tookClosed
  | sent (m : μ)
  | sendFailed

/-- The two ends of the channel, with the history of what was received and of what the writer
    did. -/
structure Relay (ρ μ : Type) where
  reader : Reader ρ := .idle
  writer : Writer μ := .starting
  received : List ρ := []
  log : List (Event ρ μ) := []

inductive Move (ρ : Type) where
  | start
  | check
  | receive (r : ρ)
  | handOver
  | abandon
  | takeClosed
  | stop
  | send
  | sendReturned (ok : Bool)
  | leave

section Moves
variable (handle : ρ → Option μ) (zero : ρ)

def proceed (r : ρ) : Writer μ :=
  match handle r with
  | some m => .sending m
  | none => .leaving

/-- One step of one end, or of both at the channel. A select with several ready cases may take
    any of them. -/
def move (shutdown : Bool) (x : Relay ρ μ) : Move ρ → Option (Relay ρ μ)
  | .start =>
    match x.reader, x.writer with
    | .idle, .starting => some { x with reader := .checking, writer := .selecting }
    | _, _ => none
  | .check =>
    match x.reader with
    | .checking => some { x with reader := if shutdown then .closed else .receiving }
    | _ => none
  | .receive r =>
    match x.reader with
    | .receiving => some { x with reader := .offering r, received := x.received ++ [r] }
    | _ => none
  | .handOver =>
    match x.reader, x.writer with
    | .offering r, .selecting =>
      some { x with reader := .checking, writer := proceed handle r, log := x.log ++ [.took r] }
    | _, _ => none
  | .abandon =>
    match x.reader, shutdown with
    | .offering _, true => some { x with reader := .closed }
    | _, _ => none
  | .takeClosed =>
    match x.reader, x.writer with
    | .closed, .selecting =>
      some { x with writer := proceed handle zero, log := x.log ++ [.tookClosed] }
    | _, _ => none
  | .stop =>
    match x.writer, shutdown with
    | .selecting, true => some { x with writer := .leaving }
    | _, _ => none
  | .send =>
    match x.writer with
    | .sending m => some { x with writer := .awaiting, log := x.log ++ [.sent m] }
    | _ => none
  | .sendReturned true =>
    match x.writer with
    | .awaiting => some { x with writer := .selecting }
    | _ => none
  | .sendReturned false =>
    match x.writer with
    | .awaiting => some { x with writer := .leaving, log := x.log ++ [.sendFailed] }
    | _ => none
  | .leave =>
    match x.writer with
    | .leaving => some { x with writer := .left }
    | _ => none

/-- The moves, with what each needs. -/
inductive Moved (shutdown : Bool) : Relay ρ μ → Move ρ → Relay ρ μ → Prop where
  | start {received log} :
      Moved shutdown ⟨.idle, .starting, received, log⟩ .start
        ⟨.checking, .selecting, received, log⟩
  | check {writer received log} :
      Moved shutdown ⟨.checking, writer, received, log⟩ .check
        ⟨if shutdown then .closed else .receiving, writer, received, log⟩
  | receive {writer received log} (r : ρ) :
      Moved shutdown ⟨.receiving, writer, received, log⟩ (.receive r)
        ⟨.offering r, writer, received ++ [r], log⟩
  | handOver {received log} (r : ρ) :
      Moved shutdown ⟨.offering r, .selecting, received, log⟩ .handOver
        ⟨.checking, proceed handle r, received, log ++ [.took r]⟩
  | abandon {writer received log} (r : ρ) (seen : shutdown = true) :
      Moved shutdown ⟨.offering r, writer, received, log⟩ .abandon
        ⟨.closed, writer, received, log⟩
  | takeClosed {received log} :
      Moved shutdown ⟨.closed, .selecting, received, log⟩ .takeClosed
        ⟨.closed, proceed handle zero, received, log ++ [.tookClosed]⟩
  | stop {reader received log} (seen : shutdown = true) :
      Moved shutdown ⟨reader, .selecting, received, log⟩ .stop
        ⟨reader, .leaving, received, log⟩
  | send {reader received log} (m : μ) :
      Moved shutdown ⟨reader, .sending m, received, log⟩ .send
        ⟨reader, .awaiting, received, log ++ [.sent m]⟩
  | sendAccepted {reader received log} :
      Moved shutdown ⟨reader, .awaiting, received, log⟩ (.sendReturned true)
        ⟨reader, .selecting, received, log⟩
  | sendFailed {reader received log} :
      Moved shutdown ⟨reader, .awaiting, received, log⟩ (.sendReturned false)
        ⟨reader, .leaving, received, log ++ [.sendFailed]⟩
  | leave {reader received log} :
      Moved shutdown ⟨reader, .leaving, received, log⟩ .leave
        ⟨reader, .left, received, log⟩

end Moves

variable {handle : ρ → Option μ} {zero : ρ} {shutdown : Bool} {x y : Relay ρ μ} {a : Move ρ}

theorem move_inv (h : move handle zero shutdown x a = some y) :
    Moved handle zero shutdown x a y := by
  obtain ⟨reader, writer, received, log⟩ := x
  cases a with
  | start =>
    cases reader <;> cases writer <;> cases h
    exact .start
  | check =>
    cases reader <;> cases h
    exact .check
  | receive r =>
    cases reader <;> cases h
    exact .receive r
  | handOver =>
    cases reader <;> cases writer <;> cases h
    exact .handOver _
  | abandon =>
    cases reader <;> cases shutdown <;> cases h
    exact .abandon _ rfl
  | takeClosed =>
    cases reader <;> cases writer <;> cases h
    exact .takeClosed
  | stop =>
    cases writer <;> cases shutdown <;> cases h
    exact .stop rfl
  | send =>
    cases writer <;> cases h
    exact .send _
  | sendReturned ok =>
    cases ok with
    | true =>
      cases writer <;> cases h
      exact .sendAccepted
    | false =>
      cases writer <;> cases h
      exact .sendFailed
  | leave =>
    cases writer <;> cases h
    exact .leave

def Event.message : Event ρ μ → Option μ
  | .sent m => some m
  | _ => none

@[simp] theorem message_took (r : ρ) : (Event.took r : Event ρ μ).message = none := rfl
@[simp] theorem message_sent (m : μ) : (Event.sent m : Event ρ μ).message = some m := rfl

def Relay.sent (x : Relay ρ μ) : List μ := x.log.filterMap Event.message

/-- The events after which the writer is to send nothing more. -/
def Event.Final (handle : ρ → Option μ) : Event ρ μ → Prop
  | .took r => handle r = none
  | .tookClosed => True
  | .sendFailed => True
  | .sent _ => False

/-- Nothing is sent after a final event. -/
def Quiet (handle : ρ → Option μ) (log : List (Event ρ μ)) : Prop :=
  log.Pairwise fun earlier later => earlier.Final handle → ∀ m, later ≠ .sent m

def Writer.Active : Writer μ → Prop
  | .leaving => False
  | .left => False
  | _ => True

/-- What the writer has taken and not yet sent. -/
def Writer.held : Writer μ → List μ
  | .sending m => [m]
  | _ => []

/-- What the reader has received and the writer has not taken. A reader that has left may have
    dropped one value. -/
def Reader.Keeps : Reader ρ → List ρ → Prop
  | .offering r, rest => rest = [r]
  | .closed, _ => True
  | _, rest => rest = []

/-- The handler lets a message through as it came. -/
def Unaltered (handle : ρ → Option μ) (value : μ → ρ) : Prop :=
  ∀ r m, handle r = some m → r = value m

structure Faithful (handle : ρ → Option μ) (value : μ → ρ) (x : Relay ρ μ) : Prop where
  delivered : x.sent.map value <+: x.received
  upToDate : x.writer.Active → ∃ rest,
    x.received = (x.sent ++ x.writer.held).map value ++ rest ∧ x.reader.Keeps rest
  quiet : Quiet handle x.log
  clean : x.writer.Active → ∀ e ∈ x.log, ¬e.Final handle

variable {value : μ → ρ}

theorem initial_faithful : Faithful handle value ({} : Relay ρ μ) := by
  refine ⟨List.nil_prefix, fun _ => ⟨[], rfl, rfl⟩, List.Pairwise.nil, ?_⟩
  intro _ e member
  cases member

theorem quiet_append {log : List (Event ρ μ)} (quiet : Quiet handle log) {e : Event ρ μ}
    (allowed : (∀ m, e ≠ .sent m) ∨ ∀ f ∈ log, ¬f.Final handle) : Quiet handle (log ++ [e]) := by
  refine List.pairwise_append.mpr ⟨quiet, List.pairwise_singleton _ _, ?_⟩
  intro earlier member later same final
  cases List.mem_singleton.mp same
  rcases allowed with other | nothing
  · exact other
  · exact absurd final (nothing earlier member)

theorem proceed_forwards {r : ρ} {m : μ} (h : handle r = some m) :
    proceed handle r = .sending m := by
  simp [proceed, h]

theorem proceed_leaves {r : ρ} (h : handle r = none) : proceed handle r = .leaving := by
  simp [proceed, h]

section Steps
variable {reader reader' : Reader ρ} {writer : Writer μ} {received : List ρ}
variable {log : List (Event ρ μ)}

theorem not_sent {e : Event ρ μ} (other : e.message = none) (m : μ) : e ≠ .sent m := by
  rintro rfl
  cases other

theorem Faithful.leaves (faithful : Faithful handle value ⟨reader, writer, received, log⟩)
    {e : Event ρ μ} (other : e.message = none) :
    Faithful handle value ⟨reader', .leaving, received, log ++ [e]⟩ := by
  refine ⟨?_, fun active => active.elim, quiet_append faithful.quiet (.inl (not_sent other)),
    fun active => active.elim⟩
  have delivered := faithful.delivered
  simpa [Relay.sent, other] using delivered

theorem Faithful.takes {m : μ}
    (faithful : Faithful handle value ⟨.offering (value m), .selecting, received, log⟩)
    (through : handle (value m) = some m) :
    Faithful handle value ⟨.checking, .sending m, received, log ++ [.took (value m)]⟩ := by
  have clean := faithful.clean trivial
  obtain ⟨rest, split, keeps⟩ := faithful.upToDate trivial
  cases keeps
  refine ⟨?_, fun _ => ⟨[], ?_, rfl⟩, quiet_append faithful.quiet (.inr clean), fun _ e member => ?_⟩
  · have delivered := faithful.delivered
    simpa [Relay.sent, List.filterMap_cons] using delivered
  · simpa [Relay.sent, List.filterMap_cons, Writer.held] using split
  · rcases List.mem_append.mp member with old | new
    · exact clean e old
    · cases List.mem_singleton.mp new
      simp [Event.Final, through]

theorem Faithful.sends {m : μ}
    (faithful : Faithful handle value ⟨reader, .sending m, received, log⟩) :
    Faithful handle value ⟨reader, .awaiting, received, log ++ [.sent m]⟩ := by
  have clean := faithful.clean trivial
  obtain ⟨rest, split, keeps⟩ := faithful.upToDate trivial
  have grown : received =
      (⟨reader, .awaiting, received, log ++ [.sent m]⟩ : Relay ρ μ).sent.map value ++ rest := by
    simpa [Relay.sent, Writer.held] using split
  refine ⟨⟨rest, grown.symm⟩, fun _ => ⟨rest, ?_, keeps⟩,
    quiet_append faithful.quiet (.inr clean), fun _ e member => ?_⟩
  · change received = (_ ++ []).map value ++ rest
    rw [List.append_nil]
    exact grown
  · rcases List.mem_append.mp member with old | new
    · exact clean e old
    · cases List.mem_singleton.mp new
      exact not_false

end Steps

theorem Moved.faithful (unaltered : Unaltered handle value) (zero_stops : handle zero = none)
    (h : Moved handle zero shutdown x a y) (faithful : Faithful handle value x) :
    Faithful handle value y := by
  cases h with
  | start => exact ⟨faithful.delivered, faithful.upToDate, faithful.quiet, faithful.clean⟩
  | check =>
    refine ⟨faithful.delivered, fun active => ?_, faithful.quiet, faithful.clean⟩
    obtain ⟨rest, split, keeps⟩ := faithful.upToDate active
    refine ⟨rest, split, ?_⟩
    cases shutdown with
    | true => trivial
    | false => exact keeps
  | receive r =>
    refine ⟨faithful.delivered.trans (List.prefix_append _ _), fun active => ?_, faithful.quiet,
      faithful.clean⟩
    obtain ⟨rest, split, keeps⟩ := faithful.upToDate active
    cases keeps
    rw [List.append_nil] at split
    exact ⟨[r], congrArg (· ++ [r]) split, rfl⟩
  | handOver r =>
    cases result : handle r with
    | some m =>
      rw [proceed_forwards result]
      cases unaltered r m result
      exact faithful.takes result
    | none =>
      rw [proceed_leaves result]
      exact faithful.leaves rfl
  | abandon r seen =>
    refine ⟨faithful.delivered, fun active => ?_, faithful.quiet, faithful.clean⟩
    obtain ⟨rest, split, -⟩ := faithful.upToDate active
    exact ⟨rest, split, trivial⟩
  | takeClosed =>
    rw [proceed_leaves zero_stops]
    exact faithful.leaves rfl
  | stop seen =>
    exact ⟨faithful.delivered, fun active => active.elim, faithful.quiet,
      fun active => active.elim⟩
  | send m => exact faithful.sends
  | sendAccepted => exact ⟨faithful.delivered, faithful.upToDate, faithful.quiet, faithful.clean⟩
  | sendFailed => exact faithful.leaves rfl
  | leave =>
    exact ⟨faithful.delivered, fun active => active.elim, faithful.quiet,
      fun active => active.elim⟩

theorem Moved.sent_send (h : Moved handle zero shutdown x .send y) :
    y.sent = x.sent ++ x.writer.held ∧ x.writer ≠ .left := by
  cases h
  exact ⟨List.filterMap_append, nofun⟩

theorem Moved.sent_other (h : Moved handle zero shutdown x a y) (other : a ≠ .send) :
    y.sent = x.sent := by
  cases h with
  | send m => exact absurd rfl other
  | handOver | takeClosed | sendFailed => simp [Relay.sent, Event.message, List.filterMap_cons]
  | _ => rfl

theorem Moved.stays (h : Moved handle zero shutdown x a y) (left : x.writer = .left) :
    y.writer = .left := by
  cases h with
  | check | receive | abandon => exact left
  | _ => cases left

theorem Moved.leaves (h : Moved handle zero shutdown x .leave y) : y.writer = .left := by
  cases h
  rfl

end StoppableRelay
