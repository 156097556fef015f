import S2SProxy.Lib.AtomicPointer
import S2SProxy.Lib.GuardedRuns

/- A muxSession with its two goroutines. healthCheck writes what a Ping has shown, unless the
   state has changed since it was loaded; waitAndCleanup writes that the session is closed. -/
namespace MuxSession
open AtomicPointer GuardedRuns

inductive MuxSessionState where
  | connected
  | closed
  | error
  deriving DecidableEq

structure MuxSessionInfo (ε : Type) where
  state : MuxSessionState
  err : Option ε
  deriving DecidableEq

inductive HealthCheck (ε : Type) where
  | testing
  | loading
  | pinging (old : Ref (MuxSessionInfo ε))
  | swapping (old : Ref (MuxSessionInfo ε)) (err : Option ε)
  | resting
  | returned
  deriving DecidableEq

inductive WaitAndCleanup (ε : Type) where
  | selecting
  | cancelling
  | closingSession
  | closingConn
  | loading
  | storing (err : Option ε)
  /-- Closed is stored; afterShutdown is called. -/
  | notifying
  | returned
  deriving DecidableEq

variable {ε : Type}

/-- What healthCheck has loaded and not used yet. -/
def HealthCheck.old : HealthCheck ε → Option (Ref (MuxSessionInfo ε))
  | .pinging old | .swapping old _ => some old
  | .testing | .loading | .resting | .returned => none

def WaitAndCleanup.hasStored : WaitAndCleanup ε → Bool
  | .notifying | .returned => true
  | .selecting | .cancelling | .closingSession | .closingConn | .loading | .storing _ => false

structure Session (ε : Type) where
  lifetimeDone : Bool
  /-- The yamux session is shut down: IsClosed and CloseChan say so. -/
  sessionClosed : Bool
  connClosed : Bool
  state : Pointer (MuxSessionInfo ε)
  healthCheck : HealthCheck ε
  waitAndCleanup : WaitAndCleanup ε

def newManagedMuxSession : Session ε where
  lifetimeDone := false
  sessionClosed := false
  connClosed := false
  state := pointTo ⟨.connected, none⟩
  healthCheck := .testing
  waitAndCleanup := .selecting

inductive Label (ε : Type) where
  | transportCloses
  | lifetimeEnds
  | testClosed
  | loadState
  | pingReturns (err : Option ε)
  | compareAndSwap
  | rested
  | selected
  | cancel
  | closeSession
  | closeConn
  | loadErr
  | storeClosed
  | afterShutdown
  deriving DecidableEq

def pinged (err : Option ε) : MuxSessionInfo ε :=
  ⟨if err.isSome then .error else .connected, err⟩

def step (s : Session ε) : Label ε → Option (Session ε)
  | .transportCloses => some { s with sessionClosed := true }
  | .lifetimeEnds => some { s with lifetimeDone := true }
  | .testClosed =>
    match s.healthCheck with
    | .testing => some { s with healthCheck := if s.sessionClosed then .returned else .loading }
    | _ => none
  | .loadState =>
    match s.healthCheck with
    | .loading => some { s with healthCheck := .pinging s.state.current }
    | _ => none
  | .pingReturns err =>
    match s.healthCheck with
    | .pinging old => some { s with healthCheck := .swapping old err }
    | _ => none
  | .compareAndSwap =>
    match s.healthCheck with
    | .swapping old err =>
      some { s with
        state := AtomicPointer.compareAndSwap s.state old (pinged err), healthCheck := .resting }
    | _ => none
  | .rested =>
    match s.healthCheck with
    | .resting => some { s with healthCheck := .testing }
    | _ => none
  | .selected =>
    match s.waitAndCleanup with
    | .selecting =>
      if s.sessionClosed ∨ s.lifetimeDone then some { s with waitAndCleanup := .cancelling } else none
    | _ => none
  | .cancel =>
    match s.waitAndCleanup with
    | .cancelling => some { s with lifetimeDone := true, waitAndCleanup := .closingSession }
    | _ => none
  | .closeSession =>
    match s.waitAndCleanup with
    | .closingSession => some { s with sessionClosed := true, waitAndCleanup := .closingConn }
    | _ => none
  | .closeConn =>
    match s.waitAndCleanup with
    | .closingConn => some { s with connClosed := true, waitAndCleanup := .loading }
    | _ => none
  | .loadErr =>
    match s.waitAndCleanup with
    | .loading => some { s with waitAndCleanup := .storing s.state.current.contents.err }
    | _ => none
  | .storeClosed =>
    match s.waitAndCleanup with
    | .storing err => some { s with state := store s.state ⟨.closed, err⟩, waitAndCleanup := .notifying }
    | _ => none
  | .afterShutdown =>
    match s.waitAndCleanup with
    | .notifying => some { s with waitAndCleanup := .returned }
    | _ => none

def Session.reported (s : Session ε) : MuxSessionState := s.state.current.contents.state

/-- Once Closed is stored, it is reported. -/
def StaysClosed (s : Session ε) : Prop :=
  s.waitAndCleanup.hasStored = true → s.reported = .closed

/-- The swap does not compare with a state that was loaded after Closed was stored. -/
def LoadedBeforeClosed (s : Session ε) (a : Label ε) : Prop :=
  a = .compareAndSwap → ∀ old, s.healthCheck.old = some old → old.contents.state ≠ .closed

inductive Stepped (s : Session ε) : Label ε → Session ε → Prop where
  | quiet {a : Label ε} {t : Session ε} (other : a ≠ .compareAndSwap) (state : t.state = s.state)
      (held : t.healthCheck.old = s.healthCheck.old)
      (stored : t.waitAndCleanup.hasStored = s.waitAndCleanup.hasStored) : Stepped s a t
  | loaded :
      Stepped s .loadState { s with healthCheck := .pinging s.state.current }
  | swapped {old : Ref (MuxSessionInfo ε)} {err : Option ε} (here : s.healthCheck = .swapping old err) :
      Stepped s .compareAndSwap { s with
        state := AtomicPointer.compareAndSwap s.state old (pinged err), healthCheck := .resting }
  | stored {err : Option ε} (here : s.waitAndCleanup = .storing err) :
      Stepped s .storeClosed
        { s with state := store s.state ⟨.closed, err⟩, waitAndCleanup := .notifying }

theorem step_inv {s t : Session ε} {a : Label ε} (h : step s a = some t) : Stepped s a t := by
  cases a with
  | transportCloses | lifetimeEnds =>
    obtain rfl := Option.some.inj h
    exact .quiet (by simp) rfl rfl rfl
  | testClosed =>
    simp only [step] at h
    split at h
    · next here =>
      obtain rfl := Option.some.inj h
      refine .quiet (by simp) rfl ?_ rfl
      cases closed : s.sessionClosed <;> simp [here, HealthCheck.old]
    · cases h
  | loadState =>
    simp only [step] at h
    split at h
    · obtain rfl := Option.some.inj h
      exact .loaded
    · cases h
  | pingReturns err | rested =>
    simp only [step] at h
    split at h
    · next here =>
      obtain rfl := Option.some.inj h
      exact .quiet (by simp) rfl (by simp [here, HealthCheck.old]) rfl
    · cases h
  | compareAndSwap =>
    simp only [step] at h
    split at h
    · next here =>
      obtain rfl := Option.some.inj h
      exact .swapped here
    · cases h
  | selected =>
    simp only [step] at h
    split at h
    · next here =>
      simp only [Option.ite_none_right_eq_some, Option.some.injEq] at h
      obtain ⟨-, rfl⟩ := h
      exact .quiet (by simp) rfl rfl (by simp [here, WaitAndCleanup.hasStored])
    · cases h
  | cancel | closeSession | closeConn | loadErr | afterShutdown =>
    simp only [step] at h
    split at h
    · next here =>
      obtain rfl := Option.some.inj h
      exact .quiet (by simp) rfl rfl (by simp [here, WaitAndCleanup.hasStored])
    · cases h
  | storeClosed =>
    simp only [step] at h
    split at h
    · next here =>
      obtain rfl := Option.some.inj h
      exact .stored here
    · cases h

/-- Only one state says closed, and not before it is stored. -/
structure Consistent (s : Session ε) : Prop where
  known : ∀ old, s.healthCheck.old = some old → Known s.state old
  closed_stored : s.reported = .closed → s.waitAndCleanup.hasStored = true
  loaded_stored : ∀ old, s.healthCheck.old = some old → old.contents.state = .closed →
    s.waitAndCleanup.hasStored = true
  one_closed : ∀ old, s.healthCheck.old = some old → old.contents.state = .closed →
    s.reported = .closed → old = s.state.current

theorem pinged_not_closed (err : Option ε) : (pinged err).state ≠ .closed := by
  unfold pinged
  cases err <;> simp

theorem newManagedMuxSession_consistent : Consistent (newManagedMuxSession : Session ε) where
  known _ held := nomatch held
  closed_stored reported := nomatch reported
  loaded_stored _ held := nomatch held
  one_closed _ held := nomatch held

theorem step_consistent (s : Session ε) (a : Label ε) (t : Session ε) (consistent : Consistent s)
    (h : step s a = some t) : Consistent t := by
  obtain ⟨known, closed_stored, loaded_stored, one_closed⟩ := consistent
  cases step_inv h with
  | quiet other state held stored =>
    constructor
    · rwa [held, state]
    · rwa [stored, Session.reported, state]
    · rwa [held, stored]
    · rwa [held, Session.reported, state]
  | loaded =>
    constructor
    · intro old held
      obtain rfl := Option.some.inj held
      exact known_current s.state
    · exact closed_stored
    · intro old held closed
      obtain rfl := Option.some.inj held
      exact closed_stored closed
    · intro old held _ _
      exact (Option.some.inj held).symm
  | @swapped old err here =>
    constructor
    · intro _ held
      cases held
    · intro reported
      have kept : (AtomicPointer.compareAndSwap s.state old (pinged err)).current = s.state.current := by
        have loaded := known old (by simp [here, HealthCheck.old])
        refine swap_replaced loaded ?_ _
        intro same
        rw [Session.reported, same, swap_current] at reported
        exact pinged_not_closed err reported
      rw [Session.reported, kept] at reported
      exact closed_stored reported
    · intro _ held
      cases held
    · intro _ held
      cases held
  | stored here =>
    have before : s.waitAndCleanup.hasStored = false := by simp [here, WaitAndCleanup.hasStored]
    constructor
    · intro old held
      exact (known old held).after_store _
    · exact fun _ => rfl
    · exact fun _ _ _ => rfl
    · intro old held closed
      exact absurd (loaded_stored old held closed) (by simp [before])

theorem swap_stays_closed_iff {s : Session ε} {old : Ref (MuxSessionInfo ε)} {err : Option ε}
    (consistent : Consistent s) (stays : StaysClosed s) (here : s.healthCheck = .swapping old err) :
    (s.waitAndCleanup.hasStored = true →
        (AtomicPointer.compareAndSwap s.state old (pinged err)).current.contents.state = .closed) ↔
      old.contents.state ≠ .closed := by
  have held : s.healthCheck.old = some old := by simp [here, HealthCheck.old]
  constructor
  · intro reports closed
    have stored := consistent.loaded_stored old held closed
    have current := consistent.one_closed old held closed (stays stored)
    have overwritten := reports stored
    rw [current, swap_current] at overwritten
    exact pinged_not_closed err overwritten
  · intro open_ stored
    have replaced : old ≠ s.state.current := by
      intro same
      exact open_ (same ▸ stays stored)
    rw [swap_replaced (consistent.known old held) replaced]
    exact stays stored

theorem step_exact (s : Session ε) (a : Label ε) (t : Session ε) (consistent : Consistent s)
    (stays : StaysClosed s) (h : step s a = some t) : StaysClosed t ↔ LoadedBeforeClosed s a := by
  cases step_inv h with
  | quiet other state held stored =>
    refine iff_of_true ?_ (fun swap => absurd swap other)
    rwa [StaysClosed, stored, Session.reported, state]
  | loaded => exact iff_of_true stays (fun swap => nomatch swap)
  | @swapped old err here =>
    refine (swap_stays_closed_iff consistent stays here).trans ?_
    simp [LoadedBeforeClosed, here, HealthCheck.old]
  | stored here => exact iff_of_true (fun _ => rfl) (fun swap => nomatch swap)

/-- A closed session is reported as closed in every run, exactly if no swap compares with the
    state Closed itself. -/
theorem closed_session_stays_closed_iff (labels : List (Label ε)) (t : Session ε)
    (h : run step newManagedMuxSession labels = some t) :
    Always step StaysClosed newManagedMuxSession labels ↔
      Meets step LoadedBeforeClosed newManagedMuxSession labels :=
  always_iff_meets step_consistent step_exact newManagedMuxSession_consistent
    (fun stored => nomatch stored) h

inductive PingError where
  | sessionShutdown
  deriving DecidableEq

def closedDuringPing : List (Label PingError) :=
  [.testClosed, .loadState, .lifetimeEnds, .selected, .cancel, .closeSession, .closeConn, .loadErr,
    .storeClosed, .pingReturns (some .sessionShutdown), .compareAndSwap, .rested, .testClosed,
    .afterShutdown]

def closedBeforeLoad : List (Label PingError) :=
  [.testClosed, .lifetimeEnds, .selected, .cancel, .closeSession, .closeConn, .loadErr, .storeClosed,
    .loadState, .pingReturns (some .sessionShutdown), .compareAndSwap]

theorem closedDuringPing_stays_closed :
    Always step StaysClosed newManagedMuxSession closedDuringPing := by
  have meets : Meets step LoadedBeforeClosed newManagedMuxSession closedDuringPing := by
    simp [Meets, closedDuringPing, step, newManagedMuxSession, LoadedBeforeClosed, HealthCheck.old,
      pointTo]
  exact (closed_session_stays_closed_iff closedDuringPing _ rfl).mpr meets

/-- Closed is stored, and the failing ping replaces it with Error. -/
theorem closed_session_reports_error :
    ∃ stored final,
      run step newManagedMuxSession (closedBeforeLoad.take 8) = some stored ∧
      stored.waitAndCleanup.hasStored = true ∧ stored.reported = .closed ∧
      run step newManagedMuxSession closedBeforeLoad = some final ∧
      final.waitAndCleanup.hasStored = true ∧ final.reported = .error :=
  ⟨_, _, rfl, rfl, rfl, rfl, rfl, rfl⟩

end MuxSession
