import S2SProxy.Lib.CountingSemaphore
import S2SProxy.Lib.GuardedRuns

/- The permits of a muxProvider, the sessions of its multiMuxManager and the MultiClientConn
   that listens to them. The provider loop, the session goroutines and the probes interleave
   freely; what is done under muxesLock is done step by step while the lock is held. A session
   is its number in the order of creation, an id is the number that is printed into it. -/
namespace MuxPermits
open CountingSemaphore GuardedRuns

/-- Where the goroutine of muxProvider.Start is. -/
inductive Loop where
  | acquiring
  | connecting
  | opening
  | pinging
  | releasing
  | adding
  | returning
  | stopped
  deriving DecidableEq

def Loop.next : Loop → Option Loop
  | .connecting => some .opening
  | .opening => some .pinging
  | .pinging => some .adding
  | _ => none

inductive Phase where
  | running
  | closed
  | unregistering
  | deleted
  | unregistered
  | released
  deriving DecidableEq

def Phase.registered : Phase → Bool
  | .running | .closed | .unregistering => true
  | .deleted | .unregistered | .released => false

structure Session where
  id : Nat
  phase : Phase
  deriving DecidableEq

def unreleased (x : Session) : Bool := x.phase ≠ .released

inductive Owner where
  | provider
  | session (k : Nat)
  deriving DecidableEq

/-- How far the owner of muxesLock is: the map is changed, then each listener stores the new
    connections and hands them to its resolver. -/
inductive Stage where
  | entered
  | changed
  | stored
  | notified
  deriving DecidableEq

inductive Fault where
  | releasedMoreThanHeld
  /-- mux.State() of a session that is not in the map. -/
  | nilSession
  deriving DecidableEq

abbrev Muxes := AList fun _ : Nat => Nat

structure State (muxCount : Nat) where
  permits : Semaphore muxCount
  loop : Loop
  /-- HasConnectionsAvailable between TryAcquire and Release. -/
  probes : Nat
  lifetimeDone : Bool
  /-- Of 64 bits; it is not taken to wrap around. -/
  muxIdSequencer : Nat
  muxes : Muxes
  sessions : List Session
  muxesLock : Option (Owner × Stage)
  /-- The map of the MultiClientConn: the sessions whose Open it holds. -/
  connMap : Muxes
  endpoints : List Nat
  fault : Option Fault
  deriving DecidableEq

inductive Label where
  | acquire
  | acquireCancelled
  /-- The call that the loop is in returns: NewConnection, sessionFn or Ping. -/
  | returned (ok : Bool)
  | release
  | lockProvider
  | lockSession (k : Nat)
  | change
  | storeConns
  | resolve
  | unlock
  | close (k : Nat)
  | allowMoreConns (k : Nat)
  | tryAcquire
  | probeRelease
  | cancel
  deriving DecidableEq

variable {muxCount : Nat}

def init : State muxCount where
  permits := free
  loop := .acquiring
  probes := 0
  lifetimeDone := false
  muxIdSequencer := 0
  muxes := ∅
  sessions := []
  muxesLock := none
  connMap := ∅
  endpoints := []
  fault := none

def State.setPhase (s : State muxCount) (k : Nat) (x : Session) (phase : Phase) : State muxCount :=
  { s with sessions := s.sessions.set k { x with phase := phase } }

def releaseThen (s : State muxCount) (next : State muxCount) : State muxCount :=
  match release s.permits with
  | none => { s with fault := some .releasedMoreThanHeld }
  | some permits => { next with permits := permits }

/-- An attempt that fails keeps its permit when the lifetime is over. -/
def attemptFailed (s : State muxCount) : State muxCount :=
  { s with loop := if s.lifetimeDone then .stopped else .releasing }

def addConnection (s : State muxCount) : State muxCount :=
  if s.lifetimeDone then { s with loop := .returning, muxesLock := some (.provider, .notified) }
  else
    { s with
      loop := .returning
      muxIdSequencer := s.muxIdSequencer + 1
      muxes := s.muxes.insert s.muxIdSequencer s.sessions.length
      sessions := s.sessions ++ [⟨s.muxIdSequencer, .running⟩]
      muxesLock := some (.provider, .changed) }

def unregisterMux (s : State muxCount) (k : Nat) (x : Session) : State muxCount :=
  match s.muxes.lookup x.id with
  | none => { s with fault := some .nilSession }
  | some _ =>
    { s.setPhase k x .deleted with
      muxes := s.muxes.erase x.id, muxesLock := some (.session k, .changed) }

def onConnectionListUpdate (muxes : Muxes) : Muxes :=
  if muxes.entries.length = 0 then ∅ else muxes

def advance (s : State muxCount) : Label → Option (State muxCount)
  | .acquire =>
    if s.loop = .acquiring then
      (acquire s.permits).map fun permits => { s with permits := permits, loop := .connecting }
    else none
  | .acquireCancelled =>
    if s.loop = .acquiring ∧ s.lifetimeDone = true then some { s with loop := .stopped } else none
  | .returned ok =>
    s.loop.next.map fun next => if ok then { s with loop := next } else attemptFailed s
  | .release =>
    if s.loop = .releasing then some (releaseThen s { s with loop := .acquiring }) else none
  | .lockProvider =>
    if s.loop = .adding ∧ s.muxesLock = none then
      some { s with muxesLock := some (.provider, .entered) }
    else none
  | .lockSession k =>
    match s.sessions[k]? with
    | none => none
    | some x =>
      if x.phase = .closed ∧ s.muxesLock = none then
        some { s.setPhase k x .unregistering with muxesLock := some (.session k, .entered) }
      else none
  | .change =>
    match s.muxesLock with
    | some (.provider, .entered) => some (addConnection s)
    | some (.session k, .entered) => s.sessions[k]?.map fun x => unregisterMux s k x
    | _ => none
  | .storeConns =>
    match s.muxesLock with
    | some (owner, .changed) =>
      some { s with connMap := onConnectionListUpdate s.muxes, muxesLock := some (owner, .stored) }
    | _ => none
  | .resolve =>
    match s.muxesLock with
    | some (owner, .stored) =>
      some { s with endpoints := s.connMap.keys, muxesLock := some (owner, .notified) }
    | _ => none
  | .unlock =>
    match s.muxesLock with
    | some (.provider, .notified) => some { s with loop := .acquiring, muxesLock := none }
    | some (.session k, .notified) =>
      s.sessions[k]?.map fun x => { s.setPhase k x .unregistered with muxesLock := none }
    | _ => none
  | .close k =>
    match s.sessions[k]? with
    | none => none
    | some x => if x.phase = .running then some (s.setPhase k x .closed) else none
  | .allowMoreConns k =>
    match s.sessions[k]? with
    | none => none
    | some x =>
      if x.phase = .unregistered then some (releaseThen s (s.setPhase k x .released)) else none
  | .tryAcquire =>
    match acquire s.permits with
    | none => some s
    | some permits => some { s with permits := permits, probes := s.probes + 1 }
  | .probeRelease =>
    if 0 < s.probes then some (releaseThen s { s with probes := s.probes - 1 }) else none
  | .cancel => some { s with lifetimeDone := true }

/-- A panic ends the process. -/
def step (s : State muxCount) (a : Label) : Option (State muxCount) :=
  if s.fault = none then advance s a else none

def Loop.attempting : Loop → Bool
  | .connecting | .opening | .pinging | .releasing | .adding => true
  | .acquiring | .returning | .stopped => false

/-- The permits that are to be released: by the attempt, by the sessions whose clean-up has not
    released, by the probes. -/
def State.owed (s : State muxCount) : Nat :=
  s.loop.attempting.toNat + s.sessions.countP unreleased + s.probes

inductive Stepped (s : State muxCount) : Label → State muxCount → Prop where
  | acquire {permits : Semaphore muxCount} (here : s.loop = .acquiring)
      (got : CountingSemaphore.acquire s.permits = some permits) :
      Stepped s .acquire { s with permits := permits, loop := .connecting }
  | acquireCancelled (here : s.loop = .acquiring) (ended : s.lifetimeDone = true) :
      Stepped s .acquireCancelled { s with loop := .stopped }
  | succeeded {next : Loop} (here : s.loop.next = some next) :
      Stepped s (.returned true) { s with loop := next }
  | failed {next : Loop} (here : s.loop.next = some next) :
      Stepped s (.returned false) (attemptFailed s)
  | release {permits : Semaphore muxCount} (here : s.loop = .releasing)
      (got : CountingSemaphore.release s.permits = some permits) :
      Stepped s .release { s with loop := .acquiring, permits := permits }
  | lockProvider (here : s.loop = .adding) (free : s.muxesLock = none) :
      Stepped s .lockProvider { s with muxesLock := some (.provider, .entered) }
  | lockSession {k : Nat} {x : Session} (found : s.sessions[k]? = some x)
      (here : x.phase = .closed) (free : s.muxesLock = none) :
      Stepped s (.lockSession k)
        { s.setPhase k x .unregistering with muxesLock := some (.session k, .entered) }
  | addedLate (lock : s.muxesLock = some (.provider, .entered)) (ended : s.lifetimeDone = true) :
      Stepped s .change { s with loop := .returning, muxesLock := some (.provider, .notified) }
  | added (lock : s.muxesLock = some (.provider, .entered)) (alive : s.lifetimeDone = false) :
      Stepped s .change
        { s with
          loop := .returning
          muxIdSequencer := s.muxIdSequencer + 1
          muxes := s.muxes.insert s.muxIdSequencer s.sessions.length
          sessions := s.sessions ++ [⟨s.muxIdSequencer, .running⟩]
          muxesLock := some (.provider, .changed) }
  | removed {k : Nat} {x : Session} (lock : s.muxesLock = some (.session k, .entered))
      (found : s.sessions[k]? = some x) :
      Stepped s .change
        { s.setPhase k x .deleted with
          muxes := s.muxes.erase x.id, muxesLock := some (.session k, .changed) }
  | storeConns {owner : Owner} (lock : s.muxesLock = some (owner, .changed)) :
      Stepped s .storeConns { s with connMap := s.muxes, muxesLock := some (owner, .stored) }
  | resolve {owner : Owner} (lock : s.muxesLock = some (owner, .stored)) :
      Stepped s .resolve { s with endpoints := s.connMap.keys, muxesLock := some (owner, .notified) }
  | unlockProvider (lock : s.muxesLock = some (.provider, .notified)) :
      Stepped s .unlock { s with loop := .acquiring, muxesLock := none }
  | unlockSession {k : Nat} {x : Session} (lock : s.muxesLock = some (.session k, .notified))
      (found : s.sessions[k]? = some x) :
      Stepped s .unlock { s.setPhase k x .unregistered with muxesLock := none }
  | close {k : Nat} {x : Session} (found : s.sessions[k]? = some x) (here : x.phase = .running) :
      Stepped s (.close k) (s.setPhase k x .closed)
  | allowMoreConns {k : Nat} {x : Session} {permits : Semaphore muxCount}
      (found : s.sessions[k]? = some x) (here : x.phase = .unregistered)
      (got : CountingSemaphore.release s.permits = some permits) :
      Stepped s (.allowMoreConns k) { s.setPhase k x .released with permits := permits }
  | tryAcquire {permits : Semaphore muxCount}
      (got : CountingSemaphore.acquire s.permits = some permits) :
      Stepped s .tryAcquire { s with permits := permits, probes := s.probes + 1 }
  | tryAcquireRefused : Stepped s .tryAcquire s
  | probeRelease {permits : Semaphore muxCount} (probing : 0 < s.probes)
      (got : CountingSemaphore.release s.permits = some permits) :
      Stepped s .probeRelease { s with probes := s.probes - 1, permits := permits }
  | cancel : Stepped s .cancel { s with lifetimeDone := true }
  | overReleased {a : Label} (due : 0 < s.owed)
      (refused : CountingSemaphore.release s.permits = none) :
      Stepped s a { s with fault := some .releasedMoreThanHeld }
  | nilSession {k : Nat} {x : Session} (lock : s.muxesLock = some (.session k, .entered))
      (found : s.sessions[k]? = some x) (missing : s.muxes.lookup x.id = none) :
      Stepped s .change { s with fault := some .nilSession }

theorem onConnectionListUpdate_eq (muxes : Muxes) : onConnectionListUpdate muxes = muxes := by
  unfold onConnectionListUpdate
  split
  · next empty => exact AList.ext (List.length_eq_zero_iff.mp empty).symm
  · rfl

theorem releaseThen_inv {s next : State muxCount} {a : Label} (due : 0 < s.owed)
    (released : ∀ permits, CountingSemaphore.release s.permits = some permits →
      Stepped s a { next with permits := permits }) : Stepped s a (releaseThen s next) := by
  unfold releaseThen
  cases got : CountingSemaphore.release s.permits with
  | none => exact .overReleased due got
  | some permits => exact released permits got

theorem unreleased_owed {s : State muxCount} {k : Nat} {x : Session}
    (found : s.sessions[k]? = some x) (here : x.phase ≠ .released) : 0 < s.owed := by
  have counted : 0 < s.sessions.countP unreleased :=
    List.countP_pos_iff.mpr ⟨x, List.mem_of_getElem? found, by simpa [unreleased] using here⟩
  unfold State.owed
  omega

theorem step_inv {s t : State muxCount} {a : Label} (h : step s a = some t) : Stepped s a t := by
  unfold step at h
  split at h
  case isFalse => cases h
  case isTrue =>
  cases a with
  | acquire =>
    simp only [advance] at h
    split at h
    · next here =>
      obtain ⟨permits, got, rfl⟩ := Option.map_eq_some_iff.mp h
      exact .acquire here got
    · cases h
  | acquireCancelled =>
    simp only [advance, Option.ite_none_right_eq_some, Option.some.injEq] at h
    obtain ⟨⟨here, ended⟩, rfl⟩ := h
    exact .acquireCancelled here ended
  | returned ok =>
    obtain ⟨next, here, rfl⟩ := Option.map_eq_some_iff.mp h
    cases ok with
    | true => exact .succeeded here
    | false => exact .failed here
  | release =>
    simp only [advance, Option.ite_none_right_eq_some, Option.some.injEq] at h
    obtain ⟨here, rfl⟩ := h
    have due : 0 < s.owed := by
      simp only [State.owed, here, Loop.attempting, Bool.toNat_true]
      omega
    exact releaseThen_inv due fun permits got => .release here got
  | lockProvider =>
    simp only [advance, Option.ite_none_right_eq_some, Option.some.injEq] at h
    obtain ⟨⟨here, free⟩, rfl⟩ := h
    exact .lockProvider here free
  | lockSession k =>
    simp only [advance] at h
    split at h
    · cases h
    · next x found =>
      simp only [Option.ite_none_right_eq_some, Option.some.injEq] at h
      obtain ⟨⟨here, free⟩, rfl⟩ := h
      exact .lockSession found here free
  | change =>
    simp only [advance] at h
    split at h
    · next lock =>
      obtain rfl := Option.some.inj h
      unfold addConnection
      split
      · next ended => exact .addedLate lock ended
      · next alive => exact .added lock (Bool.eq_false_iff.mpr alive)
    · next k lock =>
      obtain ⟨x, found, rfl⟩ := Option.map_eq_some_iff.mp h
      unfold unregisterMux
      split
      · next missing => exact .nilSession lock found missing
      · exact .removed lock found
    · cases h
  | storeConns =>
    simp only [advance] at h
    split at h
    · next owner lock =>
      obtain rfl := Option.some.inj h
      rw [onConnectionListUpdate_eq]
      exact .storeConns lock
    · cases h
  | resolve =>
    simp only [advance] at h
    split at h
    · next owner lock =>
      obtain rfl := Option.some.inj h
      exact .resolve lock
    · cases h
  | unlock =>
    simp only [advance] at h
    split at h
    · next lock =>
      obtain rfl := Option.some.inj h
      exact .unlockProvider lock
    · next k lock =>
      obtain ⟨x, found, rfl⟩ := Option.map_eq_some_iff.mp h
      exact .unlockSession lock found
    · cases h
  | close k =>
    simp only [advance] at h
    split at h
    · cases h
    · next x found =>
      simp only [Option.ite_none_right_eq_some, Option.some.injEq] at h
      obtain ⟨here, rfl⟩ := h
      exact .close found here
  | allowMoreConns k =>
    simp only [advance] at h
    split at h
    · cases h
    · next x found =>
      simp only [Option.ite_none_right_eq_some, Option.some.injEq] at h
      obtain ⟨here, rfl⟩ := h
      have due := unreleased_owed found (by simp [here])
      exact releaseThen_inv due fun permits got => .allowMoreConns found here got
  | tryAcquire =>
    simp only [advance] at h
    split at h
    · obtain rfl := Option.some.inj h
      exact .tryAcquireRefused
    · next permits got =>
      obtain rfl := Option.some.inj h
      exact .tryAcquire got
  | probeRelease =>
    simp only [advance, Option.ite_none_right_eq_some, Option.some.injEq] at h
    obtain ⟨probing, rfl⟩ := h
    have due : 0 < s.owed := by
      unfold State.owed
      omega
    exact releaseThen_inv due fun permits got => .probeRelease probing got
  | cancel =>
    obtain rfl := Option.some.inj h
    exact .cancel

end MuxPermits
