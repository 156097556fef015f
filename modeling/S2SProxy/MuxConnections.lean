import S2SProxy.MuxConservation

/- The connections that a muxProvider obtains, over the model of its permits. A connection is its
   number in the order in which NewConnection has returned them. -/
namespace MuxConnections
open GuardedRuns
open MuxPermits (Loop Phase Stage)
variable {muxCount : Nat}

structure State (muxCount : Nat) where
  mux : MuxPermits.State muxCount
  obtained : Nat
  conn : Option Nat
  opened : List Nat
  closed : List Nat
  /-- The connection of each session of the manager, by the number of the session. -/
  managed : List Nat
  /-- The lifetime was over when AddConnection last asked. -/
  addedLate : Bool

def init : State muxCount := ⟨MuxPermits.init, 0, none, [], [], [], false⟩

inductive Label where
  | mux (a : MuxPermits.Label)
  /-- The yamux session of a connection shuts down by itself and closes it. -/
  | sessionCloses (c : Nat)

/-- What a step of the loop or of a session does with the connections. -/
def track (s : State muxCount) (next : MuxPermits.State muxCount) : MuxPermits.Label → State muxCount
  | .acquire => { s with mux := next, conn := none }
  | .returned true =>
    match s.mux.loop with
    | .connecting => { s with mux := next, obtained := s.obtained + 1, conn := some s.obtained }
    | .opening => { s with mux := next, opened := s.conn.toList ++ s.opened }
    | _ => { s with mux := next }
  | .returned false =>
    -- After a failed Ping both are closed, unless the lifetime is over.
    if s.mux.loop = .pinging ∧ s.mux.lifetimeDone = false then
      { s with mux := next, closed := s.conn.toList ++ s.closed }
    else { s with mux := next }
  | .change =>
    if s.mux.muxesLock = some (.provider, .entered) then
      if s.mux.lifetimeDone then { s with mux := next, addedLate := true }
      else { s with mux := next, managed := s.managed ++ s.conn.toList, addedLate := false }
    else { s with mux := next }
  -- waitAndCleanup
  | .close k => { s with mux := next, closed := s.managed[k]?.toList ++ s.closed }
  | _ => { s with mux := next }

def step (s : State muxCount) : Label → Option (State muxCount)
  | .mux a => (MuxPermits.step s.mux a).map fun next => track s next a
  | .sessionCloses c => if c ∈ s.opened then some { s with closed := c :: s.closed } else none

def atHead : Loop → Bool
  | .acquiring | .stopped => true
  | .connecting | .opening | .pinging | .releasing | .adding | .returning => false

/-- The connection is closed or belongs to a session in the map of the manager. -/
def Kept (s : State muxCount) (c : Nat) : Prop :=
  c ∈ s.closed ∨ ∃ id k, s.mux.muxes.lookup id = some k ∧ s.managed[k]? = some c

def NothingLeaked (s : State muxCount) : Prop :=
  atHead s.mux.loop = true → ∀ c, c < s.obtained → Kept s c

/-- The step does not end a pass in which sessionFn failed, or Ping after the end of the lifetime,
    or that came to AddConnection only then; the last two are harmless when the yamux session has
    closed the connection by itself. -/
def KeepsConn (s : State muxCount) : Label → Prop
  | .mux .release => ∀ c, s.conn = some c → c ∈ s.opened
  | .mux (.returned false) => s.mux.lifetimeDone = true →
      s.mux.loop ≠ .opening ∧ (s.mux.loop = .pinging → ∀ c, s.conn = some c → c ∈ s.closed)
  | .mux .unlock => ∀ stage, s.mux.muxesLock = some (.provider, stage) → s.addedLate = true →
      ∀ c, s.conn = some c → c ∈ s.closed
  | _ => True

def SameRunning (old new : List MuxPermits.Session) : Prop :=
  new.length = old.length ∧ ∀ (k : Nat) (y : MuxPermits.Session), new[k]? = some y →
    y.phase ≠ .running → ∃ x, old[k]? = some x ∧ x.phase ≠ .running

inductive Moved (s : State muxCount) : Label → State muxCount → Prop where
  | idle {a : MuxPermits.Label} {next : MuxPermits.State muxCount} (keeps : KeepsConn s (.mux a))
      (loop : next.loop = s.mux.loop) (running : SameRunning s.mux.sessions next.sessions) :
      Moved s (.mux a) { s with mux := next }
  | acquired {next : MuxPermits.State muxCount} (loop : next.loop = .connecting)
      (head : atHead s.mux.loop = true) (sessions : next.sessions = s.mux.sessions) :
      Moved s (.mux .acquire) { s with mux := next, conn := none }
  | cancelled {next : MuxPermits.State muxCount} (loop : next.loop = .stopped)
      (head : atHead s.mux.loop = true) (sessions : next.sessions = s.mux.sessions) :
      Moved s (.mux .acquireCancelled) { s with mux := next }
  | obtained {next : MuxPermits.State muxCount} (loop : next.loop = .opening)
      (here : s.mux.loop = .connecting) (sessions : next.sessions = s.mux.sessions) :
      Moved s (.mux (.returned true))
        { s with mux := next, obtained := s.obtained + 1, conn := some s.obtained }
  | opened {next : MuxPermits.State muxCount} (loop : next.loop = .pinging)
      (here : s.mux.loop = .opening) (sessions : next.sessions = s.mux.sessions) :
      Moved s (.mux (.returned true)) { s with mux := next, opened := s.conn.toList ++ s.opened }
  | pinged {next : MuxPermits.State muxCount} (loop : next.loop = .adding)
      (here : s.mux.loop = .pinging) (sessions : next.sessions = s.mux.sessions) :
      Moved s (.mux (.returned true)) { s with mux := next }
  | gaveUp {next : MuxPermits.State muxCount} (loop : next.loop = .stopped)
      (here : s.mux.loop.next ≠ none) (ended : s.mux.lifetimeDone = true)
      (sessions : next.sessions = s.mux.sessions) :
      Moved s (.mux (.returned false)) { s with mux := next }
  | failed {next : MuxPermits.State muxCount} (loop : next.loop = .releasing)
      (here : s.mux.loop = .connecting ∨ s.mux.loop = .opening) (alive : s.mux.lifetimeDone = false)
      (sessions : next.sessions = s.mux.sessions) :
      Moved s (.mux (.returned false)) { s with mux := next }
  | pingFailed {next : MuxPermits.State muxCount} (loop : next.loop = .releasing)
      (here : s.mux.loop = .pinging) (alive : s.mux.lifetimeDone = false)
      (sessions : next.sessions = s.mux.sessions) :
      Moved s (.mux (.returned false)) { s with mux := next, closed := s.conn.toList ++ s.closed }
  | released {next : MuxPermits.State muxCount} (loop : next.loop = .acquiring)
      (here : s.mux.loop = .releasing) (sessions : next.sessions = s.mux.sessions) :
      Moved s (.mux .release) { s with mux := next }
  | refused {next : MuxPermits.State muxCount} (loop : next.loop = .returning)
      (here : s.mux.loop = .adding) (sessions : next.sessions = s.mux.sessions) :
      Moved s (.mux .change) { s with mux := next, addedLate := true }
  | added {next : MuxPermits.State muxCount} {id : Nat} (loop : next.loop = .returning)
      (here : s.mux.loop = .adding) (sessions : next.sessions = s.mux.sessions ++ [⟨id, .running⟩]) :
      Moved s (.mux .change)
        { s with mux := next, managed := s.managed ++ s.conn.toList, addedLate := false }
  | unlocked {next : MuxPermits.State muxCount} {stage : Stage} (loop : next.loop = .acquiring)
      (here : s.mux.loop = .returning) (lock : s.mux.muxesLock = some (.provider, stage))
      (sessions : next.sessions = s.mux.sessions) :
      Moved s (.mux .unlock) { s with mux := next }
  | cleanedUp {next : MuxPermits.State muxCount} {k : Nat} {x : MuxPermits.Session}
      (loop : next.loop = s.mux.loop) (found : s.mux.sessions[k]? = some x)
      (sessions : next.sessions = s.mux.sessions.set k { x with phase := .closed }) :
      Moved s (.mux (.close k)) { s with mux := next, closed := s.managed[k]?.toList ++ s.closed }
  | sessionClosed {c : Nat} (made : c ∈ s.opened) :
      Moved s (.sessionCloses c) { s with closed := c :: s.closed }

theorem SameRunning.refl (sessions : List MuxPermits.Session) : SameRunning sessions sessions :=
  ⟨rfl, fun _ y found ended => ⟨y, found, ended⟩⟩

theorem setPhase_sameRunning {mux : MuxPermits.State muxCount} {k : Nat} {x : MuxPermits.Session}
    (found : mux.sessions[k]? = some x) (ended : x.phase ≠ .running) (phase : Phase) :
    SameRunning mux.sessions (mux.setPhase k x phase).sessions := by
  constructor
  · simp [MuxPermits.State.setPhase]
  · intro j y got left
    rw [MuxPermits.setPhase_get found] at got
    split at got
    · next here => exact ⟨x, here ▸ found, ended⟩
    · exact ⟨y, got, left⟩

theorem step_moved {s t : State muxCount} {a : Label} (inv : MuxPermits.Inv s.mux)
    (h : step s a = some t) : Moved s a t := by
  cases a with
  | sessionCloses c =>
    simp only [step, Option.ite_none_right_eq_some, Option.some.injEq] at h
    obtain ⟨made, rfl⟩ := h
    exact .sessionClosed made
  | mux a =>
    obtain ⟨next, moved, rfl⟩ := Option.map_eq_some_iff.mp h
    have sound := MuxPermits.fault_step inv (MuxPermits.step_inv moved)
    cases MuxPermits.step_inv moved with
    | acquire here got => exact .acquired rfl (by simp [here, atHead]) rfl
    | acquireCancelled here ended => exact .cancelled rfl (by simp [here, atHead]) rfl
    | succeeded here =>
      cases loop : s.mux.loop with
      | connecting =>
        obtain rfl := Option.some.inj ((congrArg Loop.next loop).symm.trans here)
        simp only [track, loop]
        exact .obtained rfl loop rfl
      | opening =>
        obtain rfl := Option.some.inj ((congrArg Loop.next loop).symm.trans here)
        simp only [track, loop]
        exact .opened rfl loop rfl
      | pinging =>
        obtain rfl := Option.some.inj ((congrArg Loop.next loop).symm.trans here)
        simp only [track, loop]
        exact .pinged rfl loop rfl
      | acquiring | releasing | adding | returning | stopped => simp [loop, Loop.next] at here
    | failed here =>
      cases ended : s.mux.lifetimeDone with
      | true =>
        have stops : (MuxPermits.attemptFailed s.mux).loop = .stopped := by
          simp [MuxPermits.attemptFailed, ended]
        simp only [track, ended, Bool.true_eq_false, and_false, if_false]
        exact .gaveUp stops (by simp [here]) ended rfl
      | false =>
        have releases : (MuxPermits.attemptFailed s.mux).loop = .releasing := by
          simp [MuxPermits.attemptFailed, ended]
        by_cases pinging : s.mux.loop = .pinging
        · simp only [track, pinging, ended, and_self, if_true]
          exact .pingFailed releases pinging ended rfl
        · simp only [track, pinging, false_and, if_false]
          refine .failed releases ?_ ended rfl
          cases loop : s.mux.loop <;> simp_all [Loop.next]
    | release here got => exact .released rfl here rfl
    | lockProvider here free => exact .idle trivial rfl (.refl _)
    | lockSession found here free =>
      exact .idle trivial rfl (setPhase_sameRunning found (by simp [here]) _)
    | addedLate lock ended =>
      simp only [track, lock, ended, if_true]
      exact .refused rfl (inv.inside _ _ lock) rfl
    | added lock alive =>
      simp only [track, lock, alive, if_true, Bool.false_eq_true, if_false]
      exact .added rfl (inv.inside _ _ lock) rfl
    | removed lock found =>
      have phase := inv.inside.owner_phase lock found
      simp only [track, lock]
      refine .idle trivial rfl (setPhase_sameRunning found ?_ _)
      simp [phase, MuxPermits.phaseAt]
    | storeConns lock | resolve lock => exact .idle trivial rfl (.refl _)
    | unlockProvider lock => exact .unlocked rfl (inv.inside _ _ lock) lock rfl
    | unlockSession lock found =>
      have phase := inv.inside.owner_phase lock found
      refine .idle ?_ rfl (setPhase_sameRunning found ?_ _)
      · intro stage held
        cases lock.symm.trans held
      · simp [phase, MuxPermits.phaseAt]
    | close found here => exact .cleanedUp rfl found rfl
    | allowMoreConns found here got =>
      exact .idle trivial rfl (setPhase_sameRunning found (by simp [here]) _)
    | tryAcquire got | tryAcquireRefused | probeRelease probing got | cancel =>
      exact .idle trivial rfl (.refl _)
    | overReleased due refused => cases sound
    | nilSession lock found missing => cases sound

/-- The connection of the pass, by where the loop is in it. -/
def Placed (s : State muxCount) : Prop :=
  match s.mux.loop with
  | .acquiring | .stopped => True
  | .connecting => s.conn = none
  | .opening => ∃ c, s.conn = some c ∧ c ∉ s.opened
  | .pinging | .adding => ∃ c, s.conn = some c ∧ c ∈ s.opened ∧ c ∉ s.managed
  | .releasing => ∀ c, s.conn = some c → c ∈ s.opened → c ∈ s.closed
  | .returning => ∃ c, s.conn = some c ∧ (c ∈ s.managed ↔ s.addedLate = false)

structure Tracked (s : State muxCount) : Prop where
  mux : MuxPermits.Inv s.mux
  sessions : s.managed.length = s.mux.sessions.length
  closed_opened : ∀ c ∈ s.closed, c ∈ s.opened
  managed_opened : ∀ c ∈ s.managed, c ∈ s.opened
  opened_obtained : ∀ c ∈ s.opened, c < s.obtained
  conn_obtained : ∀ c, s.conn = some c → c < s.obtained
  /-- waitAndCleanup closes the connection before anything else is seen of it. -/
  cleaned : ∀ (k : Nat) (x : MuxPermits.Session) (c : Nat), s.mux.sessions[k]? = some x →
    x.phase ≠ .running → s.managed[k]? = some c → c ∈ s.closed
  placed : Placed s

/-- Closed, or once given to the manager. -/
def Settled (s : State muxCount) (c : Nat) : Prop := c ∈ s.closed ∨ c ∈ s.managed

theorem kept_iff_settled {s : State muxCount} (tracked : Tracked s) (c : Nat) :
    Kept s c ↔ Settled s c := by
  constructor
  · intro kept
    rcases kept with closed | ⟨id, k, -, found⟩
    · exact .inl closed
    · exact .inr (List.mem_of_getElem? found)
  · intro settled
    rcases settled with closed | managed
    · exact .inl closed
    · obtain ⟨k, found⟩ := List.getElem?_of_mem managed
      have below : k < s.mux.sessions.length := by
        rw [← tracked.sessions]
        exact (List.getElem?_eq_some_iff.mp found).1
      have session := List.getElem?_eq_getElem below
      by_cases running : s.mux.sessions[k].phase = .running
      · have registered : s.mux.sessions[k].phase.registered = true := by
          simp [running, Phase.registered]
        exact .inr ⟨_, k, tracked.mux.recorded.present session registered, found⟩
      · exact .inl (tracked.cleaned k _ c session running found)

theorem init_tracked : Tracked (init : State muxCount) where
  mux := MuxPermits.inv_init
  sessions := rfl
  closed_opened _ closed := nomatch closed
  managed_opened _ managed := nomatch managed
  opened_obtained _ opened := nomatch opened
  conn_obtained _ given := nomatch given
  cleaned _ _ _ session := nomatch session
  placed := trivial

theorem step_mux_inv {s t : State muxCount} {a : Label} (inv : MuxPermits.Inv s.mux)
    (h : step s a = some t) : MuxPermits.Inv t.mux := by
  cases a with
  | sessionCloses c =>
    simp only [step, Option.ite_none_right_eq_some, Option.some.injEq] at h
    obtain ⟨-, rfl⟩ := h
    exact inv
  | mux a =>
    obtain ⟨next, moved, rfl⟩ := Option.map_eq_some_iff.mp h
    have kept : (track s next a).mux = next := by
      unfold track
      split <;> (try split) <;> (try split) <;> rfl
    rw [kept]
    exact MuxPermits.inv_step inv moved

theorem Tracked.goes_on {s : State muxCount} (tracked : Tracked s)
    {next : MuxPermits.State muxCount} (mux : MuxPermits.Inv next)
    (running : SameRunning s.mux.sessions next.sessions) (placed : Placed { s with mux := next }) :
    Tracked { s with mux := next } where
  mux := mux
  sessions := tracked.sessions.trans running.1.symm
  closed_opened := tracked.closed_opened
  managed_opened := tracked.managed_opened
  opened_obtained := tracked.opened_obtained
  conn_obtained := tracked.conn_obtained
  cleaned k y c found ended given := by
    obtain ⟨x, before, left⟩ := running.2 k y found ended
    exact tracked.cleaned k x c before left given
  placed := placed

theorem Tracked.loop_moves {s : State muxCount} (tracked : Tracked s)
    {next : MuxPermits.State muxCount} (mux : MuxPermits.Inv next)
    (same : next.sessions = s.mux.sessions) (placed : Placed { s with mux := next }) :
    Tracked { s with mux := next } :=
  tracked.goes_on mux (same ▸ SameRunning.refl _) placed

theorem Tracked.closes {s : State muxCount} (tracked : Tracked s) {more : List Nat}
    (opened : ∀ c ∈ more, c ∈ s.opened) : Tracked { s with closed := more ++ s.closed } where
  mux := tracked.mux
  sessions := tracked.sessions
  closed_opened c member := by
    rcases List.mem_append.mp member with new | old
    · exact opened c new
    · exact tracked.closed_opened c old
  managed_opened := tracked.managed_opened
  opened_obtained := tracked.opened_obtained
  conn_obtained := tracked.conn_obtained
  cleaned k x c found ended given :=
    List.mem_append_right _ (tracked.cleaned k x c found ended given)
  placed := by
    have placed := tracked.placed
    cases loop : s.mux.loop <;> simp_all [Placed]

theorem Tracked.obtains {s : State muxCount} (tracked : Tracked s) {next : MuxPermits.State muxCount}
    (mux : MuxPermits.Inv next) (loop : next.loop = .opening) (same : next.sessions = s.mux.sessions) :
    Tracked { s with mux := next, obtained := s.obtained + 1, conn := some s.obtained } where
  mux := mux
  sessions := tracked.sessions.trans (by rw [same])
  closed_opened := tracked.closed_opened
  managed_opened := tracked.managed_opened
  opened_obtained c made := Nat.lt_succ_of_lt (tracked.opened_obtained c made)
  conn_obtained c given := by
    obtain rfl := Option.some.inj given
    exact Nat.lt_succ_self _
  cleaned := by
    rw [same]
    exact tracked.cleaned
  placed := by
    have fresh : s.obtained ∉ s.opened := fun made => Nat.lt_irrefl _ (tracked.opened_obtained _ made)
    simp [Placed, loop, fresh]

theorem Tracked.opens {s : State muxCount} (tracked : Tracked s) {next : MuxPermits.State muxCount}
    {c : Nat} (given : s.conn = some c) (fresh : c ∉ s.opened) (mux : MuxPermits.Inv next)
    (loop : next.loop = .pinging) (same : next.sessions = s.mux.sessions) :
    Tracked { s with mux := next, opened := s.conn.toList ++ s.opened } where
  mux := mux
  sessions := tracked.sessions.trans (by rw [same])
  closed_opened d closed := List.mem_append_right _ (tracked.closed_opened d closed)
  managed_opened d managed := List.mem_append_right _ (tracked.managed_opened d managed)
  opened_obtained d made := by
    rcases List.mem_append.mp made with new | old
    · exact tracked.conn_obtained d (Option.mem_toList.mp new)
    · exact tracked.opened_obtained d old
  conn_obtained := tracked.conn_obtained
  cleaned := by
    rw [same]
    exact tracked.cleaned
  placed := by
    have unmanaged : c ∉ s.managed := fun managed => fresh (tracked.managed_opened c managed)
    simp [Placed, loop, given, unmanaged]

theorem Tracked.hands_over {s : State muxCount} (tracked : Tracked s) {next : MuxPermits.State muxCount}
    {c id : Nat} (given : s.conn = some c) (made : c ∈ s.opened) (mux : MuxPermits.Inv next)
    (loop : next.loop = .returning) (same : next.sessions = s.mux.sessions ++ [⟨id, .running⟩]) :
    Tracked { s with mux := next, managed := s.managed ++ s.conn.toList, addedLate := false } where
  mux := mux
  sessions := by simp [given, same, tracked.sessions]
  closed_opened := tracked.closed_opened
  managed_opened d managed := by
    rcases List.mem_append.mp managed with old | new
    · exact tracked.managed_opened d old
    · obtain rfl : d = c := by simpa [given] using new
      exact made
  opened_obtained := tracked.opened_obtained
  conn_obtained := tracked.conn_obtained
  cleaned k x d found ended managed := by
    -- The new session runs, so this is an earlier one.
    have below : k < s.mux.sessions.length := by
      by_contra beyond
      rw [same, List.getElem?_append_right (Nat.le_of_not_lt beyond)] at found
      obtain rfl := List.mem_singleton.mp (List.mem_of_getElem? found)
      exact ended rfl
    rw [same, List.getElem?_append_left below] at found
    rw [List.getElem?_append_left (tracked.sessions ▸ below)] at managed
    exact tracked.cleaned k x d found ended managed
  placed := by simp [Placed, loop, given]

theorem Tracked.cleans_up {s : State muxCount} (tracked : Tracked s) {next : MuxPermits.State muxCount}
    {k : Nat} {x : MuxPermits.Session} (mux : MuxPermits.Inv next) (loop : next.loop = s.mux.loop)
    (same : next.sessions = s.mux.sessions.set k { x with phase := .closed }) :
    Tracked { s with mux := next, closed := s.managed[k]?.toList ++ s.closed } := by
  have more : Tracked { s with closed := s.managed[k]?.toList ++ s.closed } :=
    tracked.closes fun c member =>
      tracked.managed_opened c (List.mem_of_getElem? (Option.mem_toList.mp member))
  exact { more with
    mux := mux
    sessions := by simp [same, tracked.sessions]
    cleaned := by
      intro j y c got ended given
      by_cases other : k = j
      · subst other
        simp [given]
      · rw [same, List.getElem?_set_ne other] at got
        exact more.cleaned j y c got ended given
    placed := by simpa only [Placed, loop] using more.placed }

theorem step_tracked (s : State muxCount) (a : Label) (t : State muxCount) (tracked : Tracked s)
    (h : step s a = some t) : Tracked t := by
  have mux := step_mux_inv tracked.mux h
  have placed := tracked.placed
  cases step_moved tracked.mux h with
  | idle keeps loop running =>
    refine tracked.goes_on mux running ?_
    simpa only [Placed, loop] using placed
  | acquired loop head same =>
    have cleared : Tracked { s with conn := none } := { tracked with
      conn_obtained := fun _ given => nomatch given
      placed := by cases here : s.mux.loop <;> simp_all [Placed, atHead] }
    exact cleared.loop_moves mux same (by simp [Placed, loop])
  | cancelled loop head same => exact tracked.loop_moves mux same (by simp [Placed, loop])
  | obtained loop here same => exact tracked.obtains mux loop same
  | opened loop here same =>
    simp only [Placed, here] at placed
    obtain ⟨c, given, fresh⟩ := placed
    exact tracked.opens given fresh mux loop same
  | pinged loop here same =>
    simp only [Placed, here] at placed
    exact tracked.loop_moves mux same (by simpa only [Placed, loop] using placed)
  | gaveUp loop here ended same => exact tracked.loop_moves mux same (by simp [Placed, loop])
  | failed loop here alive same =>
    refine tracked.loop_moves mux same ?_
    rcases here with here | here
    · simp only [Placed, here] at placed
      simp [Placed, loop, placed]
    · simp only [Placed, here] at placed
      obtain ⟨c, given, fresh⟩ := placed
      simp [Placed, loop, given, fresh]
  | pingFailed loop here alive same =>
    simp only [Placed, here] at placed
    obtain ⟨c, given, made, -⟩ := placed
    have closed : Tracked { s with closed := s.conn.toList ++ s.closed } :=
      tracked.closes (by simpa [given] using made)
    exact closed.loop_moves mux same (by simp [Placed, loop, given])
  | released loop here same => exact tracked.loop_moves mux same (by simp [Placed, loop])
  | refused loop here same =>
    have late : Tracked { s with addedLate := true } := { tracked with
      placed := by simpa only [Placed, here] using placed }
    simp only [Placed, here] at placed
    obtain ⟨c, given, -, unmanaged⟩ := placed
    exact late.loop_moves mux same (by simp [Placed, loop, given, unmanaged])
  | added loop here same =>
    simp only [Placed, here] at placed
    obtain ⟨c, given, made, -⟩ := placed
    exact tracked.hands_over given made mux loop same
  | unlocked loop here lock same => exact tracked.loop_moves mux same (by simp [Placed, loop])
  | cleanedUp loop found same => exact tracked.cleans_up mux loop same
  | @sessionClosed c made =>
    have more : Tracked { s with closed := [c] ++ s.closed } := tracked.closes (by simpa using made)
    exact more

def OthersSettled (s : State muxCount) : Prop :=
  ∀ c, c < s.obtained → (atHead s.mux.loop = false → s.conn ≠ some c) → Settled s c

theorem nothingLeaked_iff {s : State muxCount} (tracked : Tracked s) :
    NothingLeaked s ↔ (atHead s.mux.loop = true → ∀ c, c < s.obtained → Settled s c) := by
  unfold NothingLeaked
  simp only [kept_iff_settled tracked]

/- When a pass ends, its own connection is the one that matters. -/
theorem pass_ends_iff {s : State muxCount} (tracked : Tracked s) (others : OthersSettled s) :
    (∀ c, c < s.obtained → Settled s c) ↔ ∀ c, s.conn = some c → Settled s c := by
  constructor
  · intro all c given
    exact all c (tracked.conn_obtained c given)
  · intro own c below
    by_cases given : s.conn = some c
    · exact own c given
    · exact others c below (fun _ => given)

theorem unopened_not_settled {s : State muxCount} (tracked : Tracked s) {c : Nat}
    (unopened : c ∉ s.opened) : ¬ Settled s c := by
  intro settled
  rcases settled with closed | managed
  · exact unopened (tracked.closed_opened c closed)
  · exact unopened (tracked.managed_opened c managed)

theorem OthersSettled.at_head {s : State muxCount} (others : OthersSettled s)
    (head : atHead s.mux.loop = true) (c : Nat) (below : c < s.obtained) : Settled s c :=
  others c below fun busy => nomatch head.symm.trans busy

theorem OthersSettled.grows {s t : State muxCount} (others : OthersSettled s)
    (obtained : t.obtained = s.obtained) (conn : t.conn = s.conn) (busy : atHead t.mux.loop = false)
    (closed : s.closed ⊆ t.closed) (managed : s.managed ⊆ t.managed) : OthersSettled t := by
  intro c below other
  have settled := others c (obtained ▸ below) fun _ => conn ▸ other busy
  exact settled.imp (fun here => closed here) (fun here => managed here)

theorem step_others_settled (s : State muxCount) (a : Label) (t : State muxCount)
    (tracked : Tracked s) (others : OthersSettled s) (h : step s a = some t)
    (kept : NothingLeaked t) : OthersSettled t := by
  cases head : atHead t.mux.loop with
  | true =>
    intro c below _
    exact (nothingLeaked_iff (step_tracked s a t tracked h)).mp kept head c below
  | false =>
    cases step_moved tracked.mux h with
    | acquired loop before same =>
      intro c below _
      exact others.at_head before c below
    | obtained loop here same =>
      have placed := tracked.placed
      simp only [Placed, here] at placed
      intro c below other
      have different : s.obtained ≠ c := fun eq => other head (congrArg some eq)
      have earlier : c < s.obtained := Nat.lt_of_le_of_ne (Nat.le_of_lt_succ below) different.symm
      exact others c earlier fun _ => by simp [placed]
    | pingFailed | cleanedUp =>
      exact others.grows rfl rfl head (List.subset_append_right _ _) (List.Subset.refl _)
    | sessionClosed made =>
      exact others.grows rfl rfl head (List.subset_cons_self _ _) (List.Subset.refl _)
    | added loop here same =>
      exact others.grows rfl rfl head (List.Subset.refl _) (List.subset_append_left _ _)
    | _ => exact others.grows rfl rfl head (List.Subset.refl _) (List.Subset.refl _)

theorem gave_up_iff {s : State muxCount} (tracked : Tracked s) (here : s.mux.loop.next ≠ none)
    (ended : s.mux.lifetimeDone = true) :
    (∀ c, s.conn = some c → Settled s c) ↔ KeepsConn s (.mux (.returned false)) := by
  have placed := tracked.placed
  cases loop : s.mux.loop with
  | connecting =>
    simp only [Placed, loop] at placed
    simp [KeepsConn, placed, loop]
  | opening =>
    simp only [Placed, loop] at placed
    obtain ⟨c, given, unopened⟩ := placed
    simp [KeepsConn, ended, loop, given, unopened_not_settled tracked unopened]
  | pinging =>
    simp only [Placed, loop] at placed
    obtain ⟨c, given, -, unmanaged⟩ := placed
    simp [KeepsConn, ended, loop, given, Settled, unmanaged]
  | acquiring | releasing | adding | returning | stopped => simp [loop, Loop.next] at here

theorem released_iff {s : State muxCount} (tracked : Tracked s) (here : s.mux.loop = .releasing) :
    (∀ c, s.conn = some c → Settled s c) ↔ KeepsConn s (.mux .release) := by
  have placed := tracked.placed
  simp only [Placed, here] at placed
  refine forall₂_congr fun c given => ?_
  constructor
  · intro settled
    by_contra unopened
    exact unopened_not_settled tracked unopened settled
  · exact fun made => .inl (placed c given made)

theorem unlocked_iff {s : State muxCount} {stage : Stage} (tracked : Tracked s)
    (here : s.mux.loop = .returning) (lock : s.mux.muxesLock = some (.provider, stage)) :
    (∀ c, s.conn = some c → Settled s c) ↔ KeepsConn s (.mux .unlock) := by
  have placed := tracked.placed
  simp only [Placed, here] at placed
  obtain ⟨c, given, managed⟩ := placed
  cases late : s.addedLate with
  | true => simp [KeepsConn, lock, late, given, Settled, managed]
  | false => simp [KeepsConn, late, given, Settled, managed]

theorem step_exact (s : State muxCount) (a : Label) (t : State muxCount) (tracked : Tracked s)
    (others : OthersSettled s) (h : step s a = some t) : NothingLeaked t ↔ KeepsConn s a := by
  have after := nothingLeaked_iff (step_tracked s a t tracked h)
  cases step_moved tracked.mux h with
  | idle keeps loop running =>
    refine iff_of_true (after.mpr fun head => ?_) keeps
    exact others.at_head (loop ▸ head)
  | acquired loop | obtained loop | opened loop | pinged loop | refused loop | added loop =>
    exact iff_of_true (after.mpr fun head => by simp [loop, atHead] at head) trivial
  | failed loop here alive same | pingFailed loop here alive same =>
    refine iff_of_true (after.mpr fun head => by simp [loop, atHead] at head) ?_
    exact fun ended => nomatch alive.symm.trans ended
  | cancelled loop head same => exact iff_of_true (after.mpr fun _ => others.at_head head) trivial
  | cleanedUp loop found same =>
    refine iff_of_true (after.mpr fun head c below => ?_) trivial
    exact (others.at_head (loop ▸ head) c below).imp_left (List.mem_append_right _)
  | sessionClosed made =>
    refine iff_of_true (after.mpr fun head c below => ?_) trivial
    exact (others.at_head head c below).imp_left (List.mem_cons_of_mem _)
  | gaveUp loop here ended same =>
    rw [after, ← gave_up_iff tracked here ended, ← pass_ends_iff tracked others]
    simp [loop, atHead, Settled]
  | released loop here same =>
    rw [after, ← released_iff tracked here, ← pass_ends_iff tracked others]
    simp [loop, atHead, Settled]
  | unlocked loop here lock same =>
    rw [after, ← unlocked_iff tracked here lock, ← pass_ends_iff tracked others]
    simp [loop, atHead, Settled]

/-- Whenever the loop is at its head or has returned, every connection it has obtained is closed or
    in the hands of the manager, exactly if every pass ends as KeepsConn says. -/
theorem connections_not_leaked_iff (muxCount : Nat) (labels : List Label) (t : State muxCount)
    (h : run step init labels = some t) :
    Always step NothingLeaked (init : State muxCount) labels ↔
      Meets step KeepsConn (init : State muxCount) labels :=
  always_iff_meets_carried step_tracked step_others_settled step_exact init_tracked
    (fun _ below => nomatch below) (fun _ _ below => nomatch below) h

def muxLabels (labels : List MuxPermits.Label) : List Label := labels.map .mux

def secondPass : List Label :=
  muxLabels [.acquire, .returned true, .returned true, .returned false, .release, .acquire,
    .returned true, .returned true, .returned true, .lockProvider, .change, .storeConns, .resolve,
    .unlock, .close 0, .cancel, .acquireCancelled]

theorem secondPass_not_leaked :
    ∃ t : State 2, run step init secondPass = some t ∧
      Always step NothingLeaked (init : State 2) secondPass := by
  have opened (c : Nat) (given : some 0 = some c) : c ∈ [0] := by simpa using given.symm
  have meets : Meets step KeepsConn (init : State 2) secondPass := And.intro trivial <|
    .intro trivial <| .intro trivial <| .intro (fun ended => nomatch ended) <| .intro opened <|
    .intro trivial <| .intro trivial <| .intro trivial <| .intro trivial <| .intro trivial <|
    .intro trivial <| .intro trivial <| .intro trivial <| .intro (fun _ _ late => nomatch late) <|
    .intro trivial <| .intro trivial <| .intro trivial trivial
  exact ⟨_, rfl, (connections_not_leaked_iff 2 secondPass _ rfl).mpr meets⟩

def sessionFails : List Label := muxLabels [.acquire, .returned true, .returned false, .release]

def pingFailsLate : List Label :=
  muxLabels [.acquire, .returned true, .returned true, .cancel, .returned false]

def addedTooLate : List Label :=
  muxLabels [.acquire, .returned true, .returned true, .returned true, .cancel, .lockProvider, .change,
    .unlock]

/-- The run leaves an open connection behind, and the manager has no session. -/
def Leaks (labels : List Label) : Prop :=
  ∃ t : State 1, run step init labels = some t ∧ t.closed = [] ∧ t.mux.muxes = ∅ ∧ ¬ NothingLeaked t

theorem leaks_of_run {labels : List Label} {t : State 1} (ran : run step init labels = some t)
    (head : atHead t.mux.loop = true) (obtained : 0 < t.obtained) (closed : t.closed = [])
    (muxes : t.mux.muxes = ∅) : Leaks labels := by
  refine ⟨t, ran, closed, muxes, ?_⟩
  intro kept
  rcases kept head 0 obtained with member | ⟨id, k, found, -⟩
  · simp [closed] at member
  · simp [muxes] at found

theorem three_ways_to_leak : Leaks sessionFails ∧ Leaks pingFailsLate ∧ Leaks addedTooLate := by
  refine ⟨?_, ?_, ?_⟩
  · exact leaks_of_run rfl rfl Nat.one_pos rfl rfl
  · exact leaks_of_run rfl rfl Nat.one_pos rfl rfl
  · exact leaks_of_run rfl rfl Nat.one_pos rfl rfl

end MuxConnections
