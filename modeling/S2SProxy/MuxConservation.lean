import S2SProxy.MuxPermits

/- The invariants of the mux permits. The owner of muxesLock is where the lock was taken; each
   permit that is held is owed by an attempt, a session or a probe; the map holds the sessions
   that are not yet deleted, each under its own id; the listener lags behind the map only
   while the lock is held. -/
namespace MuxPermits
open CountingSemaphore GuardedRuns
variable {muxCount : Nat} {s t : State muxCount} {a : Label}

def loopAt : Stage → Loop
  | .entered => .adding
  | .changed | .stored | .notified => .returning

def phaseAt : Stage → Phase
  | .entered => .unregistering
  | .changed | .stored | .notified => .deleted

def OwnerAt (s : State muxCount) (stage : Stage) : Owner → Prop
  | .provider => s.loop = loopAt stage
  | .session k => ∃ x, s.sessions[k]? = some x ∧ x.phase = phaseAt stage

def Inside (s : State muxCount) : Prop :=
  ∀ owner stage, s.muxesLock = some (owner, stage) → OwnerAt s stage owner

/-- Every permit held is owed, while the lifetime lasts. A permit that is owed is always held. -/
structure Accounted (s : State muxCount) : Prop where
  covered : s.owed ≤ s.permits.held
  exact : s.lifetimeDone = false → s.permits.held = s.owed

/-- The map of the manager: the sessions that are not yet deleted, by their ids. -/
structure Recorded (s : State muxCount) : Prop where
  ids : ∀ (k : Nat) (x : Session), s.sessions[k]? = some x → x.id = k
  sequencer : s.muxIdSequencer = s.sessions.length
  muxes : ∀ id k, s.muxes.lookup id = some k ↔
    id = k ∧ ∃ x, s.sessions[k]? = some x ∧ x.phase.registered = true

/-- What the listener has of the map, by how far the owner of the lock is. -/
def Notified (s : State muxCount) : Prop :=
  match s.muxesLock with
  | some (_, .changed) => s.endpoints = s.connMap.keys
  | some (_, .stored) => s.connMap = s.muxes
  | _ => s.connMap = s.muxes ∧ s.endpoints = s.connMap.keys

structure Inv (s : State muxCount) : Prop where
  inside : Inside s
  accounted : Accounted s
  recorded : Recorded s
  notified : Notified s
  fault : s.fault = none

section SetPhase
variable {k : Nat} {x : Session} {phase : Phase}

theorem setPhase_get (found : s.sessions[k]? = some x) (j : Nat) :
    (s.setPhase k x phase).sessions[j]? =
      if j = k then some { x with phase := phase } else s.sessions[j]? := by
  obtain ⟨inRange, _⟩ := List.getElem?_eq_some_iff.mp found
  by_cases same : j = k
  · subst same
    simp [State.setPhase, inRange]
  · simp [State.setPhase, List.getElem?_set_ne (Ne.symm same), same]

theorem setPhase_owed (phase : Phase) (found : s.sessions[k]? = some x) :
    (s.setPhase k x phase).owed + (unreleased x).toNat =
      s.owed + (unreleased { x with phase := phase }).toNat := by
  have counted := countP_replace unreleased { x with phase := phase } found
  simp only [State.owed, State.setPhase]
  omega

theorem setPhase_recorded (phase : Phase) (h : Recorded s) (found : s.sessions[k]? = some x)
    (same : phase.registered = x.phase.registered) : Recorded (s.setPhase k x phase) := by
  refine ⟨?_, ?_, ?_⟩
  · intro j y got
    rw [setPhase_get found] at got
    split at got
    · next here =>
      obtain rfl := Option.some.inj got
      exact (h.ids k x found).trans here.symm
    · exact h.ids j y got
  · exact h.sequencer.trans List.length_set.symm
  · intro id j
    rw [setPhase_get found]
    refine (h.muxes id j).trans (and_congr_right fun _ => ?_)
    by_cases here : j = k
    · subst here
      simp [found, same]
    · simp [here]

end SetPhase

theorem Inside.elsewhere (h : Inside s) (lock : t.muxesLock = s.muxesLock)
    (loop : t.loop = s.loop ∨ ∀ stage, s.loop ≠ loopAt stage)
    (sessions : ∀ (k : Nat) (x : Session) (stage : Stage), s.sessions[k]? = some x →
      x.phase = phaseAt stage → t.sessions[k]? = some x) : Inside t := by
  intro owner stage held
  have before := h owner stage (lock.symm.trans held)
  cases owner with
  | provider =>
    rcases loop with same | outside
    · exact same.trans before
    · exact absurd before (outside stage)
  | session k =>
    obtain ⟨x, found, here⟩ := before
    exact ⟨x, sessions k x stage found here, here⟩

theorem Inside.loop_elsewhere (h : Inside s) (lock : t.muxesLock = s.muxesLock)
    (outside : ∀ stage, s.loop ≠ loopAt stage) (sessions : t.sessions = s.sessions) : Inside t :=
  h.elsewhere lock (.inr outside) fun k _ _ found _ => (congrArg (·[k]?) sessions).trans found

theorem setPhase_elsewhere {k : Nat} {x : Session} {phase : Phase} (h : Inside s)
    (found : s.sessions[k]? = some x) (outside : ∀ stage, x.phase ≠ phaseAt stage) :
    Inside (s.setPhase k x phase) := by
  refine h.elsewhere rfl (.inl rfl) fun j y stage got here => ?_
  rw [setPhase_get found, if_neg]
  · exact got
  · intro same
    subst same
    obtain rfl := Option.some.inj (found.symm.trans got)
    exact outside stage here

theorem Inside.at_stage {owner : Owner} {stage : Stage}
    (lock : t.muxesLock = some (owner, stage)) (here : OwnerAt t stage owner) : Inside t := by
  intro owner' stage' held
  cases lock.symm.trans held
  exact here

theorem Inside.owner_phase {k : Nat} {stage : Stage} {x : Session} (h : Inside s)
    (lock : s.muxesLock = some (.session k, stage)) (found : s.sessions[k]? = some x) :
    x.phase = phaseAt stage := by
  obtain ⟨y, found', here⟩ := h _ _ lock
  obtain rfl := Option.some.inj (found.symm.trans found')
  exact here

theorem next_outside {loop next : Loop} (h : loop.next = some next) (stage : Stage) :
    loop ≠ loopAt stage := by
  intro same
  subst same
  cases stage <;> cases h

theorem acquiring_outside (stage : Stage) : Loop.acquiring ≠ loopAt stage := by
  cases stage <;> exact nofun

theorem releasing_outside (stage : Stage) : Loop.releasing ≠ loopAt stage := by
  cases stage <;> exact nofun

theorem inside_step (h : Inside s) (st : Stepped s a t) : Inside t := by
  cases st with
  | acquire here _ => exact h.loop_elsewhere rfl (here ▸ acquiring_outside) rfl
  | acquireCancelled here _ => exact h.loop_elsewhere rfl (here ▸ acquiring_outside) rfl
  | succeeded here => exact h.loop_elsewhere rfl (next_outside here) rfl
  | failed here => exact h.loop_elsewhere rfl (next_outside here) rfl
  | release here _ => exact h.loop_elsewhere rfl (here ▸ releasing_outside) rfl
  | lockProvider here _ => exact .at_stage rfl here
  | lockSession found _ _ => exact .at_stage rfl ⟨_, (setPhase_get found _).trans (if_pos rfl), rfl⟩
  | addedLate _ _ => exact .at_stage rfl rfl
  | added _ _ => exact .at_stage rfl rfl
  | removed _ found => exact .at_stage rfl ⟨_, (setPhase_get found _).trans (if_pos rfl), rfl⟩
  | @storeConns owner lock =>
    have before := h _ _ lock
    exact .at_stage rfl (by cases owner <;> exact before)
  | @resolve owner lock =>
    have before := h _ _ lock
    exact .at_stage rfl (by cases owner <;> exact before)
  | unlockProvider _ => exact nofun
  | unlockSession _ _ => exact nofun
  | close found here =>
    exact setPhase_elsewhere h found fun stage => by cases stage <;> simp [here, phaseAt]
  | allowMoreConns found here _ =>
    exact setPhase_elsewhere h found fun stage => by cases stage <;> simp [here, phaseAt]
  | tryAcquire _ => exact h
  | tryAcquireRefused => exact h
  | probeRelease _ _ => exact h
  | cancel => exact h
  | overReleased _ _ => exact h
  | nilSession _ _ _ => exact h

theorem init_accounted : Accounted (init : State muxCount) := ⟨le_rfl, fun _ => rfl⟩

theorem Accounted.balanced (h : Accounted s) (gained lost : Nat)
    (permits : t.permits.held + lost = s.permits.held + gained)
    (owed : t.owed + lost = s.owed + gained)
    (same : t.lifetimeDone = false → s.lifetimeDone = false) : Accounted t := by
  obtain ⟨covered, exact⟩ := h
  constructor
  · omega
  · intro alive
    have before := exact (same alive)
    omega

theorem Accounted.unmoved (h : Accounted s) (permits : t.permits = s.permits) (owed : t.owed = s.owed)
    (same : t.lifetimeDone = false → s.lifetimeDone = false) : Accounted t :=
  h.balanced 0 0 (by rw [permits]) owed same

theorem Accounted.lost (h : Accounted s) (permits : t.permits = s.permits) (owed : t.owed ≤ s.owed)
    (ended : t.lifetimeDone = true) : Accounted t := by
  refine ⟨?_, fun alive => nomatch ended.symm.trans alive⟩
  rw [permits]
  exact owed.trans h.covered

theorem setPhase_accounted {k : Nat} {x : Session} {phase : Phase} (h : Accounted s)
    (found : s.sessions[k]? = some x) (before : x.phase ≠ .released) (after : phase ≠ .released) :
    Accounted (s.setPhase k x phase) := by
  have owed := setPhase_owed phase found
  simp only [unreleased, before, after, ne_eq, not_false_eq_true, decide_true] at owed
  exact h.unmoved rfl (Nat.add_right_cancel owed) id

theorem next_attempting {loop next : Loop} (h : loop.next = some next) :
    loop.attempting = true ∧ next.attempting = true := by
  cases loop <;> cases h <;> exact ⟨rfl, rfl⟩

theorem accounted_step (inside : Inside s) (h : Accounted s) (st : Stepped s a t) : Accounted t := by
  cases st with
  | acquire here got =>
    refine h.balanced 1 0 (acquire_held got) ?_ id
    simp only [State.owed, here, Loop.attempting, Bool.toNat_true, Bool.toNat_false]
    omega
  | acquireCancelled here ended =>
    refine h.unmoved rfl ?_ id
    simp only [State.owed, here, Loop.attempting]
  | succeeded here =>
    obtain ⟨before, after⟩ := next_attempting here
    refine h.unmoved rfl ?_ id
    simp only [State.owed, before, after]
  | failed here =>
    obtain ⟨before, _⟩ := next_attempting here
    cases ended : s.lifetimeDone with
    | true =>
      refine h.lost rfl ?_ ended
      simp [State.owed, attemptFailed, ended, Loop.attempting]
    | false =>
      refine h.unmoved rfl ?_ fun _ => ended
      simp only [State.owed, attemptFailed, before, ended]
      rfl
  | release here got =>
    refine h.balanced 0 1 (release_held got) ?_ id
    simp only [State.owed, here, Loop.attempting, Bool.toNat_true, Bool.toNat_false]
    omega
  | lockProvider _ _ => exact h.unmoved rfl rfl id
  | lockSession found here _ =>
    exact (setPhase_accounted h found (by simp [here]) (by simp)).unmoved rfl rfl id
  | addedLate lock ended =>
    refine h.lost rfl ?_ ended
    simp [State.owed, Loop.attempting]
  | added lock _ =>
    have here : s.loop = .adding := inside _ _ lock
    refine h.unmoved rfl ?_ id
    simp only [State.owed, here, Loop.attempting, List.countP_append]
    simp [unreleased]
    omega
  | removed lock found =>
    have here := inside.owner_phase lock found
    exact (setPhase_accounted h found (by simp [here, phaseAt]) (by simp)).unmoved rfl rfl id
  | storeConns _ => exact h.unmoved rfl rfl id
  | resolve _ => exact h.unmoved rfl rfl id
  | unlockProvider lock =>
    have here : s.loop = .returning := inside _ _ lock
    refine h.unmoved rfl ?_ id
    simp only [State.owed, here, Loop.attempting]
  | unlockSession lock found =>
    have here := inside.owner_phase lock found
    exact (setPhase_accounted h found (by simp [here, phaseAt]) (by simp)).unmoved rfl rfl id
  | close found here => exact setPhase_accounted h found (by simp [here]) (by simp)
  | allowMoreConns found here got =>
    have owed := setPhase_owed .released found
    simp only [unreleased, here, ne_eq, not_true, decide_false, reduceCtorEq, not_false_eq_true,
      decide_true, Bool.toNat_true, Bool.toNat_false] at owed
    exact h.balanced 0 1 (release_held got) owed id
  | tryAcquire got =>
    refine h.balanced 1 0 (acquire_held got) ?_ id
    simp only [State.owed]
    omega
  | tryAcquireRefused => exact h
  | probeRelease probing got =>
    refine h.balanced 0 1 (release_held got) ?_ id
    simp only [State.owed]
    omega
  | cancel =>
    constructor
    · exact h.covered
    · intro alive
      cases alive
  | overReleased _ _ => exact h.unmoved rfl rfl id
  | nilSession _ _ _ => exact h.unmoved rfl rfl id

theorem init_recorded : Recorded (init : State muxCount) where
  ids := by simp [init]
  sequencer := rfl
  muxes := by simp [init]

theorem added_recorded (h : Recorded s)
    (sequencer : t.muxIdSequencer = s.muxIdSequencer + 1)
    (muxes : t.muxes = s.muxes.insert s.muxIdSequencer s.sessions.length)
    (sessions : t.sessions = s.sessions ++ [⟨s.muxIdSequencer, .running⟩]) : Recorded t := by
  have last : (s.sessions ++ [⟨s.muxIdSequencer, .running⟩])[s.sessions.length]? =
      some ⟨s.muxIdSequencer, .running⟩ := by simp
  have earlier {k : Nat} (differ : k ≠ s.sessions.length) :
      (s.sessions ++ [⟨s.muxIdSequencer, .running⟩])[k]? = s.sessions[k]? := by
    rcases Nat.lt_or_gt_of_ne differ with below | above
    · exact List.getElem?_append_left below
    · have past : s.sessions[k]? = none := List.getElem?_eq_none above.le
      rw [past, List.getElem?_eq_none]
      simp only [List.length_append, List.length_singleton]
      omega
  refine ⟨?_, ?_, ?_⟩
  · intro k x found
    rw [sessions] at found
    by_cases new : k = s.sessions.length
    · subst new
      obtain rfl := Option.some.inj (last.symm.trans found)
      exact h.sequencer
    · exact h.ids k x ((earlier new).symm.trans found)
  · rw [sequencer, sessions, h.sequencer, List.length_append, List.length_singleton]
  · intro id k
    rw [muxes, sessions]
    by_cases new : id = s.muxIdSequencer
    · subst new
      rw [AList.lookup_insert, Option.some.injEq]
      constructor
      · intro same
        subst same
        exact ⟨h.sequencer, _, last, rfl⟩
      · intro found
        exact h.sequencer.symm.trans found.1
    · rw [AList.lookup_insert_ne new, h.muxes]
      refine and_congr_right fun same => ?_
      rw [earlier]
      rintro rfl
      exact new (same.trans h.sequencer.symm)

/- A session that is deleted leaves the map. -/
theorem removed_recorded {k : Nat} {x : Session} (h : Recorded s) (found : s.sessions[k]? = some x)
    (sequencer : t.muxIdSequencer = s.muxIdSequencer) (muxes : t.muxes = s.muxes.erase x.id)
    (sessions : t.sessions = (s.setPhase k x .deleted).sessions) : Recorded t := by
  refine ⟨?_, ?_, ?_⟩
  · intro j y got
    rw [sessions, setPhase_get found] at got
    split at got
    · next here =>
      obtain rfl := Option.some.inj got
      exact (h.ids k x found).trans here.symm
    · exact h.ids j y got
  · rw [sequencer, sessions, h.sequencer]
    exact List.length_set.symm
  · intro id j
    rw [muxes, sessions, setPhase_get found, h.ids k x found]
    by_cases here : id = k
    · subst here
      rw [AList.lookup_erase]
      constructor
      · exact nofun
      · rintro ⟨rfl, y, got, registered⟩
        rw [if_pos rfl] at got
        obtain rfl := Option.some.inj got
        cases registered
    · rw [AList.lookup_erase_ne here, h.muxes]
      refine and_congr_right fun same => ?_
      rw [if_neg (same ▸ here)]

theorem recorded_step (inside : Inside s) (h : Recorded s) (st : Stepped s a t) : Recorded t := by
  cases st with
  | lockSession found here _ =>
    have moved := setPhase_recorded .unregistering h found (by simp [here, Phase.registered])
    exact ⟨moved.ids, moved.sequencer, moved.muxes⟩
  | added _ _ => exact added_recorded h rfl rfl rfl
  | removed _ found => exact removed_recorded h found rfl rfl rfl
  | unlockSession lock found =>
    have here := inside.owner_phase lock found
    have moved := setPhase_recorded .unregistered h found
      (by simp [here, phaseAt, Phase.registered])
    exact ⟨moved.ids, moved.sequencer, moved.muxes⟩
  | close found here => exact setPhase_recorded .closed h found (by simp [here, Phase.registered])
  | allowMoreConns found here _ =>
    have moved := setPhase_recorded .released h found (by simp [here, Phase.registered])
    exact ⟨moved.ids, moved.sequencer, moved.muxes⟩
  | _ => exact ⟨h.ids, h.sequencer, h.muxes⟩

theorem notified_step (h : Notified s) (st : Stepped s a t) : Notified t := by
  unfold Notified at h
  cases st with
  | lockProvider _ free =>
    rw [free] at h
    exact h
  | lockSession _ _ free =>
    rw [free] at h
    exact h
  | addedLate lock _ =>
    rw [lock] at h
    exact h
  | added lock _ =>
    rw [lock] at h
    exact h.2
  | removed lock _ =>
    rw [lock] at h
    exact h.2
  | storeConns lock => exact rfl
  | resolve lock =>
    rw [lock] at h
    exact ⟨h, rfl⟩
  | unlockProvider lock =>
    rw [lock] at h
    exact h
  | unlockSession lock _ =>
    rw [lock] at h
    exact h
  | _ => exact h

theorem Recorded.present {k : Nat} {x : Session} (h : Recorded s) (found : s.sessions[k]? = some x)
    (registered : x.phase.registered = true) : s.muxes.lookup x.id = some k :=
  (h.muxes x.id k).mpr ⟨h.ids k x found, x, found, registered⟩

/- What is released is held, and a session that unregisters is in the map. -/
theorem fault_step (h : Inv s) (st : Stepped s a t) : t.fault = none := by
  cases st with
  | overReleased due refused =>
    have covered := h.accounted.covered
    have none := release_refused refused
    omega
  | nilSession lock found missing =>
    have here := h.inside.owner_phase lock found
    have present := h.recorded.present found (by simp [here, phaseAt, Phase.registered])
    cases missing.symm.trans present
  | _ => exact h.fault

theorem inv_init : Inv (init : State muxCount) where
  inside := nofun
  accounted := init_accounted
  recorded := init_recorded
  notified := ⟨rfl, rfl⟩
  fault := rfl

theorem inv_step (h : Inv s) (hs : step s a = some t) : Inv t := by
  have st := step_inv hs
  constructor
  · exact inside_step h.inside st
  · exact accounted_step h.inside h.accounted st
  · exact recorded_step h.inside h.recorded st
  · exact notified_step h.notified st
  · exact fault_step h st

theorem inv_run {labels : List Label} (h : run step init labels = some s) : Inv s :=
  run_invariant_all (fun _ _ _ holds hs => inv_step holds hs) inv_init h

theorem Recorded.ids_nodup (h : Recorded s) : (s.sessions.map Session.id).Nodup := by
  have numbered : s.sessions.map Session.id = List.range s.sessions.length := by
    refine List.ext_getElem (by simp) fun k below _ => ?_
    rw [List.getElem_map, List.getElem_range]
    exact h.ids k _ (List.getElem?_eq_getElem _)
  rw [numbered]
  exact List.nodup_range

theorem Recorded.count_le (h : Recorded s) : s.muxes.keys.length ≤ s.sessions.countP unreleased := by
  have among : s.muxes.keys ⊆ (s.sessions.filter unreleased).map Session.id := by
    intro id member
    obtain ⟨k, found⟩ := Option.isSome_iff_exists.mp (AList.lookup_isSome.mpr member)
    obtain ⟨rfl, x, got, registered⟩ := (h.muxes id k).mp found
    refine List.mem_map.mpr ⟨x, List.mem_filter.mpr ⟨List.mem_of_getElem? got, ?_⟩, h.ids _ x got⟩
    cases phase : x.phase <;> simp_all [unreleased, Phase.registered]
  have shorter := (List.subperm_of_subset s.muxes.nodupKeys among).length_le
  rwa [List.length_map, ← List.countP_eq_length_filter] at shorter

/-- The listener has the sessions of the map, each with one endpoint. -/
structure Listening (s : State muxCount) : Prop where
  conns : ∀ id, s.connMap.lookup id = s.muxes.lookup id
  endpoints : s.endpoints.Nodup
  addresses : ∀ id, id ∈ s.endpoints ↔ id ∈ s.muxes

structure Conserved (s : State muxCount) : Prop where
  permits : s.permits.held =
    s.loop.attempting.toNat + s.sessions.countP unreleased + s.probes
  capacity : s.permits.held ≤ muxCount
  noFault : s.fault = none
  count : s.muxes.keys.length ≤ muxCount
  ids : (s.sessions.map Session.id).Nodup
  registered : ∀ id k, s.muxes.lookup id = some k ↔
    ∃ x, s.sessions[k]? = some x ∧ x.id = id ∧ x.phase.registered = true
  listener : s.muxesLock = none → Listening s

theorem Notified.listening (h : Notified s) (free : s.muxesLock = none) : Listening s := by
  unfold Notified at h
  rw [free] at h
  obtain ⟨conns, endpoints⟩ := h
  refine ⟨fun id => by rw [conns], ?_, fun id => ?_⟩
  · rw [endpoints]
    exact s.connMap.nodupKeys
  · rw [endpoints, conns]
    exact AList.mem_keys.symm

theorem mux_permits_conserved (muxCount : Nat) (labels : List Label) (s : State muxCount)
    (ran : run step init labels = some s) (alive : s.lifetimeDone = false) : Conserved s := by
  have inv := inv_run ran
  have permits : s.permits.held = s.owed := inv.accounted.exact alive
  have count := inv.recorded.count_le
  have bounded := s.permits.bounded
  refine ⟨permits, bounded, inv.fault, ?_, inv.recorded.ids_nodup, ?_, inv.notified.listening⟩
  · simp only [State.owed] at permits
    omega
  · intro id k
    rw [inv.recorded.muxes]
    constructor
    · rintro ⟨rfl, x, found, registered⟩
      exact ⟨x, found, inv.recorded.ids _ x found, registered⟩
    · rintro ⟨x, found, rfl, registered⟩
      exact ⟨inv.recorded.ids k x found, x, found, registered⟩

/-- The first session is closed while the second is added and a third attempt fails. -/
def reconnecting : List Label :=
  [.acquire, .returned true, .returned true, .returned true, .lockProvider, .change, .storeConns,
    .resolve, .unlock, .tryAcquire, .probeRelease, .acquire, .close 0, .returned true, .returned true,
    .lockSession 0, .change, .returned true, .storeConns, .resolve, .unlock, .lockProvider,
    .allowMoreConns 0, .change, .storeConns, .resolve, .unlock, .acquire, .returned false]

theorem mux_permits_conserved_reconnecting :
    ∃ s : State 2, run step init reconnecting = some s ∧ s.permits.held = 2 ∧
      s.endpoints = [1] ∧ Conserved s :=
  ⟨_, rfl, rfl, rfl, mux_permits_conserved 2 reconnecting _ rfl rfl⟩

end MuxPermits
