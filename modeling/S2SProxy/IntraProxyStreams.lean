import S2SProxy.Lib.GuardedRuns
import S2SProxy.ShardData

/- The receivers of the intra-proxy manager. ReconcilePeerStreams makes sure that each desired
   pair of shards has a receiver and closes the others; every receiver runs in a goroutine,
   which deletes the entry under its key when Run has returned. -/
namespace IntraProxyStreams
open ShardData GuardedRuns

structure StreamKey where
  peerNodeName : String
  targetShard : ClusterShardID
  sourceShard : ClusterShardID
  deriving DecidableEq, Repr

inductive Phase where
  | opening
  | receiving
  /-- Run has returned; the goroutine deletes the entry next. -/
  | finished
  | gone
  deriving DecidableEq, Repr

structure Receiver where
  key : StreamKey
  streamClient : Bool
  shutdown : Bool
  phase : Phase
  deriving DecidableEq, Repr

def Receiver.live (x : Receiver) : Bool :=
  (x.phase = .opening || x.phase = .receiving) && !x.shutdown

abbrev Entries := AList fun _ : StreamKey => Nat

/-- The maps of the peers, the receivers ever made, and the key for which ReconcilePeerStreams
    is between the two halves of ensureStream. -/
structure Manager where
  receivers : Entries
  recvShutdown : Entries
  made : List Receiver
  ensuring : Option StreamKey

def initial : Manager := ⟨∅, ∅, [], none⟩

inductive Label where
  | ensureStream (key : StreamKey)
  /-- The second half of ensureStream; found says whether ensurePeer has a connection. -/
  | addReceiver (found : Bool)
  | closePeerShard (key : StreamKey)
  /-- Run opens the stream, or fails to. -/
  | openStream (receiver : Nat) (opened : Bool)
  /-- recvReplicationMessages returns, with its deferred Shutdown. -/
  | finish (receiver : Nat)
  | deleteEntry (receiver : Nat)
  deriving DecidableEq, Repr

/-- The fast path of ensureStream. -/
def Manager.reusable (s : Manager) (key : StreamKey) : Bool :=
  match s.receivers.lookup key with
  | none => false
  | some r => s.made[r]?.any (·.streamClient)

def addReceiver (s : Manager) (key : StreamKey) : Manager where
  receivers := s.receivers.insert key s.made.length
  recvShutdown := s.recvShutdown.insert key s.made.length
  made := s.made ++ [⟨key, false, false, .opening⟩]
  ensuring := none

/-- Shutdown on the handle under the key, and both entries deleted. -/
def closePeerShardLocked (s : Manager) (key : StreamKey) : Manager :=
  { s with
    receivers := s.receivers.erase key
    recvShutdown := s.recvShutdown.erase key
    made :=
      match s.recvShutdown.lookup key with
      | none => s.made
      | some r => s.made.modify r fun x => { x with shutdown := true } }

def deleteEntry (s : Manager) (r : Nat) (x : Receiver) : Manager :=
  { s with
    receivers := s.receivers.erase x.key
    recvShutdown := s.recvShutdown.erase x.key
    made := s.made.set r { x with phase := .gone } }

def Manager.update (s : Manager) (r : Nat) (x : Receiver) : Manager :=
  { s with made := s.made.set r x }

def step (s : Manager) : Label → Option Manager
  | .ensureStream key =>
    if s.ensuring.isSome then none
    else if s.reusable key then some s
    else some { s with ensuring := some key }
  | .addReceiver found =>
    match s.ensuring with
    | none => none
    | some key => some (if found then addReceiver s key else { s with ensuring := none })
  | .closePeerShard key => if s.ensuring.isSome then none else some (closePeerShardLocked s key)
  | .openStream r opened =>
    match s.made[r]? with
    | none => none
    | some x =>
      if x.phase ≠ .opening then none
      else if opened then some (s.update r { x with streamClient := true, phase := .receiving })
      else some (s.update r { x with phase := .finished })
  | .finish r =>
    match s.made[r]? with
    | none => none
    | some x =>
      if x.phase ≠ .receiving then none
      else some (s.update r { x with shutdown := true, phase := .finished })
  | .deleteEntry r =>
    match s.made[r]? with
    | none => none
    | some x => if x.phase ≠ .finished then none else some (deleteEntry s r x)

/-- ensureStream adds a receiver only where no entry stands, and a goroutine deletes no entry
    but its own. -/
def NoOverlap (s : Manager) : Label → Prop
  | .addReceiver true => ∀ key ∈ s.ensuring, s.receivers.lookup key = none
  | .deleteEntry r => ∀ x ∈ s.made[r]?, ∀ r' ∈ s.receivers.lookup x.key, r' = r
  | _ => True

/-- A receiver ends only after it was shut down. -/
def EndsClosed (s : Manager) : Label → Prop
  | .openStream r false => ∀ x ∈ s.made[r]?, x.shutdown = true
  | .finish r => ∀ x ∈ s.made[r]?, x.shutdown = true
  | _ => True

instance (s : Manager) : ∀ a, Decidable (NoOverlap s a)
  | .addReceiver true =>
    inferInstanceAs (Decidable (∀ key ∈ s.ensuring, s.receivers.lookup key = none))
  | .deleteEntry r =>
    inferInstanceAs (Decidable (∀ x ∈ s.made[r]?, ∀ r' ∈ s.receivers.lookup x.key, r' = r))
  | .addReceiver false => .isTrue trivial
  | .ensureStream _ => .isTrue trivial
  | .closePeerShard _ => .isTrue trivial
  | .openStream _ _ => .isTrue trivial
  | .finish _ => .isTrue trivial

instance (s : Manager) : ∀ a, Decidable (EndsClosed s a)
  | .openStream r false => inferInstanceAs (Decidable (∀ x ∈ s.made[r]?, x.shutdown = true))
  | .finish r => inferInstanceAs (Decidable (∀ x ∈ s.made[r]?, x.shutdown = true))
  | .openStream _ true => .isTrue trivial
  | .addReceiver _ => .isTrue trivial
  | .deleteEntry _ => .isTrue trivial
  | .ensureStream _ => .isTrue trivial
  | .closePeerShard _ => .isTrue trivial

inductive Stepped (s : Manager) : Label → Manager → Prop
  | quiet {a : Label} (ensuring : Option StreamKey) : Stepped s a { s with ensuring := ensuring }
  | add {key : StreamKey} (wanted : s.ensuring = some key) :
      Stepped s (.addReceiver true) (addReceiver s key)
  | close (key : StreamKey) : Stepped s (.closePeerShard key) (closePeerShardLocked s key)
  | opened {r : Nat} {x : Receiver} (here : s.made[r]? = some x) (phase : x.phase = .opening) :
      Stepped s (.openStream r true) (s.update r { x with streamClient := true, phase := .receiving })
  | failed {r : Nat} {x : Receiver} (here : s.made[r]? = some x) (phase : x.phase = .opening) :
      Stepped s (.openStream r false) (s.update r { x with phase := .finished })
  | finish {r : Nat} {x : Receiver} (here : s.made[r]? = some x) (phase : x.phase = .receiving) :
      Stepped s (.finish r) (s.update r { x with shutdown := true, phase := .finished })
  | delete {r : Nat} {x : Receiver} (here : s.made[r]? = some x) (phase : x.phase = .finished) :
      Stepped s (.deleteEntry r) (deleteEntry s r x)

theorem step_inv {s t : Manager} {a : Label} (h : step s a = some t) : Stepped s a t := by
  cases a with
  | ensureStream key =>
    simp only [step] at h
    split at h
    · cases h
    · split at h
      · cases h
        exact .quiet s.ensuring
      · cases h
        exact .quiet _
  | addReceiver found =>
    simp only [step] at h
    split at h
    · cases h
    · next key wanted =>
      cases found
      · cases h
        exact .quiet _
      · cases h
        exact .add wanted
  | closePeerShard key =>
    simp only [step] at h
    split at h
    · cases h
    · cases h
      exact .close key
  | openStream r opened =>
    simp only [step] at h
    split at h
    · cases h
    · next x here =>
      split at h
      · cases h
      · next phase =>
        cases opened
        · cases h
          exact .failed here (not_not.mp phase)
        · cases h
          exact .opened here (not_not.mp phase)
  | finish r =>
    simp only [step] at h
    split at h
    · cases h
    · next x here =>
      split at h
      · cases h
      · next phase =>
        cases h
        exact .finish here (not_not.mp phase)
  | deleteEntry r =>
    simp only [step] at h
    split at h
    · cases h
    · next x here =>
      split at h
      · cases h
      · next phase =>
        cases h
        exact .delete here (not_not.mp phase)

/-- Both maps hold the same receivers. A receiver that runs and is not shut down is under its
    key; one under a key runs, or has returned and is about to delete the entry. -/
structure Listed (s : Manager) : Prop where
  same : s.recvShutdown = s.receivers
  entry : ∀ key r, s.receivers.lookup key = some r →
    ∃ x, s.made[r]? = some x ∧ x.key = key ∧ (x.live = true ∨ x.phase = .finished)
  live : ∀ r x, s.made[r]? = some x → x.live = true → s.receivers.lookup x.key = some r

def AllLive (s : Manager) : Prop :=
  ∀ key r, s.receivers.lookup key = some r → ∃ x, s.made[r]? = some x ∧ x.live = true

theorem initial_listed : Listed initial := by
  constructor <;> simp [initial]

section Steps
variable {s t : Manager} {a : Label} {r : Nat} {x : Receiver} {key : StreamKey}

theorem made_set {r' : Nat} {x' y : Receiver} (here : s.made[r]? = some x)
    (found : (s.made.set r x')[r']? = some y) : r' = r ∧ y = x' ∨ r' ≠ r ∧ s.made[r']? = some y := by
  have inside := (List.getElem?_eq_some_iff.mp here).1
  by_cases same : r' = r
  · subst same
    rw [List.getElem?_set_self inside] at found
    exact .inl ⟨rfl, (Option.some.inj found).symm⟩
  · rw [List.getElem?_set_ne (Ne.symm same)] at found
    exact .inr ⟨same, found⟩

theorem set_made {r' : Nat} {x' : Receiver} (here : s.made[r]? = some x) :
    (s.made.set r x')[r']? = if r' = r then some x' else s.made[r']? := by
  have inside := (List.getElem?_eq_some_iff.mp here).1
  by_cases same : r' = r
  · rw [if_pos same, same, List.getElem?_set_self inside]
  · rw [if_neg same, List.getElem?_set_ne (Ne.symm same)]

theorem Listed.update {x' : Receiver} (listed : Listed s) (here : s.made[r]? = some x)
    (unfinished : x.phase ≠ .finished) (sameKey : x'.key = x.key)
    (live : x'.live = true → x.live = true) (ends : x'.live = true ∨ x'.phase = .finished ∨ x.live = false) :
    Listed (s.update r x') where
  same := listed.same
  entry := by
    intro key r' found
    obtain ⟨y, there, atKey, state⟩ := listed.entry key r' found
    by_cases same : r' = r
    · subst same
      cases here.symm.trans there
      refine ⟨x', by simp [Manager.update, set_made here], sameKey.trans atKey, ?_⟩
      have running := state.resolve_right unfinished
      rcases ends with live' | finished | dead
      · exact .inl live'
      · exact .inr finished
      · cases dead.symm.trans running
    · exact ⟨y, by simp [Manager.update, set_made here, same, there], atKey, state⟩
  live := by
    intro r' y found running
    rcases made_set here found with ⟨rfl, rfl⟩ | ⟨_, there⟩
    · rw [sameKey]
      exact listed.live r' x here (live running)
    · exact listed.live r' y there running

theorem add_listed (listed : Listed s) (free : s.receivers.lookup key = none) :
    Listed (addReceiver s key) where
  same := by simp [addReceiver, listed.same]
  entry := by
    intro key' r' found
    by_cases same : key' = key
    · subst same
      simp only [addReceiver, AList.lookup_insert, Option.some.injEq] at found
      subst found
      exact ⟨⟨key', false, false, .opening⟩, by simp [addReceiver], rfl, .inl rfl⟩
    · simp only [addReceiver, AList.lookup_insert_ne same] at found
      obtain ⟨y, there, rest⟩ := listed.entry key' r' found
      have inside := (List.getElem?_eq_some_iff.mp there).1
      exact ⟨y, by simp [addReceiver, List.getElem?_append_left inside, there], rest⟩
  live := by
    intro r' y found running
    simp only [addReceiver] at found ⊢
    by_cases old : r' < s.made.length
    · rw [List.getElem?_append_left old] at found
      have there := listed.live r' y found running
      have other : y.key ≠ key := by
        rintro rfl
        cases free.symm.trans there
      rw [AList.lookup_insert_ne other, there]
    · obtain ⟨rfl, rfl⟩ : r' = s.made.length ∧ y = ⟨key, false, false, .opening⟩ := by
        rw [List.getElem?_append_right (Nat.le_of_not_lt old)] at found
        obtain ⟨inside, same⟩ := List.getElem?_eq_some_iff.mp found
        simp only [List.length_singleton] at inside
        exact ⟨by omega, by simpa using same.symm⟩
      exact AList.lookup_insert _

theorem lookup_erase_some {entries : Entries} {key key' : StreamKey}
    (found : (entries.erase key).lookup key' = some r) :
    key' ≠ key ∧ entries.lookup key' = some r := by
  by_cases same : key' = key
  · rw [same, AList.lookup_erase] at found
    cases found
  · rw [AList.lookup_erase_ne same] at found
    exact ⟨same, found⟩

theorem delete_listed (listed : Listed s) (here : s.made[r]? = some x)
    (own : ∀ r' ∈ s.receivers.lookup x.key, r' = r) : Listed (deleteEntry s r x) where
  same := by simp [deleteEntry, listed.same]
  entry := by
    intro key r' found
    obtain ⟨other, before⟩ := lookup_erase_some found
    obtain ⟨y, there, atKey, state⟩ := listed.entry key r' before
    have differ : r' ≠ r := by
      rintro rfl
      cases here.symm.trans there
      exact other atKey.symm
    exact ⟨y, by simp [deleteEntry, set_made here, differ, there], atKey, state⟩
  live := by
    intro r' y found running
    rcases made_set here found with ⟨rfl, rfl⟩ | ⟨differ, there⟩
    · simp [Receiver.live] at running
    · have before := listed.live r' y there running
      have other : y.key ≠ x.key := fun same => differ (own r' (same ▸ before))
      simp only [deleteEntry, AList.lookup_erase_ne other, before]

theorem close_made (listed : Listed s) (found : s.receivers.lookup key = some r)
    (here : s.made[r]? = some x) (r' : Nat) :
    (closePeerShardLocked s key).made[r']? =
      if r' = r then some { x with shutdown := true } else s.made[r']? := by
  simp only [closePeerShardLocked, listed.same, found, List.getElem?_modify]
  by_cases same : r' = r
  · simp [same, here]
  · simp [same, Ne.symm same]

theorem close_listed (listed : Listed s) (key : StreamKey) : Listed (closePeerShardLocked s key) := by
  cases found : s.receivers.lookup key with
  | none =>
    have made : (closePeerShardLocked s key).made = s.made := by
      simp [closePeerShardLocked, listed.same, found]
    refine ⟨by simp [closePeerShardLocked, listed.same], ?_, ?_⟩
    · intro key' r' present
      rw [made]
      exact listed.entry key' r' (lookup_erase_some present).2
    · intro r' y there running
      rw [made] at there
      have before := listed.live r' y there running
      have other : y.key ≠ key := by
        rintro rfl
        cases found.symm.trans before
      simp only [closePeerShardLocked, AList.lookup_erase_ne other, before]
  | some r =>
    obtain ⟨x, here, atKey, _⟩ := listed.entry key r found
    have made := close_made listed found here
    refine ⟨by simp [closePeerShardLocked, listed.same], ?_, ?_⟩
    · intro key' r' present
      obtain ⟨other, before⟩ := lookup_erase_some present
      obtain ⟨y, there, atKey', state⟩ := listed.entry key' r' before
      have differ : r' ≠ r := by
        rintro rfl
        cases here.symm.trans there
        exact other (atKey'.symm.trans atKey)
      exact ⟨y, by rw [made, if_neg differ, there], atKey', state⟩
    · intro r' y there running
      rw [made] at there
      split at there
      · cases there
        simp [Receiver.live] at running
      · next differ =>
        have before := listed.live r' y there running
        have other : y.key ≠ key := by
          rintro rfl
          exact differ (Option.some.inj (before.symm.trans found))
        simp only [closePeerShardLocked, AList.lookup_erase_ne other, before]

theorem step_listed (listed : Listed s) (noOverlap : NoOverlap s a) (h : step s a = some t) :
    Listed t := by
  cases step_inv h with
  | quiet => exact ⟨listed.same, listed.entry, listed.live⟩
  | add wanted => exact add_listed listed (noOverlap _ wanted)
  | close key => exact close_listed listed key
  | opened here phase =>
    refine listed.update here (by simp [phase]) rfl ?_ ?_
    · simp [Receiver.live, phase]
    · simp only [Receiver.live, phase]
      cases shut : Receiver.shutdown _ <;> simp
  | failed here phase =>
    exact listed.update here (by simp [phase]) rfl (by simp [Receiver.live]) (.inr (.inl rfl))
  | finish here phase =>
    exact listed.update here (by simp [phase]) rfl (by simp [Receiver.live]) (.inr (.inl rfl))
  | delete here phase => exact delete_listed listed here (noOverlap _ here)

theorem update_allLive {x' : Receiver} (all : AllLive s) (here : s.made[r]? = some x)
    (stays : x.live = true → x'.live = true) :
    AllLive (s.update r x') := by
  intro key r' found
  obtain ⟨y, there, running⟩ := all key r' found
  by_cases same : r' = r
  · subst same
    cases here.symm.trans there
    exact ⟨x', by simp [Manager.update, set_made here], stays running⟩
  · exact ⟨y, by simp [Manager.update, set_made here, same, there], running⟩

theorem step_allLive (listed : Listed s) (all : AllLive s) (ends : EndsClosed s a)
    (h : step s a = some t) : AllLive t := by
  cases step_inv h with
  | quiet => exact all
  | @add key wanted =>
    intro key' r' found
    by_cases same : key' = key
    · subst same
      simp only [addReceiver, AList.lookup_insert, Option.some.injEq] at found
      subst found
      exact ⟨⟨key', false, false, .opening⟩, by simp [addReceiver], rfl⟩
    · simp only [addReceiver, AList.lookup_insert_ne same] at found
      obtain ⟨y, there, running⟩ := all key' r' found
      have inside := (List.getElem?_eq_some_iff.mp there).1
      exact ⟨y, by simp [addReceiver, List.getElem?_append_left inside, there], running⟩
  | close key =>
    intro key' r' found
    obtain ⟨other, before⟩ := lookup_erase_some found
    obtain ⟨y, there, running⟩ := all key' r' before
    cases atKey : s.receivers.lookup key with
    | none => exact ⟨y, by simp [closePeerShardLocked, listed.same, atKey, there], running⟩
    | some r =>
      obtain ⟨x, here, keyOf, _⟩ := listed.entry key r atKey
      obtain ⟨y', there', keyOf', _⟩ := listed.entry key' r' before
      have differ : r' ≠ r := by
        rintro rfl
        cases here.symm.trans there'
        exact other (keyOf'.symm.trans keyOf)
      exact ⟨y, by rw [close_made listed atKey here, if_neg differ, there], running⟩
  | opened here phase =>
    exact update_allLive all here fun running => by simpa [Receiver.live, phase] using running
  | failed here phase =>
    exact update_allLive all here fun running => by simp [Receiver.live, ends _ here] at running
  | finish here phase =>
    exact update_allLive all here fun running => by simp [Receiver.live, ends _ here] at running
  | @delete r x here phase =>
    intro key r' found
    obtain ⟨other, before⟩ := lookup_erase_some found
    obtain ⟨y, there, running⟩ := all key r' before
    have differ : r' ≠ r := by
      rintro rfl
      cases here.symm.trans there
      simp [Receiver.live, phase] at running
    exact ⟨y, by simp [deleteEntry, set_made here, differ, there], running⟩

end Steps

theorem one_live_receiver_per_key (labels : List Label) (s : Manager)
    (h : run step initial labels = some s) (noOverlap : Meets step NoOverlap initial labels) :
    (∀ (r r' : Nat) (x x' : Receiver), s.made[r]? = some x → s.made[r']? = some x' →
        x.live = true → x'.live = true → x.key = x'.key → r = r') ∧
      (∀ (r : Nat) (x : Receiver), s.made[r]? = some x → x.live = true →
        s.receivers.lookup x.key = some r ∧ s.recvShutdown.lookup x.key = some r) ∧
      (Meets step EndsClosed initial labels →
        ∀ key r, s.receivers.lookup key = some r ∨ s.recvShutdown.lookup key = some r →
          ∃ x, s.made[r]? = some x ∧ x.key = key ∧ x.live = true) := by
  have listed : Listed s := run_invariant (fun s a t => step_listed) initial_listed noOverlap h
  refine ⟨?_, ?_, ?_⟩
  · intro r r' x x' here here' running running' sameKey
    have found := listed.live r x here running
    have found' := listed.live r' x' here' running'
    rw [sameKey] at found
    exact Option.some.inj (found.symm.trans found')
  · intro r x here running
    rw [listed.same]
    exact ⟨listed.live r x here running, listed.live r x here running⟩
  · intro ends key r found
    have step_both : ∀ u a v, Listed u ∧ AllLive u → NoOverlap u a ∧ EndsClosed u a →
        step u a = some v → Listed v ∧ AllLive v := fun u a v both conds stepped =>
      ⟨step_listed both.1 conds.1 stepped, step_allLive both.1 both.2 conds.2 stepped⟩
    have start : Listed initial ∧ AllLive initial :=
      ⟨initial_listed, by simp [AllLive, initial]⟩
    have both := run_invariant step_both start (meets_and noOverlap ends) h
    rw [listed.same, or_self] at found
    obtain ⟨x, here, atKey, _⟩ := listed.entry key r found
    obtain ⟨y, there, running⟩ := both.2 key r found
    cases here.symm.trans there
    exact ⟨x, here, atKey, running⟩

def sampleKey : StreamKey := ⟨"peer", ⟨2, 1⟩, ⟨1, 1⟩⟩

/-- A second reconcile comes before the stream of the first receiver is open. -/
def eagerRun : List Label :=
  [.ensureStream sampleKey, .addReceiver true, .ensureStream sampleKey, .addReceiver true,
    .openStream 0 true, .openStream 1 true]

theorem two_live_receivers :
    ∃ s, run step initial eagerRun = some s ∧
      s.made = [⟨sampleKey, true, false, .receiving⟩, ⟨sampleKey, true, false, .receiving⟩] ∧
      s.receivers.lookup sampleKey = some 1 ∧ s.recvShutdown.lookup sampleKey = some 1 :=
  ⟨_, rfl, rfl, rfl, rfl⟩

/-- The stream is open before the second reconcile; the third one closes it, and its goroutine
    has deleted the entry before the fourth one. -/
def patientRun : List Label :=
  [.ensureStream sampleKey, .addReceiver true, .openStream 0 true, .ensureStream sampleKey,
    .closePeerShard sampleKey, .finish 0, .deleteEntry 0, .ensureStream sampleKey, .addReceiver true]

theorem one_live_receiver_per_key_patient :
    ∃ s, run step initial patientRun = some s ∧ s.receivers.lookup sampleKey = some 1 ∧
      ∃ x, s.made[1]? = some x ∧ x.key = sampleKey ∧ x.live = true := by
  have noOverlap : Meets step NoOverlap initial patientRun := by decide +kernel
  have ends : Meets step EndsClosed initial patientRun := by decide +kernel
  obtain ⟨_, _, listed⟩ := one_live_receiver_per_key patientRun _ rfl noOverlap
  exact ⟨_, rfl, rfl, listed ends sampleKey 1 (.inl rfl)⟩

end IntraProxyStreams
