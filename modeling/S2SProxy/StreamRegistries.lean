import S2SProxy.Lib.GuardedRuns
import S2SProxy.Lib.OwnedRegistry
import S2SProxy.ShardData

/- Where the streams of one node register: the ack channels, cancel functions and active
   receivers of the shard manager and the senders of the intra-proxy manager. Every stream
   registers as it starts and takes its registrations out in its deferred clean-up; each of
   these calls is one step, as each map has a mutex of its own. -/
namespace StreamRegistries
open ShardData GuardedRuns OwnedRegistry

/-- One key of one of the maps. -/
inductive Slot where
  | localAckChan (shardID : ClusterShardID)
  | localReceiverCancelFunc (shardID : ClusterShardID)
  | activeReceiver (sourceShardID : ClusterShardID)
  | sender (peerNodeName : String) (targetShard sourceShard : ClusterShardID)
  deriving DecidableEq, Repr

inductive Role where
  | proxyStreamReceiver (sourceShardID : ClusterShardID)
  | intraProxyStreamReceiver (sourceShardID : ClusterShardID)
  | intraProxyStreamSender (peerNodeName : String) (targetShardID sourceShardID : ClusterShardID)
  deriving DecidableEq, Repr

def Role.source : Role → ClusterShardID
  | .proxyStreamReceiver source => source
  | .intraProxyStreamReceiver source => source
  | .intraProxyStreamSender _ _ source => source

/-- What a stream registers, in order. RegisterSender is for cross-cluster pairs only. -/
def Role.registers : Role → List Slot
  | .proxyStreamReceiver source =>
    [.localAckChan source, .localReceiverCancelFunc source, .activeReceiver source]
  | .intraProxyStreamReceiver source => [.activeReceiver source]
  | .intraProxyStreamSender peer target source =>
    if target.clusterID = source.clusterID then [] else [.sender peer target source]

/-- What its deferred clean-up takes out, in order. -/
def Role.cleansUp : Role → List Slot
  | .proxyStreamReceiver source =>
    [.localAckChan source, .localReceiverCancelFunc source, .activeReceiver source]
  | .intraProxyStreamReceiver source => [.activeReceiver source]
  | .intraProxyStreamSender peer target source => [.sender peer target source]

/-- RemoveLocalAckChan asks whether the channel is its own; the others do not ask. -/
def Slot.compared : Slot → Bool
  | .localAckChan _ => true
  | _ => false

inductive Pc where
  /-- TerminatePreviousLocalReceiver before it looks for a cancel function. -/
  | terminatePrevious
  /-- The previous receiver is cancelled; RemoveLocalReceiverCancelFunc is next. -/
  | removeCancelFunc (prev : Nat)
  | forceRemoveAckChan (prev : Nat)
  | opening
  | registering (slot : Slot) (rest : List Slot)
  | running
  | cleaning (slot : Slot) (rest : List Slot)
  | returned
  deriving DecidableEq, Repr

def Pc.register : List Slot → Pc
  | [] => .running
  | slot :: rest => .registering slot rest

def Pc.clean : List Slot → Pc
  | [] => .returned
  | slot :: rest => .cleaning slot rest

def Pc.live : Pc → Bool
  | .cleaning _ _ => false
  | .returned => false
  | _ => true

structure Instance where
  role : Role
  pc : Pc
  deriving DecidableEq, Repr

/-- An entry that a deferred clean-up has taken out. -/
structure Cleanup where
  cleaner : Nat
  owner : Nat
  ownerLive : Bool
  deriving DecidableEq, Repr

structure Streams where
  instances : List Instance
  registry : Registry Slot Nat
  cancelled : List Nat
  cleanups : List Cleanup

def initial : Streams := ⟨[], empty, [], []⟩

def Streams.live (s : Streams) (i : Nat) : Bool := s.instances[i]?.any (·.pc.live)

inductive Label where
  | start (role : Role)
  /-- The next step of an instance; opened says whether a stream it opens is there. -/
  | act (i : Nat) (opened : Bool)
  /-- closePeerShardLocked and closePeerLocked drop senders without asking. -/
  | closeSender (peerNodeName : String) (targetShard sourceShard : ClusterShardID)
  deriving DecidableEq, Repr

def Role.firstStep : Role → Pc
  | .proxyStreamReceiver _ => .terminatePrevious
  | .intraProxyStreamReceiver _ => .opening
  | .intraProxyStreamSender peer target source =>
    .register (Role.intraProxyStreamSender peer target source).registers

def Streams.goto (s : Streams) (i : Nat) (role : Role) (pc : Pc) : Streams :=
  { s with instances := s.instances.set i ⟨role, pc⟩ }

def cleanUp (registry : Registry Slot Nat) (i : Nat) (slot : Slot) : Registry Slot Nat :=
  if slot.compared then removeOwn registry slot i else remove registry slot

@[simp] theorem cleanUp_puts (registry : Registry Slot Nat) (i : Nat) (slot : Slot) :
    (cleanUp registry i slot).puts = registry.puts := by
  unfold cleanUp
  split <;> simp

def cleaned (s : Streams) (i : Nat) (slot : Slot) : List Cleanup :=
  match s.registry.entries.lookup slot, (cleanUp s.registry i slot).entries.lookup slot with
  | some owner, none => [⟨i, owner, s.live owner⟩]
  | _, _ => []

def act (s : Streams) (i : Nat) (role : Role) (opened : Bool) : Pc → Option Streams
  | .terminatePrevious =>
    match s.registry.entries.lookup (.localReceiverCancelFunc role.source) with
    | none => some (s.goto i role .opening)
    | some prev =>
      some { s.goto i role (.removeCancelFunc prev) with cancelled := prev :: s.cancelled }
  | .removeCancelFunc prev =>
    some { s.goto i role (.forceRemoveAckChan prev) with
      registry := remove s.registry (.localReceiverCancelFunc role.source) }
  | .forceRemoveAckChan _ =>
    some { s.goto i role .opening with registry := remove s.registry (.localAckChan role.source) }
  | .opening => some (s.goto i role (if opened then .register role.registers else .returned))
  | .registering slot rest =>
    some { s.goto i role (.register rest) with registry := put s.registry slot i }
  | .running => some (s.goto i role (.clean role.cleansUp))
  | .cleaning slot rest =>
    some { s.goto i role (.clean rest) with
      registry := cleanUp s.registry i slot
      cleanups := s.cleanups ++ cleaned s i slot }
  | .returned => none

def step (s : Streams) : Label → Option Streams
  | .start role => some { s with instances := s.instances ++ [⟨role, role.firstStep⟩] }
  | .act i opened =>
    match s.instances[i]? with
    | none => none
    | some x => act s i x.role opened x.pc
  | .closeSender peer target source =>
    some { s with registry := remove s.registry (.sender peer target source) }

/-- What an instance removes next without asking, and whose entry that should be. -/
def Instance.removes (i : Nat) (x : Instance) : Option (Slot × Nat) :=
  match x.pc with
  | .removeCancelFunc prev => some (.localReceiverCancelFunc x.role.source, prev)
  | .forceRemoveAckChan prev => some (.localAckChan x.role.source, prev)
  | .cleaning slot _ => if slot.compared then none else some (slot, i)
  | _ => none

/-- The last to have registered under a key that is removed without asking is the one whose
    entry is meant, or has begun its own clean-up. -/
def LastToRegister (s : Streams) : Label → Prop
  | .act i _ => ∀ x ∈ s.instances[i]?, ∀ r ∈ x.removes i,
    ∀ owner ∈ s.registry.puts.lookup r.1, owner = r.2 ∨ s.live owner = false
  | _ => True

/-- The receiver that a start-up has cancelled and is taking out. -/
def Pc.cancels : Pc → Option Nat
  | .removeCancelFunc prev => some prev
  | .forceRemoveAckChan prev => some prev
  | _ => none

inductive Acted (s : Streams) (i : Nat) (x : Instance) : Streams → Prop
  | noPrevious (pc : x.pc = .terminatePrevious) : Acted s i x (s.goto i x.role .opening)
  | terminate {prev : Nat} (pc : x.pc = .terminatePrevious)
      (found : s.registry.entries.lookup (.localReceiverCancelFunc x.role.source) = some prev) :
      Acted s i x { s.goto i x.role (.removeCancelFunc prev) with cancelled := prev :: s.cancelled }
  | removeCancelFunc {prev : Nat} (pc : x.pc = .removeCancelFunc prev) :
      Acted s i x { s.goto i x.role (.forceRemoveAckChan prev) with
        registry := remove s.registry (.localReceiverCancelFunc x.role.source) }
  | forceRemoveAckChan {prev : Nat} (pc : x.pc = .forceRemoveAckChan prev) :
      Acted s i x { s.goto i x.role .opening with
        registry := remove s.registry (.localAckChan x.role.source) }
  | opened (pc : x.pc = .opening) : Acted s i x (s.goto i x.role (.register x.role.registers))
  | openFailed (pc : x.pc = .opening) : Acted s i x (s.goto i x.role .returned)
  | register {slot : Slot} {rest : List Slot} (pc : x.pc = .registering slot rest) :
      Acted s i x { s.goto i x.role (.register rest) with registry := put s.registry slot i }
  | stop (pc : x.pc = .running) : Acted s i x (s.goto i x.role (.clean x.role.cleansUp))
  | clean {slot : Slot} {rest : List Slot} (pc : x.pc = .cleaning slot rest) :
      Acted s i x { s.goto i x.role (.clean rest) with
        registry := cleanUp s.registry i slot
        cleanups := s.cleanups ++ cleaned s i slot }

@[simp] theorem clean_live (slots : List Slot) : (Pc.clean slots).live = false := by
  cases slots <;> rfl

@[simp] theorem clean_cancels (slots : List Slot) : (Pc.clean slots).cancels = none := by
  cases slots <;> rfl

@[simp] theorem register_cancels (slots : List Slot) : (Pc.register slots).cancels = none := by
  cases slots <;> rfl

theorem firstStep_cancels (role : Role) : role.firstStep.cancels = none := by
  cases role with
  | intraProxyStreamSender peer target source => exact register_cancels _
  | _ => rfl

theorem act_inv {s t : Streams} {i : Nat} {x : Instance} {opened : Bool}
    (h : act s i x.role opened x.pc = some t) : Acted s i x t := by
  cases pc : x.pc with
  | terminatePrevious =>
    simp only [pc, act] at h
    split at h
    · cases h
      exact .noPrevious pc
    · next found =>
      cases h
      exact .terminate pc found
  | removeCancelFunc prev =>
    simp only [pc, act, Option.some.injEq] at h
    subst h
    exact .removeCancelFunc pc
  | forceRemoveAckChan prev =>
    simp only [pc, act, Option.some.injEq] at h
    subst h
    exact .forceRemoveAckChan pc
  | opening =>
    simp only [pc, act, Option.some.injEq] at h
    subst h
    cases opened with
    | true => exact .opened pc
    | false => exact .openFailed pc
  | registering slot rest =>
    simp only [pc, act, Option.some.injEq] at h
    subst h
    exact .register pc
  | running =>
    simp only [pc, act, Option.some.injEq] at h
    subst h
    exact .stop pc
  | cleaning slot rest =>
    simp only [pc, act, Option.some.injEq] at h
    subst h
    exact .clean pc
  | returned =>
    rw [pc] at h
    cases h

def Slot.ofSender : Slot → Bool
  | .sender _ _ _ => true
  | _ => false

/-- The stream can be found under a key where it has registered. -/
def Found (s : Streams) (slot : Slot) (i : Nat) : Prop := s.registry.entries.lookup slot = some i

/-- Another stream has registered under the key since, or has cancelled the stream. -/
def Replaced (s : Streams) (slot : Slot) (i : Nat) : Prop :=
  s.registry.puts.lookup slot ≠ some i ∨ i ∈ s.cancelled

/-- Clean-ups take out what is their own or what nobody uses any more; whoever has registered
    is found until it is replaced or cleans up itself. -/
structure Reachable (s : Streams) : Prop where
  owners : ∀ p ∈ s.registry.puts, p.2 < s.instances.length
  cancels : ∀ x ∈ s.instances, ∀ prev ∈ x.pc.cancels, prev ∈ s.cancelled
  own : ∀ c ∈ s.cleanups, c.owner = c.cleaner ∨ c.ownerLive = false
  present : ∀ slot i, (slot, i) ∈ s.registry.puts → s.live i = true → slot.ofSender = false →
    Found s slot i ∨ Replaced s slot i

theorem initial_reachable : Reachable initial := by
  constructor <;> simp [initial, empty]

section Steps
variable {s t : Streams} {i : Nat} {x : Instance} {opened : Bool}

theorem acted_live (here : s.instances[i]? = some x) (h : Acted s i x t) (j : Nat)
    (live : t.live j = true) : s.live j = true ∧ (x.pc.live = false → j ≠ i) := by
  have inside := (List.getElem?_eq_some_iff.mp here).1
  have goes : ∀ pc', (pc'.live = true → x.pc.live = true) →
      (s.goto i x.role pc').live j = true → s.live j = true ∧ (x.pc.live = false → j ≠ i) := by
    intro pc' back after
    by_cases same : j = i
    · subst same
      have now : pc'.live = true := by simpa [Streams.live, Streams.goto, inside] using after
      have before := back now
      exact ⟨by simp [Streams.live, here, before], by simp [before]⟩
    · exact ⟨by simpa [Streams.live, Streams.goto, List.getElem?_set_ne (Ne.symm same)] using after,
        fun _ => same⟩
  cases h with
  | openFailed => exact goes _ (by simp [Pc.live]) live
  | stop | clean => exact goes _ (by simp) live
  | noPrevious pc | terminate pc | removeCancelFunc pc | forceRemoveAckChan pc | opened pc
  | register pc => exact goes _ (by simp [pc, Pc.live]) live

theorem mem_cleaned {slot : Slot} {c : Cleanup} (h : c ∈ cleaned s i slot) :
    c.cleaner = i ∧ s.registry.entries.lookup slot = some c.owner ∧
      (cleanUp s.registry i slot).entries.lookup slot = none ∧ c.ownerLive = s.live c.owner := by
  unfold cleaned at h
  split at h
  · next owner before after =>
    cases List.mem_singleton.mp h
    exact ⟨rfl, before, after, rfl⟩
  · cases h

/- Whatever a clean-up takes out was put there last by the cleaner or by a stream that has
   begun to clean up. -/
theorem cleanUp_kept {slot slot' : Slot} {rest : List Slot} {j : Nat}
    (here : s.instances[i]? = some x) (last : LastToRegister s (.act i opened))
    (pc : x.pc = .cleaning slot rest) (found : s.registry.entries.lookup slot' = some j) :
    (cleanUp s.registry i slot).entries.lookup slot' = some j ∨ j = i ∨ s.live j = false := by
  unfold cleanUp
  split
  · exact (kept_or_own slot i found).imp_right fun own => .inl own.2
  · next unasked =>
    rcases kept_or_removed slot found with kept | rfl
    · exact .inl kept
    · refine .inr (last x here (slot', i) ?_ j (s.registry.latest slot' j found))
      simp [Instance.removes, pc, unasked]

theorem acted_own (reach : Reachable s) (here : s.instances[i]? = some x)
    (last : LastToRegister s (.act i opened)) (h : Acted s i x t) :
    ∀ c ∈ t.cleanups, c.owner = c.cleaner ∨ c.ownerLive = false := by
  cases h with
  | clean pc =>
    intro c member
    rcases List.mem_append.mp member with old | new
    · exact reach.own c old
    · obtain ⟨cleaner, before, after, live⟩ := mem_cleaned new
      rw [cleaner, live]
      exact (cleanUp_kept here last pc before).resolve_left (by simp [after])
  | _ => exact reach.own

theorem force_kept {slot slot' : Slot} {prev j : Nat} (reach : Reachable s)
    (here : s.instances[i]? = some x) (last : LastToRegister s (.act i opened))
    (removes : x.removes i = some (slot', prev)) (cancels : x.pc.cancels = some prev)
    (live : s.live j = true) (before : Found s slot j ∨ Replaced s slot j) :
    (remove s.registry slot').entries.lookup slot = some j ∨ Replaced s slot j := by
  rcases before with found | replaced
  · rcases kept_or_removed slot' found with kept | rfl
    · exact .inl kept
    · refine .inr (.inr ?_)
      rcases last x here _ removes j (s.registry.latest slot j found) with rfl | dead
      · exact reach.cancels x (List.mem_of_getElem? here) j cancels
      · cases dead.symm.trans live
  · exact .inr replaced

theorem acted_present (reach : Reachable s) (here : s.instances[i]? = some x)
    (last : LastToRegister s (.act i opened)) (h : Acted s i x t) (slot : Slot) (j : Nat)
    (known : (slot, j) ∈ t.registry.puts) (live : t.live j = true) (receiver : slot.ofSender = false) :
    Found t slot j ∨ Replaced t slot j := by
  obtain ⟨liveBefore, notCleaner⟩ := acted_live here h j live
  cases h with
  | terminate pc =>
    refine (reach.present slot j known liveBefore receiver).imp_right ?_
    exact Or.imp_right fun cancelled => List.mem_cons_of_mem _ cancelled
  | noPrevious | opened | openFailed | stop => exact reach.present slot j known liveBefore receiver
  | @removeCancelFunc prev pc | @forceRemoveAckChan prev pc =>
    have cancels : x.pc.cancels = some prev := by simp only [pc, Pc.cancels]
    exact force_kept reach here last (by simp only [Instance.removes, pc]) cancels liveBefore
      (reach.present slot j known liveBefore receiver)
  | @register slot' rest pc =>
    by_cases same : slot = slot'
    · subst same
      by_cases own : j = i
      · subst own
        exact .inl lookup_put_same
      · refine .inr (.inl fun newest => own ?_)
        exact (Option.some.inj (latest_put_same.symm.trans newest)).symm
    · have before : (slot, j) ∈ s.registry.puts := by
        rcases List.mem_cons.mp known with new | old
        · exact absurd (congrArg Prod.fst new) same
        · exact old
      rcases reach.present slot j before liveBefore receiver with found | replaced
      · exact .inl ((lookup_put_ne same).trans found)
      · exact .inr (replaced.imp_left fun other newest =>
          other ((latest_put_ne same).symm.trans newest))
  | @clean slot' rest pc =>
    rw [cleanUp_puts] at known
    rcases reach.present slot j known liveBefore receiver with found | replaced
    · rcases cleanUp_kept here last pc found with kept | own | dead
      · exact .inl kept
      · exact absurd own (notCleaner (by simp [pc, Pc.live]))
      · cases dead.symm.trans liveBefore
    · exact .inr (replaced.imp_left fun other newest => other (cleanUp_puts _ _ _ ▸ newest))

theorem acted_reachable (reach : Reachable s) (here : s.instances[i]? = some x)
    (last : LastToRegister s (.act i opened)) (h : Acted s i x t) : Reachable t where
  owners := by
    have inside := (List.getElem?_eq_some_iff.mp here).1
    cases h with
    | register pc =>
      intro p member
      simp only [Streams.goto, List.length_set]
      rcases List.mem_cons.mp member with rfl | old
      · exact inside
      · exact reach.owners p old
    | clean => simpa [Streams.goto] using reach.owners
    | _ => simpa [Streams.goto] using reach.owners
  cancels := by
    have goes : ∀ pc', (∀ prev ∈ pc'.cancels, prev ∈ t.cancelled) → s.cancelled ⊆ t.cancelled →
        ∀ y ∈ (s.goto i x.role pc').instances, ∀ prev ∈ y.pc.cancels, prev ∈ t.cancelled := by
      intro pc' new more y member prev cancels
      rcases List.mem_or_eq_of_mem_set member with old | rfl
      · exact more (reach.cancels y old prev cancels)
      · exact new prev cancels
    have ongoing := reach.cancels x (List.mem_of_getElem? here)
    cases h with
    | @terminate prev pc =>
      refine goes _ ?_ (List.subset_cons_self _ _)
      rintro _ ⟨⟩
      exact List.mem_cons_self
    | removeCancelFunc pc =>
      refine goes _ ?_ (List.Subset.refl _)
      rintro _ ⟨⟩
      exact ongoing _ (by simp only [Pc.cancels, pc, Option.mem_def])
    | noPrevious | forceRemoveAckChan | openFailed =>
      exact goes _ (by simp [Pc.cancels]) (List.Subset.refl _)
    | opened | register | stop | clean => exact goes _ (by simp) (List.Subset.refl _)
  own := acted_own reach here last h
  present := acted_present reach here last h

theorem start_reachable (reach : Reachable s) (role : Role) :
    Reachable { s with instances := s.instances ++ [⟨role, role.firstStep⟩] } where
  owners := fun p member => Nat.lt_of_lt_of_le (reach.owners p member) (by simp)
  cancels := by
    intro y member prev cancels
    rcases List.mem_append.mp member with old | new
    · exact reach.cancels y old prev cancels
    · cases List.mem_singleton.mp new
      cases (firstStep_cancels role).symm.trans cancels
  own := reach.own
  present := by
    intro slot j known live receiver
    have inside := reach.owners _ known
    refine reach.present slot j known ?_ receiver
    simpa [Streams.live, List.getElem?_append_left inside] using live

theorem step_reachable {a : Label} (reach : Reachable s) (last : LastToRegister s a)
    (h : step s a = some t) : Reachable t := by
  cases a with
  | start role =>
    cases h
    exact start_reachable reach role
  | act i opened =>
    simp only [step] at h
    split at h
    · cases h
    · next x here => exact acted_reachable reach here last (act_inv h)
  | closeSender peer target source =>
    cases h
    refine ⟨reach.owners, reach.cancels, reach.own, fun slot j known live receiver => ?_⟩
    rcases reach.present slot j known live receiver with found | replaced
    · rcases kept_or_removed (.sender peer target source) found with kept | rfl
      · exact .inl kept
      · cases receiver
    · exact .inr replaced

end Steps

end StreamRegistries
