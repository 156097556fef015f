import S2SProxy.StreamRegistries

/- A schedule under which the clean-ups are harmless: a stream registers under a key only when
   every other one that has registered there has returned, and none is about to remove the key by
   force. Then the last to have registered under a key is always the one whose entry a removal by
   key is meant for. -/
namespace StreamRegistries
open ShardData GuardedRuns OwnedRegistry

/-- The keys under which an instance has registered and not returned, with the instance; and
    those it is about to remove by force, with the receiver it has cancelled. -/
def Instance.occupies (i : Nat) (x : Instance) : List (Slot × Nat) :=
  match x.pc with
  | .removeCancelFunc prev =>
    [(.localReceiverCancelFunc x.role.source, prev), (.localAckChan x.role.source, prev)]
  | .forceRemoveAckChan prev => [(.localAckChan x.role.source, prev)]
  | .registering slot rest => (x.role.registers.filter (· ∉ slot :: rest)).map (·, i)
  | .running => x.role.cleansUp.map (·, i)
  | .cleaning _ _ => x.role.cleansUp.map (·, i)
  | .terminatePrevious | .opening | .returned => []

def Pc.registersNext : Pc → Option Slot
  | .registering slot _ => some slot
  | _ => none

def TakesTurns (s : Streams) : Label → Prop
  | .act i _ => ∀ x ∈ s.instances[i]?, ∀ slot ∈ x.pc.registersNext,
    ∀ j < s.instances.length, j ≠ i → ∀ y ∈ s.instances[j]?, ∀ p ∈ y.occupies j, p.1 ≠ slot
  | _ => True

instance (s : Streams) : ∀ a, Decidable (TakesTurns s a)
  | .act i _ =>
    inferInstanceAs (Decidable (∀ x ∈ s.instances[i]?, ∀ slot ∈ x.pc.registersNext,
      ∀ j < s.instances.length, j ≠ i → ∀ y ∈ s.instances[j]?, ∀ p ∈ y.occupies j, p.1 ≠ slot))
  | .start _ => .isTrue trivial
  | .closeSender _ _ _ => .isTrue trivial

def Slot.crossing : Slot → Bool
  | .sender _ target source => target.clusterID ≠ source.clusterID
  | _ => true

def Instance.uncleaned (x : Instance) : List Slot :=
  match x.pc with
  | .registering slot rest => x.role.registers.filter (· ∉ slot :: rest)
  | .running => x.role.cleansUp
  | .cleaning slot rest => slot :: rest
  | _ => []

/-- What is left to do is the end of what the role does. -/
def Instance.Proper (x : Instance) : Prop :=
  match x.pc with
  | .registering slot rest => slot :: rest <:+ x.role.registers
  | .cleaning slot rest => slot :: rest <:+ x.role.cleansUp
  | _ => True

structure InTurn (s : Streams) : Prop where
  proper : ∀ x ∈ s.instances, x.Proper
  crossing : ∀ p ∈ s.registry.puts, p.1.crossing = true
  /-- The last to have registered under an occupied key is the one that is meant. -/
  meant : ∀ (i : Nat) (x : Instance), s.instances[i]? = some x → ∀ p ∈ x.occupies i,
    ∀ owner, s.registry.puts.lookup p.1 = some owner → owner = p.2
  entries : ∀ (slot : Slot) (j : Nat), s.registry.entries.lookup slot = some j →
    ∃ y, s.instances[j]? = some y ∧ slot ∈ y.uncleaned

section Roles
variable {role : Role} {slot : Slot}

theorem registers_crossing (h : slot ∈ role.registers) : slot.crossing = true := by
  cases role with
  | proxyStreamReceiver source =>
    simp only [Role.registers, List.mem_cons, List.not_mem_nil, or_false] at h
    rcases h with rfl | rfl | rfl <;> rfl
  | intraProxyStreamReceiver source =>
    obtain rfl := List.mem_singleton.mp h
    rfl
  | intraProxyStreamSender peer target source =>
    simp only [Role.registers] at h
    split at h
    · cases h
    · next differ =>
      obtain rfl := List.mem_singleton.mp h
      simpa [Slot.crossing] using differ

theorem registers_nodup (role : Role) : role.registers.Nodup := by
  cases role with
  | proxyStreamReceiver source => simp [Role.registers]
  | intraProxyStreamReceiver source => simp [Role.registers]
  | intraProxyStreamSender peer target source =>
    simp only [Role.registers]
    split <;> simp

theorem cleansUp_of_registers (h : slot ∈ role.registers) : slot ∈ role.cleansUp := by
  cases role with
  | proxyStreamReceiver source => exact h
  | intraProxyStreamReceiver source => exact h
  | intraProxyStreamSender peer target source =>
    simp only [Role.registers] at h
    split at h
    · cases h
    · exact h

theorem registers_of_cleansUp (h : slot ∈ role.cleansUp) (crosses : slot.crossing = true) :
    slot ∈ role.registers := by
  cases role with
  | proxyStreamReceiver source => exact h
  | intraProxyStreamReceiver source => exact h
  | intraProxyStreamSender peer target source =>
    obtain rfl := List.mem_singleton.mp h
    have differ : target.clusterID ≠ source.clusterID := by simpa [Slot.crossing] using crosses
    simp [Role.registers, differ]

/-- Only a proxyStreamReceiver registers a cancel function, and its ack channel before that. -/
theorem cancelFunc_cleansUp {source : ClusterShardID}
    (h : .localReceiverCancelFunc source ∈ role.cleansUp) : role = .proxyStreamReceiver source := by
  cases role with
  | proxyStreamReceiver source' =>
    simp only [Role.cleansUp, List.mem_cons, List.not_mem_nil, or_false, reduceCtorEq, false_or] at h
    rw [Slot.localReceiverCancelFunc.inj h]
  | intraProxyStreamReceiver => simp [Role.cleansUp] at h
  | intraProxyStreamSender => simp [Role.cleansUp] at h

end Roles

section Instances
variable {x : Instance} {i j : Nat} {slot : Slot} {rest : List Slot}

theorem uncleaned_clean (role : Role) (slots : List Slot) :
    Instance.uncleaned ⟨role, .clean slots⟩ = slots := by
  cases slots <;> rfl

theorem proper_clean {role : Role} {slots : List Slot} (h : slots <:+ role.cleansUp) :
    Instance.Proper ⟨role, .clean slots⟩ := by
  cases slots with
  | nil => trivial
  | cons slot rest => exact h

theorem proper_register {role : Role} {slots : List Slot} (h : slots <:+ role.registers) :
    Instance.Proper ⟨role, .register slots⟩ := by
  cases slots with
  | nil => trivial
  | cons slot rest => exact h

theorem occupies_clean {role : Role} {slots : List Slot} {p : Slot × Nat}
    (h : p ∈ Instance.occupies i ⟨role, .clean slots⟩) : p ∈ role.cleansUp.map (·, i) := by
  cases slots with
  | nil => cases h
  | cons slot rest => exact h

/-- After a registration: what is not left to register is occupied, and so is a key that is only
    cleaned up. -/
theorem occupies_register {role : Role} {slots : List Slot} {p : Slot × Nat}
    (h : p ∈ Instance.occupies i ⟨role, .register slots⟩) :
    p.2 = i ∧ (p.1.crossing = true → p.1 ∈ role.registers ∧ p.1 ∉ slots) := by
  cases slots with
  | nil =>
    obtain ⟨slot, member, rfl⟩ := List.mem_map.mp h
    exact ⟨rfl, fun crosses => ⟨registers_of_cleansUp member crosses, by simp⟩⟩
  | cons slot rest =>
    obtain ⟨slot', member, rfl⟩ := List.mem_map.mp h
    obtain ⟨registers, fresh⟩ := List.mem_filter.mp member
    exact ⟨rfl, fun _ => ⟨registers, by simpa using fresh⟩⟩

theorem uncleaned_register {role : Role} {slots : List Slot} (registers : slot ∈ role.registers)
    (done : slot ∉ slots) : slot ∈ Instance.uncleaned ⟨role, .register slots⟩ := by
  cases slots with
  | nil => exact cleansUp_of_registers registers
  | cons next rest => exact List.mem_filter.mpr ⟨registers, by simpa using done⟩

/-- Whoever can be found by its cancel function occupies its ack channel. -/
theorem ackChan_occupied {source : ClusterShardID} (proper : x.Proper)
    (h : .localReceiverCancelFunc source ∈ x.uncleaned) :
    (.localAckChan source, i) ∈ x.occupies i := by
  obtain ⟨role, pc⟩ := x
  have whole : ∀ slots, slots = role.cleansUp → .localReceiverCancelFunc source ∈ slots →
      (Slot.localAckChan source, i) ∈ slots.map (·, i) := by
    rintro _ rfl member
    obtain rfl := cancelFunc_cleansUp member
    simp [Role.cleansUp]
  cases pc with
  | registering slot rest =>
    obtain ⟨registers, done⟩ := List.mem_filter.mp h
    obtain rfl := cancelFunc_cleansUp (cleansUp_of_registers registers)
    have done : .localReceiverCancelFunc source ∉ slot :: rest := by simpa using done
    have ends : slot :: rest <:+ [.localReceiverCancelFunc source, .activeReceiver source] := by
      rcases List.suffix_cons_iff.mp proper with all | ends
      · rw [all] at done
        simp at done
      · exact ends
    refine List.mem_map.mpr ⟨.localAckChan source, List.mem_filter.mpr ⟨?_, ?_⟩, rfl⟩
    · simp [Role.registers]
    · have absent : Slot.localAckChan source ∉ slot :: rest := fun member => by
        simpa using ends.subset member
      simpa using absent
  | running => exact whole _ rfl h
  | cleaning slot rest => exact whole _ rfl (proper.subset h)
  | _ => cases h

theorem removes_occupied {r : Slot × Nat} (proper : x.Proper) (h : x.removes i = some r) :
    r ∈ x.occupies i := by
  obtain ⟨role, pc⟩ := x
  cases pc with
  | removeCancelFunc prev =>
    obtain rfl := Option.some.inj h
    exact List.mem_cons_self
  | forceRemoveAckChan prev =>
    obtain rfl := Option.some.inj h
    exact List.mem_cons_self
  | cleaning slot rest =>
    simp only [Instance.removes, Option.ite_none_left_eq_some] at h
    obtain rfl := Option.some.inj h.2
    exact List.mem_map.mpr ⟨slot, proper.subset List.mem_cons_self, rfl⟩
  | _ => cases h

end Instances

theorem inTurn_last {s : Streams} (turn : InTurn s) (a : Label) : LastToRegister s a := by
  cases a with
  | act i opened =>
    intro x here r removes owner last
    have occupied := removes_occupied (turn.proper x (List.mem_of_getElem? here)) removes
    exact .inl (turn.meant i x here r occupied owner last)
  | start | closeSender => trivial

section Steps
variable {s t : Streams} {i : Nat} {x : Instance} {opened : Bool}

/- A key that RegisterSender does not take has never been registered. -/
theorem crossing_of_lookup (turn : InTurn s) {slot : Slot} {owner : Nat}
    (h : s.registry.puts.lookup slot = some owner) : slot.crossing = true := by
  obtain ⟨before, after, puts, -⟩ := List.lookup_eq_some_iff.mp h
  exact turn.crossing (slot, owner) (by simp [puts])

/- A step of one instance that puts nothing: the instance is as proper, occupies what was meant
   for it, and has not forgotten any entry. -/
theorem goto_inTurn {pc' : Pc} {registry : Registry Slot Nat} {cancelled : List Nat}
    {cleanups : List Cleanup} (turn : InTurn s) (here : s.instances[i]? = some x)
    (puts : registry.puts = s.registry.puts) (proper : Instance.Proper ⟨x.role, pc'⟩)
    (meant : ∀ p ∈ Instance.occupies i ⟨x.role, pc'⟩,
      ∀ owner, s.registry.puts.lookup p.1 = some owner → owner = p.2)
    (kept : ∀ slot j, registry.entries.lookup slot = some j →
      s.registry.entries.lookup slot = some j ∧
        (j = i → slot ∈ x.uncleaned → slot ∈ Instance.uncleaned ⟨x.role, pc'⟩)) :
    InTurn ⟨s.instances.set i ⟨x.role, pc'⟩, registry, cancelled, cleanups⟩ where
  proper := by
    intro y member
    rcases List.mem_or_eq_of_mem_set member with old | rfl
    · exact turn.proper y old
    · exact proper
  crossing := puts ▸ turn.crossing
  meant := by
    intro j y there p occupied owner last
    rw [puts] at last
    by_cases same : j = i
    · subst same
      have inside := (List.getElem?_eq_some_iff.mp here).1
      rw [List.getElem?_set_self inside] at there
      obtain rfl := Option.some.inj there
      exact meant p occupied owner last
    · rw [List.getElem?_set_ne (Ne.symm same)] at there
      exact turn.meant j y there p occupied owner last
  entries := by
    intro slot j found
    obtain ⟨before, goesOn⟩ := kept slot j found
    obtain ⟨y, there, uncleaned⟩ := turn.entries slot j before
    by_cases same : j = i
    · subst same
      obtain rfl := Option.some.inj (here.symm.trans there)
      have inside := (List.getElem?_eq_some_iff.mp here).1
      exact ⟨_, List.getElem?_set_self inside, goesOn rfl uncleaned⟩
    · exact ⟨y, (List.getElem?_set_ne (Ne.symm same)).trans there, uncleaned⟩

theorem lookup_of_cleanUp {slot slot' : Slot} {j : Nat}
    (h : (cleanUp s.registry i slot).entries.lookup slot' = some j) :
    (slot', j) ≠ (slot, i) ∧ s.registry.entries.lookup slot' = some j := by
  unfold cleanUp at h
  split at h
  · exact lookup_of_removeOwn h
  · obtain ⟨differ, before⟩ := lookup_of_remove h
    exact ⟨fun same => differ (congrArg Prod.fst same), before⟩

theorem register_inTurn {slot : Slot} {rest : List Slot} (turn : InTurn s)
    (here : s.instances[i]? = some x) (turns : TakesTurns s (.act i opened))
    (pc : x.pc = .registering slot rest) :
    InTurn { s.goto i x.role (.register rest) with registry := put s.registry slot i } := by
  have inside := (List.getElem?_eq_some_iff.mp here).1
  have proper : slot :: rest <:+ x.role.registers := by
    simpa only [Instance.Proper, pc] using turn.proper x (List.mem_of_getElem? here)
  have registers : slot ∈ x.role.registers := proper.subset List.mem_cons_self
  have fresh : slot ∉ rest := (List.nodup_cons.mp (proper.sublist.nodup (registers_nodup _))).1
  constructor
  case proper =>
    intro y member
    rcases List.mem_or_eq_of_mem_set member with old | rfl
    · exact turn.proper y old
    · exact proper_register ((List.suffix_cons slot rest).trans proper)
  case crossing =>
    intro p member
    rcases List.mem_cons.mp member with rfl | old
    · exact registers_crossing registers
    · exact turn.crossing p old
  case meant =>
    intro j y there p occupied owner last
    by_cases same : j = i
    · subst same
      obtain rfl := Option.some.inj ((List.getElem?_set_self inside).symm.trans there)
      obtain ⟨own, registered⟩ := occupies_register occupied
      rw [own]
      by_cases key : p.1 = slot
      · rw [key] at last
        exact (Option.some.inj (latest_put_same.symm.trans last)).symm
      · have last := (latest_put_ne key).symm.trans last
        obtain ⟨member, done⟩ := registered (crossing_of_lookup turn last)
        have before : (p.1, j) ∈ x.occupies j := by
          simp only [Instance.occupies, pc]
          refine List.mem_map.mpr ⟨p.1, List.mem_filter.mpr ⟨member, ?_⟩, rfl⟩
          simp [key, done]
        exact turn.meant j x here _ before owner last
    · have there := (List.getElem?_set_ne (Ne.symm same)).symm.trans there
      have below := (List.getElem?_eq_some_iff.mp there).1
      have key : p.1 ≠ slot :=
        turns x here slot (by simp [pc, Pc.registersNext]) j below same y there p occupied
      exact turn.meant j y there p occupied owner ((latest_put_ne key).symm.trans last)
  case entries =>
    intro slot' j found
    by_cases key : slot' = slot
    · subst key
      obtain rfl := Option.some.inj (lookup_put_same.symm.trans found)
      exact ⟨_, List.getElem?_set_self inside, uncleaned_register registers fresh⟩
    · obtain ⟨y, there, uncleaned⟩ := turn.entries slot' j ((lookup_put_ne key).symm.trans found)
      by_cases same : j = i
      · subst same
        obtain rfl := Option.some.inj (here.symm.trans there)
        simp only [Instance.uncleaned, pc] at uncleaned
        obtain ⟨member, done⟩ := List.mem_filter.mp uncleaned
        have done : slot' ∉ slot :: rest := by simpa using done
        exact ⟨_, List.getElem?_set_self inside,
          uncleaned_register member fun later => done (List.mem_cons_of_mem _ later)⟩
      · exact ⟨y, (List.getElem?_set_ne (Ne.symm same)).trans there, uncleaned⟩

theorem acted_inTurn (turn : InTurn s) (here : s.instances[i]? = some x)
    (turns : TakesTurns s (.act i opened)) (h : Acted s i x t) : InTurn t := by
  have member := List.mem_of_getElem? here
  have meant := turn.meant i x here
  have fresh : x.uncleaned = [] → ∀ pc' (slot : Slot) (j : Nat),
      s.registry.entries.lookup slot = some j → s.registry.entries.lookup slot = some j ∧
        (j = i → slot ∈ x.uncleaned → slot ∈ Instance.uncleaned ⟨x.role, pc'⟩) := by
    intro none pc' slot j found
    refine ⟨found, fun _ uncleaned => ?_⟩
    rw [none] at uncleaned
    cases uncleaned
  cases h with
  | noPrevious pc =>
    refine goto_inTurn turn here rfl trivial (by rintro _ ⟨⟩) (fresh ?_ _)
    simp [Instance.uncleaned, pc]
  | @terminate prev pc found =>
    refine goto_inTurn turn here rfl trivial ?_ (fresh ?_ _)
    · obtain ⟨y, there, uncleaned⟩ := turn.entries _ _ found
      have ackChan := ackChan_occupied (i := prev) (turn.proper y (List.mem_of_getElem? there)) uncleaned
      intro p occupied owner last
      simp only [Instance.occupies, List.mem_cons, List.not_mem_nil, or_false] at occupied
      rcases occupied with rfl | rfl
      · exact Option.some.inj (last.symm.trans (s.registry.latest _ _ found))
      · exact turn.meant prev y there _ ackChan owner last
    · simp [Instance.uncleaned, pc]
  | @removeCancelFunc prev pc =>
    have none : x.uncleaned = [] := by simp [Instance.uncleaned, pc]
    refine goto_inTurn turn here rfl trivial ?_ ?_
    · intro p occupied
      refine meant p ?_
      simp only [Instance.occupies, pc]
      exact List.mem_cons_of_mem _ occupied
    · intro slot j found
      exact fresh none _ slot j (lookup_of_remove found).2
  | @forceRemoveAckChan prev pc =>
    have none : x.uncleaned = [] := by simp [Instance.uncleaned, pc]
    refine goto_inTurn turn here rfl trivial (by rintro _ ⟨⟩) ?_
    intro slot j found
    exact fresh none _ slot j (lookup_of_remove found).2
  | opened pc =>
    refine goto_inTurn turn here rfl (proper_register List.suffix_rfl) ?_ (fresh ?_ _)
    · -- nothing is registered yet, and a key that is never registered is nobody's
      intro p occupied owner last
      obtain ⟨-, registered⟩ := occupies_register occupied
      obtain ⟨registers, left⟩ := registered (crossing_of_lookup turn last)
      exact absurd registers left
    · simp [Instance.uncleaned, pc]
  | openFailed pc =>
    refine goto_inTurn turn here rfl trivial (by rintro _ ⟨⟩) (fresh ?_ _)
    simp [Instance.uncleaned, pc]
  | register pc => exact register_inTurn turn here turns pc
  | stop pc =>
    refine goto_inTurn turn here rfl (proper_clean List.suffix_rfl) ?_ ?_
    · intro p occupied
      refine meant p ?_
      simp only [Instance.occupies, pc]
      exact occupies_clean occupied
    · intro slot j found
      refine ⟨found, fun _ uncleaned => ?_⟩
      rw [uncleaned_clean]
      simpa only [Instance.uncleaned, pc] using uncleaned
  | @clean slot rest pc =>
    have proper : slot :: rest <:+ x.role.cleansUp := by
      simpa only [Instance.Proper, pc] using turn.proper x member
    refine goto_inTurn turn here (cleanUp_puts _ _ _)
      (proper_clean ((List.suffix_cons slot rest).trans proper)) ?_ ?_
    · intro p occupied
      refine meant p ?_
      simp only [Instance.occupies, pc]
      exact occupies_clean occupied
    · intro slot' j found
      obtain ⟨other, before⟩ := lookup_of_cleanUp found
      refine ⟨before, ?_⟩
      rintro rfl uncleaned
      rw [uncleaned_clean]
      simp only [Instance.uncleaned, pc] at uncleaned
      refine (List.mem_cons.mp uncleaned).resolve_left ?_
      rintro rfl
      exact other rfl

theorem start_inTurn (turn : InTurn s) (role : Role) :
    InTurn { s with instances := s.instances ++ [⟨role, role.firstStep⟩] } where
  proper := by
    intro y member
    rcases List.mem_append.mp member with old | new
    · exact turn.proper y old
    · rw [List.mem_singleton.mp new]
      cases role with
      | intraProxyStreamSender peer target source => exact proper_register List.suffix_rfl
      | _ => trivial
  crossing := turn.crossing
  meant := by
    intro i x there p occupied owner last
    by_cases inside : i < s.instances.length
    · rw [List.getElem?_append_left inside] at there
      exact turn.meant i x there p occupied owner last
    · rw [List.getElem?_append_right (Nat.le_of_not_lt inside)] at there
      rw [List.mem_singleton.mp (List.mem_of_getElem? there)] at occupied
      cases role with
      | intraProxyStreamSender peer target source =>
        obtain ⟨-, registered⟩ := occupies_register occupied
        obtain ⟨registers, left⟩ := registered (crossing_of_lookup turn last)
        exact absurd registers left
      | _ => cases occupied
  entries := by
    intro slot j found
    obtain ⟨y, there, uncleaned⟩ := turn.entries slot j found
    have inside := (List.getElem?_eq_some_iff.mp there).1
    exact ⟨y, (List.getElem?_append_left inside).trans there, uncleaned⟩

theorem step_inTurn {a : Label} (turn : InTurn s) (turns : TakesTurns s a)
    (h : step s a = some t) : InTurn t := by
  cases a with
  | start role =>
    cases h
    exact start_inTurn turn role
  | act i opened =>
    simp only [step] at h
    split at h
    · cases h
    · next x here => exact acted_inTurn turn here turns (act_inv h)
  | closeSender peer target source =>
    cases h
    exact ⟨turn.proper, turn.crossing, turn.meant, fun slot j found =>
      turn.entries slot j (lookup_of_remove found).2⟩

end Steps

theorem initial_inTurn : InTurn initial := by
  constructor <;> simp [initial, empty]

theorem cleanup_removes_only_own (labels : List Label) (s : Streams)
    (h : run step initial labels = some s) (turns : Meets step TakesTurns initial labels) :
    (∀ c ∈ s.cleanups, c.owner = c.cleaner ∨ c.ownerLive = false) ∧
      ∀ slot i, (slot, i) ∈ s.registry.puts → s.live i = true → slot.ofSender = false →
        Found s slot i ∨ Replaced s slot i := by
  have kept : ∀ u a v, (InTurn u ∧ Reachable u) → TakesTurns u a → step u a = some v →
      InTurn v ∧ Reachable v := by
    rintro u a v ⟨turn, reach⟩ takesTurns hs
    exact ⟨step_inTurn turn takesTurns hs, step_reachable reach (inTurn_last turn a) hs⟩
  have reach : Reachable s :=
    (run_invariant kept ⟨initial_inTurn, initial_reachable⟩ turns h).2
  exact ⟨reach.own, reach.present⟩

/-- A second receiver for the source starts, cancels the first one and registers before the
    first one cleans up. -/
def overlapRun : List Label :=
  [.start (.proxyStreamReceiver ⟨1, 1⟩), .act 0 true, .act 0 true, .act 0 true, .act 0 true,
    .act 0 true, .start (.proxyStreamReceiver ⟨1, 1⟩), .act 1 true, .act 1 true, .act 1 true,
    .act 1 true, .act 1 true, .act 1 true, .act 1 true, .act 0 true, .act 0 true, .act 0 true,
    .act 0 true]

theorem cleanup_removes_new_receiver :
    ∃ s, run step initial overlapRun = some s ∧
      s.cleanups = [⟨0, 1, true⟩, ⟨0, 1, true⟩] ∧ s.live 1 = true ∧
      s.registry.entries.lookup (.localAckChan ⟨1, 1⟩) = some 1 ∧
      s.registry.entries.lookup (.localReceiverCancelFunc ⟨1, 1⟩) = none ∧
      s.registry.entries.lookup (.activeReceiver ⟨1, 1⟩) = none :=
  ⟨_, rfl, rfl, rfl, rfl, rfl, rfl⟩

def turnRun : List Label :=
  [.start (.proxyStreamReceiver ⟨1, 1⟩), .act 0 true, .act 0 true, .act 0 true, .act 0 true,
    .act 0 true, .start (.proxyStreamReceiver ⟨1, 1⟩), .act 1 true, .act 1 true, .act 1 true,
    .act 0 true, .act 0 true, .act 0 true, .act 0 true, .act 1 true, .act 1 true, .act 1 true,
    .act 1 true]

theorem cleanup_removes_only_own_in_turn :
    ∃ s, run step initial turnRun = some s ∧ Found s (.activeReceiver ⟨1, 1⟩) 1 := by
  have turns : Meets step TakesTurns initial turnRun := by decide +kernel
  refine ⟨_, rfl, ((cleanup_removes_only_own turnRun _ rfl turns).2 (.activeReceiver ⟨1, 1⟩) 1
    (by decide +kernel) rfl rfl).resolve_right ?_⟩
  unfold Replaced
  decide +kernel

end StreamRegistries
