import S2SProxy.Routing

/- The steps of the routing model as relations, one constructor for each thing a step can
   do. Proofs take a step apart through them and do not unfold the step functions. -/
namespace Routing
open ShardData

inductive Delivered (cfg : Config) (s : Plane) (node : Node) (target : ClusterShardID)
    (m : WorkflowReplicationMessages) : DeliveryPc → DeliverResult → Effect → Prop
  | found (c : Nat) (entry : s.remoteSendChannels.lookup (node, target) = some c) :
      Delivered cfg s node target m .lookup (.running (.sendLocal c)) .silent
  | absent : Delivered cfg s node target m .lookup (.running .forward) .silent
  | put (c : Nat) (accepts : (s.chan c).accepts = true) :
      Delivered cfg s node target m (.sendLocal c) (.returned true) (.put c ⟨cfg.source, m⟩)
  | closed (c : Nat) : Delivered cfg s node target m (.sendLocal c) (.running .forward) .silent
  | stream (i : Nat) (ready : usable s i node target = true) :
      Delivered cfg s node target m .forward (.returned true) (.enqueue i m)
  | fail : Delivered cfg s node target m .forward (.returned false) .silent

theorem deliverStep_inv {cfg : Config} {s : Plane} {node : Node} {target : ClusterShardID}
    {m : WorkflowReplicationMessages} {pc : DeliveryPc} {l : DeliverLabel} {r : DeliverResult × Effect}
    (h : deliverStep cfg s node target m pc l = some r) :
    Delivered cfg s node target m pc r.1 r.2 := by
  unfold deliverStep at h
  split at h
  · split at h
    · next c entry => cases h; exact .found c entry
    · cases h; exact .absent
  · split at h
    · next c accepts => cases h; exact .put _ accepts
    · cases h
  · split at h
    · cases h; exact .closed _
    · cases h
  · split at h
    · next ready => cases h; exact .stream _ ready
    · cases h
  · cases h; exact .fail
  · cases h

def afterDelivery (s : Plane) (groups : TaskGroups) (priority : Int)
    (loop : RetryLoop ClusterShardID) : DeliverResult → Plane
  | .running pc => { s with phase := .delivering groups priority loop pc }
  | .returned delivered =>
    { s with phase := .delivering groups priority (loop.settle delivered) .lookup }

def afterRemoteBroadcast (s : Plane) (m : WorkflowReplicationMessages) (target : ClusterShardID)
    (rest : List ClusterShardID) : DeliverResult → Plane
  | .running pc => { s with phase := .broadcastRemote m (target :: rest) pc }
  | .returned _ => { s with phase := .broadcastRemote m rest .lookup }

def afterNotifierDelivery (s : Plane) (k : Nat) (n : Notifier) (m : WorkflowReplicationMessages) :
    DeliverResult → Plane
  | .running pc => withNotifier s k n (.deliver m pc)
  | .returned _ => endNotifier s k

inductive ReceiverActed (cfg : Config) (s : Plane) : Label → Plane → Effect → Prop
  | recvEmptyBatch (m : WorkflowReplicationMessages) (phase : s.phase = .idle)
      (empty : m.replicationTasks = []) :
      ReceiverActed cfg s (.recvBatch m) (recvEmptyBatch s m) .silent
  | recvTasks (m : WorkflowReplicationMessages) (phase : s.phase = .idle)
      (tasks : m.replicationTasks ≠ []) :
      ReceiverActed cfg s (.recvBatch m) (recvTasks cfg s m) .silent
  | beginPass {order : List ClusterShardID} {groups : TaskGroups} {priority : Int}
      {loop loop' : RetryLoop ClusterShardID} {pc : DeliveryPc}
      (phase : s.phase = .delivering groups priority loop pc)
      (begun : loop.beginPass order = some loop') :
      ReceiverActed cfg s (.beginPass order)
        { s with phase := .delivering groups priority loop' pc } .silent
  | deliver {l : DeliverLabel} {groups : TaskGroups} {priority : Int}
      {loop : RetryLoop ClusterShardID} {pc : DeliveryPc} {target : ClusterShardID}
      {r : DeliverResult} {e : Effect} (phase : s.phase = .delivering groups priority loop pc)
      (current : loop.current = some target)
      (done : Delivered cfg s cfg.home target (groupMessage groups priority target) pc r e) :
      ReceiverActed cfg s (.deliver l) (afterDelivery s groups priority loop r) e
  | deliverRemote {l : DeliverLabel} {m : WorkflowReplicationMessages} {target : ClusterShardID}
      {rest : List ClusterShardID} {pc : DeliveryPc} {r : DeliverResult} {e : Effect}
      (phase : s.phase = .broadcastRemote m (target :: rest) pc)
      (done : Delivered cfg s cfg.home target m pc r e) :
      ReceiverActed cfg s (.deliver l) (afterRemoteBroadcast s m target rest r) e
  | snapshotChans {order : List Nat} {m : WorkflowReplicationMessages}
      (phase : s.phase = .announcing m) :
      ReceiverActed cfg s (.snapshotChans order) { s with phase := .broadcastLocal m order } .silent
  | broadcastSend {m : WorkflowReplicationMessages} {c : Nat} {rest : List Nat}
      (phase : s.phase = .broadcastLocal m (c :: rest)) (accepts : (s.chan c).accepts = true) :
      ReceiverActed cfg s .broadcastSend { s with phase := .broadcastLocal m rest }
        (.put c ⟨cfg.source, m⟩)
  | broadcastSkip {m : WorkflowReplicationMessages} {c : Nat} {rest : List Nat}
      (phase : s.phase = .broadcastLocal m (c :: rest)) :
      ReceiverActed cfg s .broadcastSend { s with phase := .broadcastLocal m rest } .silent
  | remoteShards {shards : List ClusterShardID} {m : WorkflowReplicationMessages}
      (phase : s.phase = .broadcastLocal m []) :
      ReceiverActed cfg s (.remoteShards shards)
        { s with phase := .broadcastRemote m shards .lookup } .silent
  | finishDelivery {groups : TaskGroups} {priority : Int} {loop : RetryLoop ClusterShardID}
      {pc : DeliveryPc} (phase : s.phase = .delivering groups priority loop pc)
      (done : loop.done = true) :
      ReceiverActed cfg s .finishBatch { s with phase := .idle } .silent
  | finishBroadcast {m : WorkflowReplicationMessages} {pc : DeliveryPc}
      (phase : s.phase = .broadcastRemote m [] pc) :
      ReceiverActed cfg s .finishBatch { s with phase := .idle } .silent

theorem receiverStep_inv {cfg : Config} {s : Plane} {a : Label} {r : Plane × Effect}
    (h : receiverStep cfg s a = some r) : ReceiverActed cfg s a r.1 r.2 := by
  cases a with
  | recvBatch m =>
    simp only [receiverStep] at h
    split at h
    · next phase =>
      cases h
      unfold recvBatch
      split
      · next empty => exact .recvEmptyBatch m phase empty
      · next tasks => exact .recvTasks m phase tasks
    · cases h
  | beginPass order =>
    simp only [receiverStep] at h
    split at h
    · next phase =>
      obtain ⟨loop', begun, rfl⟩ := Option.map_eq_some_iff.mp h
      exact .beginPass phase begun
    · cases h
  | deliver l =>
    simp only [receiverStep, receiverDeliver] at h
    split at h
    · next phase =>
      obtain ⟨target, current, h⟩ := Option.bind_eq_some_iff.mp h
      obtain ⟨⟨result, e⟩, stepped, rfl⟩ := Option.map_eq_some_iff.mp h
      have done := deliverStep_inv stepped
      cases result <;> exact .deliver phase current done
    · next phase =>
      obtain ⟨⟨result, e⟩, stepped, rfl⟩ := Option.map_eq_some_iff.mp h
      have done := deliverStep_inv stepped
      cases result <;> exact .deliverRemote phase done
    · cases h
  | snapshotChans order =>
    simp only [receiverStep] at h
    split at h
    · next phase =>
      simp only [Option.ite_none_right_eq_some, Option.some.injEq] at h
      exact h.2 ▸ .snapshotChans phase
    · cases h
  | broadcastSend =>
    simp only [receiverStep] at h
    split at h
    · next phase =>
      cases h
      split
      · next accepts => exact .broadcastSend phase accepts
      · exact .broadcastSkip phase
    · cases h
  | remoteShards shards =>
    simp only [receiverStep] at h
    split at h
    · next phase =>
      simp only [Option.ite_none_right_eq_some, Option.some.injEq] at h
      exact h.2 ▸ .remoteShards phase
    · cases h
  | finishBatch =>
    simp only [receiverStep] at h
    split at h
    · next phase =>
      simp only [Option.ite_none_right_eq_some, Option.some.injEq] at h
      exact h.2 ▸ .finishDelivery phase h.1
    · next phase => cases h; exact .finishBroadcast phase
    · cases h
  | _ => cases h

inductive NotifierActed (cfg : Config) (s : Plane) (k : Nat) (n : Notifier) :
    Plane → Effect → Prop
  | idle {receiver : ActiveReceiver} (pc : n.pc = .read receiver) :
      NotifierActed cfg s k n (endNotifier s k) .silent
  | read {receiver : ActiveReceiver} {m : WorkflowReplicationMessages} (pc : n.pc = .read receiver)
      (last : lastWatermarkOf s receiver = some m) :
      NotifierActed cfg s k n (withNotifier s k n (.lookup m)) .silent
  | found {m : WorkflowReplicationMessages} {c : Nat} (pc : n.pc = .lookup m)
      (entry : s.remoteSendChannels.lookup (n.node, n.target) = some c) :
      NotifierActed cfg s k n (withNotifier s k n (.sendLocal m c)) .silent
  | absent {m : WorkflowReplicationMessages} (pc : n.pc = .lookup m)
      (entry : s.remoteSendChannels.lookup (n.node, n.target) = none) :
      NotifierActed cfg s k n (withNotifier s k n (.deliver m .lookup)) .silent
  | panic {m : WorkflowReplicationMessages} {c : Nat} (pc : n.pc = .sendLocal m c)
      (closed : (s.chan c).closed = true) :
      NotifierActed cfg s k n { endNotifier s k with panics := s.panics ++ [c] } .silent
  | put {m : WorkflowReplicationMessages} {c : Nat} (pc : n.pc = .sendLocal m c)
      (accepts : (s.chan c).accepts = true) :
      NotifierActed cfg s k n (endNotifier s k) (.put c ⟨cfg.source, m⟩)
  | full {m : WorkflowReplicationMessages} {c : Nat} (pc : n.pc = .sendLocal m c)
      (opened : (s.chan c).closed = false) :
      NotifierActed cfg s k n (endNotifier s k) .silent
  | deliver {m : WorkflowReplicationMessages} {dpc : DeliveryPc} {r : DeliverResult} {e : Effect}
      (pc : n.pc = .deliver m dpc) (done : Delivered cfg s n.node n.target m dpc r e) :
      NotifierActed cfg s k n (afterNotifierDelivery s k n m r) e

theorem notifierStep_inv {cfg : Config} {s : Plane} {k : Nat} {n : Notifier} {l : NotifierLabel}
    {r : Plane × Effect} (h : notifierStep cfg s k n n.pc l = some r) :
    NotifierActed cfg s k n r.1 r.2 := by
  cases pc : n.pc with
  | read receiver =>
    cases l with
    | read =>
      simp only [pc, notifierStep] at h
      split at h
      · cases h
        exact .idle pc
      · next m last =>
        split at h
        · cases h
          exact .idle pc
        · cases h
          exact .read pc last
    | _ => simp [pc, notifierStep] at h
  | lookup m =>
    cases l with
    | lookup =>
      simp only [pc, notifierStep] at h
      split at h
      · next c entry =>
        cases h
        exact .found pc entry
      · next entry =>
        cases h
        exact .absent pc entry
    | _ => simp [pc, notifierStep] at h
  | sendLocal m c =>
    cases l with
    | send =>
      simp only [pc, notifierStep] at h
      split at h
      · next closed =>
        cases h
        exact .panic pc closed
      · next opened =>
        split at h
        · next accepts =>
          cases h
          exact .put pc accepts
        · cases h
          exact .full pc (Bool.eq_false_of_not_eq_true opened)
    | _ => simp [pc, notifierStep] at h
  | deliver m dpc =>
    cases l with
    | deliver l =>
      simp only [pc, notifierStep] at h
      obtain ⟨⟨result, e⟩, stepped, rfl⟩ := Option.map_eq_some_iff.mp h
      have done := deliverStep_inv stepped
      cases result <;> exact .deliver pc done
    | _ => simp [pc, notifierStep] at h

inductive StreamActed (cfg : Config) (s : Plane) : Label → Plane → Effect → Prop
  | openStream (origin peer : Node) (target : ClusterShardID) :
      StreamActed cfg s (.openStream origin peer target) (openStream s origin peer target) .silent
  | registerStream (i : Nat) (inside : i < s.streamCount) :
      StreamActed cfg s (.registerStream i) (withStream s i fun st => { st with registered := true })
        .silent
  | unregisterStream (i : Nat) (inside : i < s.streamCount) :
      StreamActed cfg s (.unregisterStream i)
        (withStream s i fun st => { st with registered := false }) .silent
  | greetRead (i : Nat) (inside : i < s.streamCount) :
      StreamActed cfg s (.greetRead i)
        (withStream s i fun st =>
          { st with greeted := true, greeting := pendingGreeting s st.origin }) .silent
  | greetSend (i : Nat) (m : WorkflowReplicationMessages) (inside : i < s.streamCount)
      (greeting : (s.stream i).greeting = some m) :
      StreamActed cfg s (.greetSend i) (withStream s i fun st => { st with greeting := none })
        (.enqueue i m)
  | recv (i : Nat) (m : WorkflowReplicationMessages) (rest : List WorkflowReplicationMessages)
      (inside : i < s.streamCount) (wire : (s.stream i).wire = m :: rest)
      (free : (s.stream i).holding = none) :
      StreamActed cfg s (.intraRecv i) (withStream s i fun st => holdMessage st m rest) .silent
  | lookup (i : Nat) (inside : i < s.streamCount) :
      StreamActed cfg s (.intraLookup i)
        (withStream s i fun st =>
          { st with sendChan := s.remoteSendChannels.lookup (st.peer, st.target) }) .silent
  | put (i : Nat) (m : WorkflowReplicationMessages) (c : Nat) (inside : i < s.streamCount)
      (holding : (s.stream i).holding = some m) (sendChan : (s.stream i).sendChan = some c)
      (accepts : (s.chan c).accepts = true) :
      StreamActed cfg s (.intraPut i)
        (withStream s i fun st => { st with holding := none, sendChan := none })
        (.put c ⟨cfg.source, m⟩)
  | closed (i : Nat) (inside : i < s.streamCount) :
      StreamActed cfg s (.intraClosed i) (withStream s i fun st => { st with sendChan := none })
        .silent
  | closeStream (i : Nat) (inside : i < s.streamCount) :
      StreamActed cfg s (.closeStream i)
        { withStream s i fun st => { st with closed := true } with
          activeReceivers := s.activeReceivers.erase (s.stream i).peer } .silent

theorem streamStep_inv {cfg : Config} {s : Plane} {a : Label} {r : Plane × Effect}
    (h : streamStep cfg s a = some r) : StreamActed cfg s a r.1 r.2 := by
  cases a with
  | openStream origin peer target =>
    simp only [streamStep, Option.ite_none_right_eq_some, Option.some.injEq] at h
    exact h.2 ▸ .openStream origin peer target
  | registerStream i =>
    simp only [streamStep, Option.ite_none_right_eq_some, Option.some.injEq] at h
    exact h.2 ▸ .registerStream i h.1
  | unregisterStream i =>
    simp only [streamStep, Option.ite_none_right_eq_some, Option.some.injEq] at h
    exact h.2 ▸ .unregisterStream i h.1
  | greetRead i =>
    simp only [streamStep, Option.ite_none_right_eq_some, Option.some.injEq] at h
    exact h.2 ▸ .greetRead i h.1.1
  | greetSend i =>
    simp only [streamStep, Option.ite_none_right_eq_some] at h
    obtain ⟨m, greeting, rfl⟩ := Option.map_eq_some_iff.mp h.2
    exact .greetSend i m h.1 greeting
  | intraRecv i =>
    simp only [streamStep] at h
    split at h
    · next m rest wire free =>
      simp only [Option.ite_none_right_eq_some, Option.some.injEq] at h
      exact h.2 ▸ .recv i m rest h.1.1 wire free
    · cases h
  | intraLookup i =>
    simp only [streamStep, Option.ite_none_right_eq_some, Option.some.injEq] at h
    exact h.2 ▸ .lookup i h.1.1
  | intraPut i =>
    simp only [streamStep] at h
    split at h
    · next m c holding sendChan =>
      simp only [Option.ite_none_right_eq_some, Option.some.injEq] at h
      exact h.2 ▸ .put i m c h.1.1 holding sendChan h.1.2
    · cases h
  | intraClosed i =>
    simp only [streamStep] at h
    split at h
    · simp only [Option.ite_none_right_eq_some, Option.some.injEq] at h
      exact h.2 ▸ .closed i h.1.1
    · cases h
  | closeStream i =>
    simp only [streamStep, Option.ite_none_right_eq_some, Option.some.injEq] at h
    exact h.2 ▸ .closeStream i h.1
  | _ => cases h

inductive Acted (cfg : Config) (s : Plane) : Label → Plane → Effect → Prop
  | startSender (node : Node) (target : ClusterShardID) :
      Acted cfg s (.startSender node target) (startSender s node target) .silent
  | closeChan (c : Nat) (inside : c < s.chanCount) :
      Acted cfg s (.closeChan c) (withChan s c fun ch => { ch with closed := true }) .silent
  | removeChan (c : Nat) : Acted cfg s (.removeChan c) (removeChan s c) .silent
  | take (c : Nat) (waiting : (s.chan c).taken < (s.chan c).puts.length) :
      Acted cfg s (.take c) (withChan s c fun ch => { ch with taken := ch.taken + 1 }) .silent
  | foreignPut (c : Nat) (m : RoutedMessage) (foreign : m.sourceShard ≠ cfg.source)
      (accepts : (s.chan c).accepts = true) : Acted cfg s (.foreignPut c m) s (.put c m)
  | notify (node : Node) (target : ClusterShardID) :
      Acted cfg s (.notify node target) (spawnNotifier cfg s node target) .silent
  | notifier {k : Nat} {n : Notifier} {l : NotifierLabel} {t : Plane} {e : Effect}
      (thread : s.notifiers[k]? = some n) (acted : NotifierActed cfg s k n t e) :
      Acted cfg s (.notifier k l) t e
  | receiver {a : Label} {t : Plane} {e : Effect} (acted : ReceiverActed cfg s a t e) :
      Acted cfg s a t e
  | stream {a : Label} {t : Plane} {e : Effect} (acted : StreamActed cfg s a t e) : Acted cfg s a t e

theorem act_inv {cfg : Config} {s : Plane} {a : Label} {r : Plane × Effect}
    (h : act cfg s a = some r) : Acted cfg s a r.1 r.2 := by
  unfold act at h
  split at h
  · cases h
    exact .startSender _ _
  · simp only [Option.ite_none_right_eq_some, Option.some.injEq] at h
    exact h.2 ▸ .closeChan _ h.1
  · simp only [Option.ite_none_right_eq_some, Option.some.injEq] at h
    exact h.2 ▸ .removeChan _
  · simp only [Option.ite_none_right_eq_some, Option.some.injEq] at h
    exact h.2 ▸ .take _ h.1
  · simp only [Option.ite_none_right_eq_some, Option.some.injEq] at h
    exact h.2 ▸ .foreignPut _ _ h.1.1 h.1.2
  · simp only [Option.ite_none_right_eq_some, Option.some.injEq] at h
    exact h.2 ▸ .notify _ _
  · split at h
    · cases h
    · next n thread => exact .notifier thread (notifierStep_inv h)
  · rcases Option.or_eq_some_iff.mp h with left | right
    · exact .receiver (receiverStep_inv left)
    · exact .stream (streamStep_inv right.2)

theorem step_inv {cfg : Config} {s t : Plane} {a : Label} (h : step cfg s a = some t) :
    ∃ s' e, act cfg s a = some (s', e) ∧ Acted cfg s a s' e ∧ t = apply s' e := by
  obtain ⟨⟨s', e⟩, acted, rfl⟩ := Option.map_eq_some_iff.mp h
  exact ⟨s', e, acted, act_inv acted, rfl⟩

end Routing
