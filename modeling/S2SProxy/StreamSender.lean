import S2SProxy.Lib.GuardedRuns
import S2SProxy.Lib.RetryLoop
import S2SProxy.RingBuffer

/- One proxyStreamSender: the goroutine that renumbers routed messages and sends them to the
   target, and the goroutine that receives the target's acknowledgements and forwards them to
   the source shards. A step is one section under the sender's mutex, with the thread-local
   code next to it; the steps of the two goroutines interleave freely. The send and receive
   calls and DeliverAckToShardOwner succeed or fail as the step's label says. -/
namespace StreamSender
open ShardData ProxyIDRing

/-- Where recvAck stands. While it forwards, acks holds what is to be delivered: the
    aggregation of the ring when fresh, otherwise the previous acks. -/
inductive AckPhase where
  | idle
  | forwarding (fresh : Bool) (acks : ShardMap) (pendingDiscard : Nat)
      (loop : RetryLoop ClusterShardID)
  | stopped

structure Sender where
  nextProxyTaskID : Int
  idRing : ProxyIDRingBuffer
  prevAckBySource : ShardMap
  lastSentWatermark : Int
  /-- The renumbered message between the locked section and its Send. -/
  outgoing : Option WorkflowReplicationMessages
  ackPhase : AckPhase

def allocate (s : Sender) (sourceShard : ClusterShardID) (original : Int) : Sender :=
  let proxyID := s.nextProxyTaskID + 1
  { s with nextProxyTaskID := proxyID, idRing := append s.idRing proxyID sourceShard original }

def rewriteTask (proxyID : Int) (t : ReplicationTask) : ReplicationTask :=
  { sourceTaskID := proxyID
    rawTaskInfo := t.rawTaskInfo.map fun info => { info with taskID := proxyID } }

def rewriteTasks (sourceShard : ClusterShardID) :
    Sender → List ReplicationTask → Sender × List ReplicationTask
  | s, [] => (s, [])
  | s, t :: rest =>
    let s := allocate s sourceShard t.sourceTaskID
    let tail := rewriteTasks sourceShard s rest
    (tail.1, rewriteTask s.nextProxyTaskID t :: tail.2)

/-- The locked section of sendReplicationMessages. -/
def rewriteMessage (s : Sender) (routed : RoutedMessage) :
    Sender × WorkflowReplicationMessages :=
  if routed.resp.replicationTasks ≠ [] then
    let rewritten := rewriteTasks routed.sourceShard s routed.resp.replicationTasks
    let last := (rewritten.2.getLast?.map ReplicationTask.sourceTaskID).getD 0
    (rewritten.1, { routed.resp with
      replicationTasks := rewritten.2, exclusiveHighWatermark := last + 1 })
  else
    let s := allocate s routed.sourceShard routed.resp.exclusiveHighWatermark
    (s, { routed.resp with exclusiveHighWatermark := s.nextProxyTaskID })

structure Entry where
  mapping : ProxyIDMapping
  isTask : Bool
  deriving DecidableEq, Repr

def taskEntry (sourceShard : ClusterShardID) (t : ReplicationTask) : Entry :=
  ⟨⟨sourceShard, t.sourceTaskID⟩, true⟩

def watermarkEntry (routed : RoutedMessage) : Entry :=
  ⟨⟨routed.sourceShard, routed.resp.exclusiveHighWatermark⟩, false⟩

/-- The entries a routed message adds to the ring, in order. -/
def entriesOf (routed : RoutedMessage) : List Entry :=
  if routed.resp.replicationTasks ≠ [] then
    routed.resp.replicationTasks.map (taskEntry routed.sourceShard)
  else [watermarkEntry routed]

structure Delivery where
  shard : ClusterShardID
  ack : Int
  /-- Newly computed, as opposed to a repeated previous ack. -/
  fresh : Bool
  deriving DecidableEq, Repr

/-- A sender with the record of what it has done. Of the fields below only shutdown is
    read by the sender's own code. -/
structure SenderRun extends Sender where
  shutdown : Bool
  log : NumberedQueue Entry
  sent : List WorkflowReplicationMessages
  received : List Int
  delivered : List Delivery
  /-- What the current round has delivered, and the ring at the round's beginning. -/
  round : List Delivery
  roundRing : ProxyIDRingBuffer

def newSender (capacity : Int) : SenderRun where
  nextProxyTaskID := 0
  idRing := newProxyIDRingBuffer capacity
  prevAckBySource := ∅
  lastSentWatermark := 0
  outgoing := none
  ackPhase := .idle
  shutdown := false
  log := .empty
  sent := []
  received := []
  delivered := []
  round := []
  roundRing := newProxyIDRingBuffer capacity

inductive SenderLabel where
  | sendMessage (routed : RoutedMessage)
  | transmit
  | keepalive
  /-- recvAck receives a watermark and aggregates the ring up to it. -/
  | recvWatermark (proxyAckWatermark : Int)
  | beginPass (order : List ClusterShardID)
  /-- DeliverAckToShardOwner returns for the current shard; a new ack is recorded. -/
  | attempt (delivered : Bool)
  | finishRound
  | shutdownOnce
  | abandonRound

def pushAll (log : NumberedQueue Entry) (es : List Entry) : NumberedQueue Entry :=
  es.foldl NumberedQueue.push log

def afterSendMessage (s : SenderRun) (routed : RoutedMessage) : SenderRun :=
  let rewritten := rewriteMessage s.toSender routed
  { s with
    toSender := { rewritten.1 with outgoing := some rewritten.2 }
    log := pushAll s.log (entriesOf routed) }

def afterTransmit (s : SenderRun) (m : WorkflowReplicationMessages) : SenderRun :=
  { s with
    outgoing := none
    lastSentWatermark := m.exclusiveHighWatermark
    sent := s.sent ++ [m] }

def afterKeepalive (s : SenderRun) : SenderRun :=
  { s with sent := s.sent ++ [⟨[], s.lastSentWatermark, 0⟩] }

def afterRecvWatermark (s : SenderRun) (proxyAckWatermark : Int) : SenderRun :=
  let aggregated := aggregateUpTo s.idRing proxyAckWatermark
  let fresh := !aggregated.1.keys.isEmpty
  let acks := if fresh then aggregated.1 else s.prevAckBySource
  { s with
    ackPhase := .forwarding fresh acks aggregated.2 (RetryLoop.start acks.keys)
    received := s.received ++ [proxyAckWatermark]
    round := []
    roundRing := s.idRing }

def withPhase (s : SenderRun) (phase : AckPhase) : SenderRun := { s with ackPhase := phase }

def recordDelivery (s : SenderRun) (d : Delivery) : SenderRun :=
  { s with
    prevAckBySource :=
      if d.fresh then s.prevAckBySource.insert d.shard d.ack else s.prevAckBySource
    delivered := s.delivered ++ [d]
    round := s.round ++ [d] }

def afterFinishRound (s : SenderRun) (pendingDiscard : Nat) : SenderRun :=
  { s with
    idRing := discard s.idRing pendingDiscard
    ackPhase := .idle
    log :=
      if fits : pendingDiscard ≤ s.log.held.length then s.log.drop pendingDiscard fits
      else s.log }

def step (s : SenderRun) : SenderLabel → Option SenderRun
  | .sendMessage routed => if s.outgoing = none then some (afterSendMessage s routed) else none
  | .transmit => s.outgoing.map (afterTransmit s)
  | .keepalive =>
    if s.outgoing = none ∧ s.lastSentWatermark > 0 then some (afterKeepalive s) else none
  | .recvWatermark proxyAckWatermark =>
    match s.ackPhase with
    | .idle => some (afterRecvWatermark s proxyAckWatermark)
    | _ => none
  | .beginPass order =>
    match s.ackPhase with
    | .forwarding fresh acks pendingDiscard loop =>
      (loop.beginPass order).map fun loop =>
        withPhase s (.forwarding fresh acks pendingDiscard loop)
    | _ => none
  | .attempt delivered =>
    match s.ackPhase with
    | .forwarding fresh acks pendingDiscard loop =>
      loop.current.map fun shard =>
        let s := withPhase s (.forwarding fresh acks pendingDiscard (loop.settle delivered))
        if delivered then recordDelivery s ⟨shard, (acks.lookup shard).getD 0, fresh⟩ else s
    | _ => none
  | .finishRound =>
    match s.ackPhase with
    | .forwarding _ _ pendingDiscard loop =>
      if loop.done then some (afterFinishRound s pendingDiscard) else none
    | _ => none
  | .shutdownOnce => some { s with shutdown := true }
  | .abandonRound =>
    match s.ackPhase with
    | .forwarding _ _ _ loop =>
      if loop.pass = [] ∧ loop.remaining ≠ [] ∧ s.shutdown then some (withPhase s .stopped) else none
    | _ => none

/-- What each step does and when, in the form in which proofs take a step apart. -/
inductive Stepped (s : SenderRun) : SenderLabel → SenderRun → Prop
  | sendMessage (routed : RoutedMessage) (free : s.outgoing = none) :
      Stepped s (.sendMessage routed) (afterSendMessage s routed)
  | transmit (m : WorkflowReplicationMessages) (ready : s.outgoing = some m) :
      Stepped s .transmit (afterTransmit s m)
  | keepalive (free : s.outgoing = none) (used : 0 < s.lastSentWatermark) :
      Stepped s .keepalive (afterKeepalive s)
  | recvWatermark (w : Int) (phase : s.ackPhase = .idle) :
      Stepped s (.recvWatermark w) (afterRecvWatermark s w)
  | beginPass {order : List ClusterShardID} {fresh : Bool} {acks : ShardMap} {count : Nat}
      {loop loop' : RetryLoop ClusterShardID} (phase : s.ackPhase = .forwarding fresh acks count loop)
      (begun : loop.beginPass order = some loop') :
      Stepped s (.beginPass order) (withPhase s (.forwarding fresh acks count loop'))
  | failed {fresh : Bool} {acks : ShardMap} {count : Nat} {loop : RetryLoop ClusterShardID}
      {shard : ClusterShardID} (phase : s.ackPhase = .forwarding fresh acks count loop)
      (current : loop.current = some shard) :
      Stepped s (.attempt false) (withPhase s (.forwarding fresh acks count (loop.settle false)))
  | delivered {fresh : Bool} {acks : ShardMap} {count : Nat} {loop : RetryLoop ClusterShardID}
      {shard : ClusterShardID} (phase : s.ackPhase = .forwarding fresh acks count loop)
      (current : loop.current = some shard) :
      Stepped s (.attempt true)
        (recordDelivery (withPhase s (.forwarding fresh acks count (loop.settle true)))
          ⟨shard, (acks.lookup shard).getD 0, fresh⟩)
  | finishRound {fresh : Bool} {acks : ShardMap} {count : Nat} {loop : RetryLoop ClusterShardID}
      (phase : s.ackPhase = .forwarding fresh acks count loop) (done : loop.done = true) :
      Stepped s .finishRound (afterFinishRound s count)
  | shutdownOnce : Stepped s .shutdownOnce { s with shutdown := true }
  | abandonRound {fresh : Bool} {acks : ShardMap} {count : Nat} {loop : RetryLoop ClusterShardID}
      (phase : s.ackPhase = .forwarding fresh acks count loop) (between : loop.pass = [])
      (unserved : loop.remaining ≠ []) (down : s.shutdown = true) :
      Stepped s .abandonRound (withPhase s .stopped)

theorem step_inv {s t : SenderRun} {a : SenderLabel} (h : step s a = some t) : Stepped s a t := by
  cases a with
  | sendMessage routed =>
    simp only [step, Option.ite_none_right_eq_some, Option.some.injEq] at h
    exact h.2 ▸ .sendMessage routed h.1
  | transmit =>
    obtain ⟨m, ready, rfl⟩ := Option.map_eq_some_iff.mp h
    exact .transmit m ready
  | keepalive =>
    simp only [step, Option.ite_none_right_eq_some, Option.some.injEq] at h
    exact h.2 ▸ .keepalive h.1.1 h.1.2
  | recvWatermark w =>
    simp only [step] at h
    split at h
    · next phase => exact (Option.some.inj h) ▸ .recvWatermark w phase
    · cases h
  | beginPass order =>
    simp only [step] at h
    split at h
    · next phase =>
      obtain ⟨loop', begun, rfl⟩ := Option.map_eq_some_iff.mp h
      exact .beginPass phase begun
    · cases h
  | attempt delivered =>
    simp only [step] at h
    split at h
    · next phase =>
      obtain ⟨shard, current, rfl⟩ := Option.map_eq_some_iff.mp h
      cases delivered with
      | true => exact .delivered phase current
      | false => exact .failed phase current
    · cases h
  | finishRound =>
    simp only [step] at h
    split at h
    · next phase =>
      simp only [Option.ite_none_right_eq_some, Option.some.injEq] at h
      exact h.2 ▸ .finishRound phase h.1
    · cases h
  | shutdownOnce => exact (Option.some.inj h) ▸ .shutdownOnce
  | abandonRound =>
    simp only [step] at h
    split at h
    · next phase =>
      simp only [Option.ite_none_right_eq_some, Option.some.injEq] at h
      obtain ⟨⟨between, unserved, down⟩, rfl⟩ := h
      exact .abandonRound phase between unserved down
    · cases h

structure Numbered (s : Sender) (log : NumberedQueue Entry) : Prop where
  ring : Represents s.idRing (log.map Entry.mapping)
  next : s.nextProxyTaskID = log.allocated.length

theorem allocate_numbered {s : Sender} {log : NumberedQueue Entry} (n : Numbered s log) (e : Entry) :
    Numbered (allocate s e.mapping.sourceShard e.mapping.sourceTask) (log.push e) := by
  have next := n.next
  constructor
  · have appended := append_represents n.ring e.mapping.sourceShard e.mapping.sourceTask
    rw [NumberedQueue.map_push]
    simpa [allocate, next] using appended
  · simp [allocate, next]

@[simp] theorem pushAll_nil (log : NumberedQueue Entry) : pushAll log [] = log := rfl

theorem pushAll_cons (log : NumberedQueue Entry) (e : Entry) (es : List Entry) :
    pushAll log (e :: es) = pushAll (log.push e) es := rfl

@[simp] theorem pushAll_allocated (log : NumberedQueue Entry) (es : List Entry) :
    (pushAll log es).allocated = log.allocated ++ es := by
  induction es generalizing log with
  | nil => simp
  | cons e es ih => rw [pushAll_cons, ih]; simp

@[simp] theorem pushAll_discarded (log : NumberedQueue Entry) (es : List Entry) :
    (pushAll log es).discarded = log.discarded := by
  induction es generalizing log with
  | nil => rfl
  | cons e es ih => rw [pushAll_cons, ih]; rfl

theorem pushAll_held (log : NumberedQueue Entry) (es : List Entry) :
    (pushAll log es).held = log.held ++ es := by
  simp [NumberedQueue.held, List.drop_append_of_le_length log.bounded]

theorem rewriteTasks_numbered (source : ClusterShardID) (tasks : List ReplicationTask) {s : Sender}
    {log : NumberedQueue Entry} (n : Numbered s log) :
    Numbered (rewriteTasks source s tasks).1 (pushAll log (tasks.map (taskEntry source))) := by
  induction tasks generalizing s log with
  | nil => exact n
  | cons t rest ih => exact ih (allocate_numbered n (taskEntry source t))

theorem rewriteMessage_numbered (routed : RoutedMessage) {s : Sender} {log : NumberedQueue Entry}
    (n : Numbered s log) :
    Numbered (rewriteMessage s routed).1 (pushAll log (entriesOf routed)) := by
  unfold rewriteMessage entriesOf
  split
  · exact rewriteTasks_numbered _ _ n
  · exact allocate_numbered n (watermarkEntry routed)

theorem entriesOf_source {routed : RoutedMessage} {e : Entry} (member : e ∈ entriesOf routed) :
    e.mapping.sourceShard = routed.sourceShard := by
  unfold entriesOf at member
  split at member
  · obtain ⟨t, _, rfl⟩ := List.mem_map.mp member
    rfl
  · rw [List.mem_singleton.mp member]
    rfl

theorem rewriteTasks_frame (source : ClusterShardID) (tasks : List ReplicationTask) (s : Sender) :
    (rewriteTasks source s tasks).1.prevAckBySource = s.prevAckBySource ∧
    (rewriteTasks source s tasks).1.ackPhase = s.ackPhase ∧
    (rewriteTasks source s tasks).1.lastSentWatermark = s.lastSentWatermark := by
  induction tasks generalizing s with
  | nil => exact ⟨rfl, rfl, rfl⟩
  | cons t rest ih => exact ih (allocate s source t.sourceTaskID)

@[simp] theorem rewriteMessage_prevAckBySource (s : Sender) (routed : RoutedMessage) :
    (rewriteMessage s routed).1.prevAckBySource = s.prevAckBySource := by
  unfold rewriteMessage
  split
  · exact (rewriteTasks_frame _ _ s).1
  · rfl

@[simp] theorem rewriteMessage_ackPhase (s : Sender) (routed : RoutedMessage) :
    (rewriteMessage s routed).1.ackPhase = s.ackPhase := by
  unfold rewriteMessage
  split
  · exact (rewriteTasks_frame _ _ s).2.1
  · rfl

@[simp] theorem rewriteMessage_lastSentWatermark (s : Sender) (routed : RoutedMessage) :
    (rewriteMessage s routed).1.lastSentWatermark = s.lastSentWatermark := by
  unfold rewriteMessage
  split
  · exact (rewriteTasks_frame _ _ s).2.2
  · rfl

/- The ids given out are consecutive. -/
theorem rewriteTasks_ids (source : ClusterShardID) (tasks : List ReplicationTask) (s : Sender) :
    (rewriteTasks source s tasks).2.map ReplicationTask.sourceTaskID =
      (List.range tasks.length).map (fun i : Nat => s.nextProxyTaskID + 1 + (i : Int)) ∧
    (rewriteTasks source s tasks).1.nextProxyTaskID = s.nextProxyTaskID + tasks.length := by
  induction tasks generalizing s with
  | nil => exact ⟨rfl, by simp [rewriteTasks]⟩
  | cons t rest ih =>
    obtain ⟨ids, next⟩ := ih (allocate s source t.sourceTaskID)
    constructor
    · rw [rewriteTasks, List.map_cons, ids, List.length_cons, List.range_succ_eq_map, List.map_cons,
        List.map_map]
      refine congrArg₂ List.cons (by simp [rewriteTask, allocate]) (List.map_congr_left ?_)
      intro i _
      simp only [allocate, Function.comp_apply, Nat.succ_eq_add_one, Nat.cast_add, Nat.cast_one]
      ring
    · rw [rewriteTasks, next]
      simp only [allocate, List.length_cons, Nat.cast_add, Nat.cast_one]
      ring

theorem rewriteTasks_getElem? (source : ClusterShardID) (tasks : List ReplicationTask) (s : Sender)
    {i : Nat} (inside : i < tasks.length) :
    ∃ t ∈ (rewriteTasks source s tasks).2, t.sourceTaskID = s.nextProxyTaskID + 1 + i := by
  have member : s.nextProxyTaskID + 1 + (i : Int) ∈
      (rewriteTasks source s tasks).2.map ReplicationTask.sourceTaskID := by
    rw [(rewriteTasks_ids source tasks s).1]
    exact List.mem_map.mpr ⟨i, List.mem_range.mpr inside, rfl⟩
  obtain ⟨t, here, id⟩ := List.mem_map.mp member
  exact ⟨t, here, id⟩

theorem rewriteMessage_high (s : Sender) (routed : RoutedMessage) :
    (rewriteMessage s routed).2.exclusiveHighWatermark ≤
      s.nextProxyTaskID + (entriesOf routed).length + 1 := by
  unfold rewriteMessage entriesOf
  split
  · next some =>
    have ids := (rewriteTasks_ids routed.sourceShard routed.resp.replicationTasks s).1
    have last := congrArg List.getLast? ids
    rw [List.getLast?_map, List.getLast?_map, List.getLast?_range,
      if_neg (by simpa using some)] at last
    simp only [last, Option.map_some, Option.getD_some, List.length_map]
    have positive := List.length_pos_iff.mpr some
    omega
  · simp only [allocate, List.length_singleton, Nat.cast_one]
    omega

def SenderLabel.entries : SenderLabel → List Entry
  | .sendMessage routed => entriesOf routed
  | _ => []

def SenderLabel.watermarks : SenderLabel → List Int
  | .recvWatermark w => [w]
  | _ => []

theorem step_received {s t : SenderRun} {a : SenderLabel} (h : step s a = some t) :
    t.received = s.received ++ a.watermarks := by
  cases step_inv h with
  | recvWatermark w phase => rfl
  | _ => exact (List.append_nil _).symm

theorem step_allocated {s t : SenderRun} {a : SenderLabel} (h : step s a = some t) :
    t.log.allocated = s.log.allocated ++ a.entries := by
  cases step_inv h with
  | sendMessage routed free => simp [afterSendMessage, SenderLabel.entries]
  | finishRound phase done =>
    simp only [afterFinishRound, SenderLabel.entries, List.append_nil]
    split <;> rfl
  | _ => exact (List.append_nil _).symm

end StreamSender
