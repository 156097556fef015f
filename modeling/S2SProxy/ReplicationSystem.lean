import S2SProxy.RoutingSteps
import S2SProxy.StreamSender

/- The whole path of one source shard's messages and acknowledgements: the routing of
   messages into send channels, a proxyStreamSender behind each channel with the target it
   talks to, and the sendAck goroutine of the source's receiver. A target may process what it
   has been sent in any order, and acknowledges w only when it has processed every task it was
   sent with an id below w. -/
namespace ReplicationSystem
open ShardData Routing StreamSender

/-- The sender of a channel, the proxy ids its target has processed, and the
    acknowledgements on their way back to the sender. -/
structure Peer where
  sender : SenderRun
  processed : List Int
  acks : List Int

/-- What the sendAck goroutine keeps, and what it has sent upstream. -/
structure SendAckState where
  ackByTarget : ShardMap
  lastSentMin : Int
  sending : Option Int
  lastSentAck : Option Int
  upstream : List Int

def newSendAck : SendAckState := ⟨∅, 0, none, none, []⟩

/-- Compute minimal watermark across targets. -/
def minAck (ackByTarget : ShardMap) : Option Int :=
  ackByTarget.entries.foldl (fun min e =>
    match min with
    | none => some e.2
    | some low => if e.2 < low then some e.2 else some low) none

def clamp (lastExclusiveHighOriginal min : Int) : Int :=
  if lastExclusiveHighOriginal > 0 ∧ min > lastExclusiveHighOriginal then lastExclusiveHighOriginal
  else min

section SendAck
variable (s : SendAckState) (lastExclusiveHighOriginal : Int)

def SendAckState.aggregatedAck (ackByTarget : ShardMap) : Option Int :=
  (minAck ackByTarget).bind fun min =>
    if min ≥ s.lastSentMin then some (clamp lastExclusiveHighOriginal min) else none

/-- The section under ackMu, for an ack from the channel. -/
def SendAckState.recordAck (r : RoutedAck) : SendAckState :=
  let ackByTarget := s.ackByTarget.insert r.targetShard r.inclusiveLowWatermark
  { s with
    ackByTarget := ackByTarget, sending := s.aggregatedAck lastExclusiveHighOriginal ackByTarget }

def SendAckState.sendUp : Option SendAckState :=
  s.sending.map fun m =>
    { s with sending := none, lastSentMin := m, lastSentAck := some m, upstream := s.upstream ++ [m] }

/-- The last ack is sent once more. -/
def SendAckState.keepalive : Option SendAckState :=
  match s.sending, s.lastSentAck with
  | none, some m => some { s with upstream := s.upstream ++ [m] }
  | _, _ => none

end SendAck

structure System extends SendAckState where
  plane : Plane
  peer : Nat → Peer
  ackChan : List RoutedAck
  /-- Acknowledgements of senders on other nodes, on intra-proxy streams. -/
  relay : List RoutedAck

def initial (cfg : Config) : System where
  toSendAckState := newSendAck
  plane := Routing.initial cfg
  peer := fun _ => ⟨newSender 1024, [], []⟩
  ackChan := []
  relay := []

inductive SystemLabel where
  | plane (a : Label)
  /-- sendReplicationMessages of the channel's sender receives a message and renumbers it. -/
  | take (c : Nat)
  | sender (c : Nat) (l : SenderLabel)
  | process (c : Nat) (id : Int)
  | targetAck (c : Nat) (w : Int)
  | relayAck (k : Nat)
  | takeAck
  | sendUp
  | keepalive

def withPeer (s : System) (c : Nat) (f : Peer → Peer) : System :=
  { s with peer := Function.update s.peer c (f (s.peer c)) }

def withSendAck (s : System) (acks : SendAckState) : System := { s with toSendAckState := acks }

def takeAck (s : System) (r : RoutedAck) (rest : List RoutedAck) : System :=
  { withSendAck s (s.recordAck s.plane.lastExclusiveHighOriginal r) with ackChan := rest }

def routedAcks (cfg : Config) (target : ClusterShardID) (ds : List Delivery) : List RoutedAck :=
  (ds.filter fun d => d.shard = cfg.source).map fun d => ⟨target, d.ack⟩

/-- DeliverAckToShardOwner: into the local ack channel, or over an intra-proxy stream. -/
def deliverAcks (cfg : Config) (s : System) (node : Node) (acks : List RoutedAck) : Option System :=
  if node = cfg.home then
    if acks = [] ∨ s.ackChan.length < 100 then some { s with ackChan := s.ackChan ++ acks } else none
  else some { s with relay := s.relay ++ acks }

def newAcks (cfg : Config) (s : System) (c : Nat) (sender : SenderRun) : List RoutedAck :=
  routedAcks cfg (s.plane.chan c).target
    (sender.delivered.drop (s.peer c).sender.delivered.length)

def senderStep (cfg : Config) (s : System) (c : Nat) (l : SenderLabel) : Option System :=
  (StreamSender.step (s.peer c).sender l).bind fun sender =>
    deliverAcks cfg (withPeer s c fun p => { p with sender := sender }) (s.plane.chan c).node
      (newAcks cfg s c sender)

def AckAllowed (p : Peer) (w : Int) : Prop :=
  ∀ m ∈ p.sender.sent, ∀ t ∈ m.replicationTasks, t.sourceTaskID < w → t.sourceTaskID ∈ p.processed

instance (p : Peer) (w : Int) : Decidable (AckAllowed p w) :=
  inferInstanceAs (Decidable (∀ m ∈ p.sender.sent, ∀ t ∈ m.replicationTasks, _ → _))

def step (cfg : Config) (s : System) : SystemLabel → Option System
  | .plane (.take _) => none
  | .plane a => (Routing.step cfg s.plane a).map fun plane => { s with plane := plane }
  | .take c =>
    (s.plane.chan c).puts[(s.plane.chan c).taken]?.bind fun m =>
      (Routing.step cfg s.plane (.take c)).bind fun plane =>
        (StreamSender.step (s.peer c).sender (.sendMessage m)).map fun sender =>
          { withPeer s c fun p => { p with sender := sender } with plane := plane }
  | .sender _ (.sendMessage _) => none
  | .sender c (.recvWatermark w) =>
    match (s.peer c).acks with
    | [] => none
    | w' :: rest =>
      if w' = w then
        (senderStep cfg s c (.recvWatermark w)).map fun s =>
          withPeer s c fun p => { p with acks := rest }
      else none
  | .sender c l => senderStep cfg s c l
  | .process c id =>
    if (s.peer c).sender.sent.any fun m => m.replicationTasks.any fun t => t.sourceTaskID = id then
      some (withPeer s c fun p => { p with processed := id :: p.processed })
    else none
  | .targetAck c w =>
    if AckAllowed (s.peer c) w then some (withPeer s c fun p => { p with acks := p.acks ++ [w] })
    else none
  | .relayAck k =>
    match s.relay[k]? with
    | none => none
    | some r =>
      if s.ackChan.length < 100 then
        some { s with ackChan := s.ackChan ++ [r], relay := s.relay.eraseIdx k }
      else none
  | .takeAck =>
    match s.sending, s.ackChan with
    | none, r :: rest => some (takeAck s r rest)
    | _, _ => none
  | .sendUp => s.sendUp.map (withSendAck s)
  | .keepalive => s.keepalive.map (withSendAck s)

/-- A system after a step of one sender: its acks for the source have gone into the local
    channel or onto a stream. -/
def afterSender (s : System) (c : Nat) (sender : SenderRun) (acks : List Int)
    (toChan toRelay : List RoutedAck) : System :=
  { withPeer s c fun p => { p with sender := sender, acks := acks } with
    ackChan := s.ackChan ++ toChan
    relay := s.relay ++ toRelay }

theorem afterSender_acks (s : System) (c : Nat) (sender : SenderRun) (acks rest : List Int)
    (toChan toRelay : List RoutedAck) :
    withPeer (afterSender s c sender acks toChan toRelay) c (fun p => { p with acks := rest }) =
      afterSender s c sender rest toChan toRelay := by
  simp [afterSender, withPeer]

inductive SystemStepped (cfg : Config) (s : System) : SystemLabel → System → Prop
  | plane {a : Label} {plane : Plane} (notTake : ∀ c, a ≠ .take c)
      (stepped : Routing.step cfg s.plane a = some plane) :
      SystemStepped cfg s (.plane a) { s with plane := plane }
  | take {c : Nat} {m : RoutedMessage} {plane : Plane} {sender : SenderRun}
      (head : (s.plane.chan c).puts[(s.plane.chan c).taken]? = some m)
      (taken : Routing.step cfg s.plane (.take c) = some plane)
      (stepped : StreamSender.step (s.peer c).sender (.sendMessage m) = some sender) :
      SystemStepped cfg s (.take c)
        { withPeer s c fun p => { p with sender := sender } with plane := plane }
  | sender {c : Nat} {l : SenderLabel} {sender : SenderRun} {acks : List Int}
      {toChan toRelay : List RoutedAck} (noMessage : l.entries = [])
      (incoming : (s.peer c).acks = l.watermarks ++ acks)
      (stepped : StreamSender.step (s.peer c).sender l = some sender)
      (outgoing : ∀ r ∈ toChan ++ toRelay,
        r ∈ routedAcks cfg (s.plane.chan c).target sender.delivered) :
      SystemStepped cfg s (.sender c l) (afterSender s c sender acks toChan toRelay)
  | process {c : Nat} {id : Int} :
      SystemStepped cfg s (.process c id)
        (withPeer s c fun p => { p with processed := id :: p.processed })
  | targetAck {c : Nat} {w : Int} (allowed : AckAllowed (s.peer c) w) :
      SystemStepped cfg s (.targetAck c w) (withPeer s c fun p => { p with acks := p.acks ++ [w] })
  | relayAck {k : Nat} {r : RoutedAck} (here : s.relay[k]? = some r) :
      SystemStepped cfg s (.relayAck k)
        { s with ackChan := s.ackChan ++ [r], relay := s.relay.eraseIdx k }
  | takeAck {r : RoutedAck} {rest : List RoutedAck} (head : s.ackChan = r :: rest) :
      SystemStepped cfg s .takeAck (takeAck s r rest)
  | sendUp {m : Int} (ready : s.sending = some m) :
      SystemStepped cfg s .sendUp
        { s with
          sending := none, lastSentMin := m, lastSentAck := some m, upstream := s.upstream ++ [m] }
  | keepalive {m : Int} (last : s.lastSentAck = some m) :
      SystemStepped cfg s .keepalive { s with upstream := s.upstream ++ [m] }

theorem routedAcks_drop {cfg : Config} {target : ClusterShardID} {ds : List Delivery} {n : Nat}
    {r : RoutedAck} (member : r ∈ routedAcks cfg target (ds.drop n)) :
    r ∈ routedAcks cfg target ds := by
  obtain ⟨d, here, rfl⟩ := List.mem_map.mp member
  obtain ⟨inside, source⟩ := List.mem_filter.mp here
  exact List.mem_map.mpr ⟨d, List.mem_filter.mpr ⟨List.mem_of_mem_drop inside, source⟩, rfl⟩

theorem senderStep_inv {cfg : Config} {s t : System} {c : Nat} {l : SenderLabel}
    (h : senderStep cfg s c l = some t) :
    ∃ sender toChan toRelay, StreamSender.step (s.peer c).sender l = some sender ∧
      (∀ r ∈ toChan ++ toRelay, r ∈ routedAcks cfg (s.plane.chan c).target sender.delivered) ∧
      t = afterSender s c sender (s.peer c).acks toChan toRelay := by
  obtain ⟨sender, stepped, delivered⟩ := Option.bind_eq_some_iff.mp h
  unfold deliverAcks at delivered
  split at delivered
  · simp only [Option.ite_none_right_eq_some, Option.some.injEq] at delivered
    refine ⟨sender, newAcks cfg s c sender, [], stepped, ?_, ?_⟩
    · intro r member
      rw [List.append_nil] at member
      exact routedAcks_drop member
    · rw [← delivered.2]
      simp [afterSender, withPeer]
  · simp only [Option.some.injEq] at delivered
    refine ⟨sender, [], newAcks cfg s c sender, stepped, ?_, ?_⟩
    · intro r member
      exact routedAcks_drop member
    · rw [← delivered]
      simp [afterSender, withPeer]

theorem keepalive_inv {s t : SendAckState} (h : s.keepalive = some t) :
    ∃ m, s.lastSentAck = some m ∧ t = { s with upstream := s.upstream ++ [m] } := by
  unfold SendAckState.keepalive at h
  split at h
  · next m idle last =>
    cases h
    exact ⟨m, last, rfl⟩
  · cases h

theorem step_inv {cfg : Config} {s t : System} {a : SystemLabel} (h : step cfg s a = some t) :
    SystemStepped cfg s a t := by
  unfold step at h
  split at h
  · cases h
  · next a notTake =>
    obtain ⟨plane, stepped, rfl⟩ := Option.map_eq_some_iff.mp h
    exact .plane notTake stepped
  · obtain ⟨m, head, h⟩ := Option.bind_eq_some_iff.mp h
    obtain ⟨plane, taken, h⟩ := Option.bind_eq_some_iff.mp h
    obtain ⟨sender, stepped, rfl⟩ := Option.map_eq_some_iff.mp h
    exact .take head taken stepped
  · cases h
  · split at h
    · cases h
    · next w' rest incoming =>
      simp only [Option.ite_none_right_eq_some] at h
      obtain ⟨rfl, h⟩ := h
      obtain ⟨u, stepped, rfl⟩ := Option.map_eq_some_iff.mp h
      obtain ⟨sender, toChan, toRelay, own, outgoing, rfl⟩ := senderStep_inv stepped
      rw [afterSender_acks]
      exact .sender rfl incoming own outgoing
  · next c l noMessage noWatermark =>
    obtain ⟨sender, toChan, toRelay, own, outgoing, rfl⟩ := senderStep_inv h
    refine .sender ?_ ?_ own outgoing
    · cases l with
      | sendMessage m => exact absurd rfl (noMessage m)
      | _ => rfl
    · cases l with
      | recvWatermark w => exact absurd rfl (noWatermark w)
      | _ => rfl
  · simp only [Option.ite_none_right_eq_some, Option.some.injEq] at h
    exact h.2 ▸ .process
  · simp only [Option.ite_none_right_eq_some, Option.some.injEq] at h
    exact h.2 ▸ .targetAck h.1
  · split at h
    · cases h
    · next r here =>
      simp only [Option.ite_none_right_eq_some, Option.some.injEq] at h
      exact h.2 ▸ .relayAck here
  · split at h
    · next r rest idle head =>
      cases h
      exact .takeAck head
    · cases h
  · obtain ⟨acks, sent, rfl⟩ := Option.map_eq_some_iff.mp h
    obtain ⟨m, ready, rfl⟩ := Option.map_eq_some_iff.mp sent
    exact .sendUp ready
  · obtain ⟨acks, sent, rfl⟩ := Option.map_eq_some_iff.mp h
    obtain ⟨m, last, rfl⟩ := keepalive_inv sent
    exact .keepalive last

end ReplicationSystem
