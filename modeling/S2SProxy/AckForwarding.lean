import S2SProxy.PeerReconcile
import S2SProxy.Lib.GuardedRuns
import S2SProxy.Lib.NumberedRecords

/- An acknowledgement on its way to the ack channel of its source shard, over any number of nodes.
   DeliverAckToShardOwner tries the registry of its own node and then forwards over an intra-proxy
   stream; recvAck at the other end of the stream calls DeliverAckToShardOwner once more, without
   leave to forward. A step is one access to shared state. Channels, streams and calls are numbered;
   registrations, streams and what a node knows of the others come and go at any time. For the
   statements every ack carries the number of the call that it comes from. -/
namespace AckForwarding
open ShardData PeerReconcile GuardedRuns NumberedRecords

structure SyncReplicationState where
  inclusiveLowWatermark : Int
  inclusiveLowWatermarkTime : Option Int
  deriving DecidableEq, Repr

/-- A RoutedAck with all that its request carries. -/
structure TimedAck where
  targetShard : ClusterShardID
  req : SyncReplicationState
  deriving DecidableEq, Repr

structure Entry where
  origin : Nat
  via : Option Nat
  ack : TimedAck
  deriving DecidableEq, Repr

structure AckChan where
  node : String
  sourceShard : ClusterShardID
  /-- Everything that was ever put into the channel. -/
  entries : List Entry
  taken : Nat
  closed : Bool
  deriving DecidableEq, Repr

def ackChanCapacity : Nat := 100

structure Place where
  chan : Nat
  index : Nat
  deriving DecidableEq, Repr

structure Request where
  origin : Nat
  req : SyncReplicationState
  deriving DecidableEq, Repr

/-- An intra-proxy stream: the intraProxyStreamReceiver of one node is its client, and the
    intraProxyStreamSender of another one serves it. -/
structure Stream where
  client : String
  server : String
  key : PeerStreamKey
  opened : Bool
  sent : List Request
  /-- How many requests recvAck has read. -/
  read : Nat
  /-- Where recvAck has brought requests, in the order in which it did. -/
  arrived : List Place
  /-- The delivery that recvAck is in. -/
  delivering : Option Nat
  ended : Bool
  deriving DecidableEq, Repr

inductive Outcome where
  | failed
  | put (place : Place)
  | sent (stream index : Nat)
  deriving DecidableEq, Repr

inductive Pc where
  | start
  | found (c : Nat)
  | missed
  | sending (owner : String)
  | returned (o : Outcome)
  deriving DecidableEq, Repr

/-- A call of DeliverAckToShardOwner, by a proxyStreamSender or by the recvAck of a stream. -/
structure Call where
  node : String
  sourceShard : ClusterShardID
  ack : TimedAck
  allowForward : Bool
  origin : Nat
  via : Option Nat
  pc : Pc
  deriving DecidableEq, Repr

/-- Whether a node has a memberlist, and an address for another node. -/
structure Config where
  memberlist : String → Bool
  proxyAddress : String → String → Bool

structure Network where
  calls : Nat → Option Call
  chans : Nat → Option AckChan
  streams : Nat → Option Stream
  localAckChannels : String → ClusterShardID → Option Nat
  /-- The receivers of a node's peers. -/
  receivers : String → String → PeerStreamKey → Option Nat
  views : String → View

def initial : Network where
  calls _ := none
  chans _ := none
  streams _ := none
  localAckChannels _ _ := none
  receivers _ _ _ := none
  views node := ⟨node, false, [], ∅⟩

def Network.setCall (s : Network) (k : Nat) (call : Call) : Network :=
  { s with calls := put s.calls k call }

def Network.setChan (s : Network) (c : Nat) (ch : AckChan) : Network :=
  { s with chans := put s.chans c ch }

def Network.setStream (s : Network) (i : Nat) (st : Stream) : Network :=
  { s with streams := put s.streams i st }

def Network.setLocalAckChan (s : Network) (c : Nat) (node : String) (shard : ClusterShardID) : Network :=
  { s.setChan c ⟨node, shard, [], 0, false⟩ with
    localAckChannels :=
      Function.update s.localAckChannels node (Function.update (s.localAckChannels node) shard (some c)) }

def Network.removeLocalAckChan (s : Network) (node : String) (shard : ClusterShardID) : Network :=
  { s with
    localAckChannels :=
      Function.update s.localAckChannels node (Function.update (s.localAckChannels node) shard none) }

def Network.setReceiver (s : Network) (client server : String) (key : PeerStreamKey) (i : Option Nat) :
    Network :=
  { s with
    receivers := Function.update s.receivers client
      (Function.update (s.receivers client) server (Function.update (s.receivers client server) key i)) }

def Network.ensureStream (s : Network) (i : Nat) (client server : String) (key : PeerStreamKey) : Network :=
  (s.setStream i ⟨client, server, key, false, [], 0, [], none, false⟩).setReceiver client server key (some i)

/-- Those whom getShardOwner may return, as the order of a map differs from one iteration to the next. -/
def shardOwners (v : View) (shard : ClusterShardID) : List String :=
  ((getRemoteShardsForPeer v "").filter fun e => shard ∈ e.2).map Sigma.fst

inductive Move where
  | look
  | shutdown
  /-- The channel is closed; the panic is recovered from. -/
  | recovered (isShutdown : Bool)
  /-- getShardOwner and GetProxyAddress. -/
  | route (owner : Option String)
  deriving DecidableEq, Repr

def routed (cfg : Config) (s : Network) (call : Call) (owner : Option String) : Option Pc :=
  if !call.allowForward || !cfg.memberlist call.node then some (.returned .failed)
  else
    match owner with
    | none =>
      if shardOwners (s.views call.node) call.sourceShard = [] then some (.returned .failed) else none
    | some o =>
      if o ∈ shardOwners (s.views call.node) call.sourceShard then
        some (if o ≠ call.node && cfg.proxyAddress call.node o then .sending o else .returned .failed)
      else none

def moved (cfg : Config) (s : Network) (call : Call) : Move → Option Pc
  | .look =>
    match call.pc with
    | .start =>
      match s.localAckChannels call.node call.sourceShard with
      | some c => some (.found c)
      | none => some .missed
    | _ => none
  | .shutdown =>
    match call.pc with
    | .found _ => some (.returned .failed)
    | _ => none
  | .recovered isShutdown =>
    match call.pc with
    | .found c =>
      match s.chans c with
      | some ch => if ch.closed then some (if isShutdown then .returned .failed else .missed) else none
      | none => none
    | _ => none
  | .route owner =>
    match call.pc with
    | .missed => routed cfg s call owner
    | _ => none

def Network.putAck (s : Network) (k : Nat) (call : Call) (c : Nat) (ch : AckChan) : Network :=
  let place := Place.mk c ch.entries.length
  { s with
    calls := put s.calls k { call with pc := .returned (.put place) }
    chans := put s.chans c { ch with entries := ch.entries ++ [⟨call.origin, call.via, call.ack⟩] }
    streams := fun i =>
      if call.via = some i then (s.streams i).map fun st => { st with arrived := st.arrived ++ [place] }
      else s.streams i }

def Call.key (call : Call) : PeerStreamKey := ⟨call.ack.targetShard, call.sourceShard⟩

def Network.sendRequest (s : Network) (k : Nat) (call : Call) (i : Nat) (st : Stream) : Network :=
  (s.setCall k { call with pc := .returned (.sent i st.sent.length) }).setStream i
    { st with sent := st.sent ++ [⟨call.origin, call.ack.req⟩] }

/-- intraProxyManager.sendAck with intraProxyStreamReceiver.sendAck. -/
def Network.sendAck (s : Network) (k : Nat) (call : Call) (owner : String) (sendOk : Bool) : Network :=
  match s.receivers call.node owner call.key with
  | none => s.setCall k { call with pc := .returned .failed }
  | some i =>
    match s.streams i with
    | none => s.setCall k { call with pc := .returned .failed }
    | some st =>
      if st.opened && sendOk then s.sendRequest k call i st
      else s.setCall k { call with pc := .returned .failed }

/-- The call that recvAck makes for a request: the ack is made anew from the watermark, without the
    time, and may not be forwarded again. -/
def Stream.recvAck (st : Stream) (i : Nat) (r : Request) : Call where
  node := st.server
  sourceShard := st.key.sourceShard
  ack := ⟨st.key.targetShard, ⟨r.req.inclusiveLowWatermark, none⟩⟩
  allowForward := false
  origin := r.origin
  via := some i
  pc := .start

def Network.receive (s : Network) (i : Nat) (st : Stream) (k : Nat) (r : Request) : Network :=
  (s.setStream i { st with read := st.read + 1, delivering := some k }).setCall k (st.recvAck i r)

inductive Label where
  | setLocalAckChan (c : Nat) (node : String) (shard : ClusterShardID)
  | removeLocalAckChan (node : String) (shard : ClusterShardID)
  | closeChan (c : Nat)
  | takeAck (c : Nat)
  | learn (node : String) (v : View)
  | ensureStream (i : Nat) (client server : String) (key : PeerStreamKey)
  | streamOpened (i : Nat)
  | dropReceiver (client server : String) (key : PeerStreamKey)
  /-- recvAck leaves its loop between two requests. -/
  | endStream (i : Nat)
  /-- A proxyStreamSender calls DeliverAckToShardOwner. -/
  | deliver (k : Nat) (node : String) (sourceShard : ClusterShardID) (ack : TimedAck)
  | move (k : Nat) (m : Move)
  | putAck (k : Nat)
  | sendAck (k : Nat) (sendOk : Bool)
  | receive (i k : Nat)
  | resume (i : Nat)

def step (cfg : Config) (s : Network) : Label → Option Network
  | .setLocalAckChan c node shard =>
    match s.chans c with
    | none => some (s.setLocalAckChan c node shard)
    | some _ => none
  | .removeLocalAckChan node shard => some (s.removeLocalAckChan node shard)
  | .closeChan c => (s.chans c).map fun ch => s.setChan c { ch with closed := true }
  | .takeAck c =>
    (s.chans c).bind fun ch =>
      if ch.taken < ch.entries.length then some (s.setChan c { ch with taken := ch.taken + 1 }) else none
  | .learn node v => some { s with views := Function.update s.views node { v with nodeName := node } }
  | .ensureStream i client server key =>
    match s.streams i with
    | none => if client ≠ server then some (s.ensureStream i client server key) else none
    | some _ => none
  | .streamOpened i => (s.streams i).map fun st => s.setStream i { st with opened := true }
  | .dropReceiver client server key => some (s.setReceiver client server key none)
  | .endStream i =>
    (s.streams i).bind fun st =>
      match st.delivering with
      | none => some (s.setStream i { st with ended := true })
      | some _ => none
  | .deliver k node sourceShard ack =>
    match s.calls k with
    | none => some (s.setCall k ⟨node, sourceShard, ack, true, k, none, .start⟩)
    | some _ => none
  | .move k m =>
    (s.calls k).bind fun call => (moved cfg s call m).map fun pc => s.setCall k { call with pc := pc }
  | .putAck k =>
    (s.calls k).bind fun call =>
      match call.pc with
      | .found c =>
        (s.chans c).bind fun ch =>
          if !ch.closed && ch.entries.length < ch.taken + ackChanCapacity then some (s.putAck k call c ch)
          else none
      | _ => none
  | .sendAck k sendOk =>
    (s.calls k).bind fun call =>
      match call.pc with
      | .sending owner => some (s.sendAck k call owner sendOk)
      | _ => none
  | .receive i k =>
    (s.streams i).bind fun st =>
      if st.ended || st.delivering.isSome || (s.calls k).isSome then none
      else st.sent[st.read]?.map fun r => s.receive i st k r
  | .resume i =>
    (s.streams i).bind fun st =>
      st.delivering.bind fun k =>
        (s.calls k).bind fun call =>
          match call.pc with
          | .returned o =>
            -- An ack that could not be delivered is the end of the stream.
            some (s.setStream i { st with delivering := none, ended := st.ended || o = .failed })
          | _ => none

def Pc.pending : Pc → Bool
  | .returned _ => false
  | _ => true

inductive Goes (s : Network) (call : Call) : Pc → Prop where
  | found (c : Nat) (listed : s.localAckChannels call.node call.sourceShard = some c) : Goes s call (.found c)
  | missed : Goes s call .missed
  | sending (owner : String) (allowed : call.allowForward = true) : Goes s call (.sending owner)
  | failed : Goes s call (.returned .failed)

inductive Stepped (s : Network) : Network → Prop where
  | newChan (c : Nat) (node : String) (shard : ClusterShardID) (free : s.chans c = none) :
      Stepped s (s.setLocalAckChan c node shard)
  | removeChan (node : String) (shard : ClusterShardID) : Stepped s (s.removeLocalAckChan node shard)
  | chan (c : Nat) (ch : AckChan) (taken : Nat) (closed : Bool) (found : s.chans c = some ch) :
      Stepped s (s.setChan c { ch with taken := taken, closed := closed })
  | learn (views : String → View) : Stepped s { s with views := views }
  | newStream (i : Nat) (client server : String) (key : PeerStreamKey) (free : s.streams i = none)
      (apart : client ≠ server) : Stepped s (s.ensureStream i client server key)
  | stream (i : Nat) (st : Stream) (opened ended : Bool) (found : s.streams i = some st)
      (stays : ended = false → st.ended = false) :
      Stepped s (s.setStream i { st with opened := opened, ended := ended })
  | dropReceiver (client server : String) (key : PeerStreamKey) :
      Stepped s (s.setReceiver client server key none)
  | deliver (k : Nat) (node : String) (sourceShard : ClusterShardID) (ack : TimedAck)
      (free : s.calls k = none) : Stepped s (s.setCall k ⟨node, sourceShard, ack, true, k, none, .start⟩)
  | move (k : Nat) (call : Call) (pc : Pc) (found : s.calls k = some call) (pending : call.pc.pending = true)
      (goes : Goes s call pc) : Stepped s (s.setCall k { call with pc := pc })
  | putAck (k : Nat) (call : Call) (c : Nat) (ch : AckChan) (found : s.calls k = some call)
      (at_chan : call.pc = .found c) (channel : s.chans c = some ch) : Stepped s (s.putAck k call c ch)
  | sendRequest (k : Nat) (call : Call) (owner : String) (i : Nat) (st : Stream)
      (found : s.calls k = some call) (at_send : call.pc = .sending owner)
      (listed : s.receivers call.node owner call.key = some i) (stream : s.streams i = some st) :
      Stepped s (s.sendRequest k call i st)
  | receive (i : Nat) (st : Stream) (k : Nat) (r : Request) (stream : s.streams i = some st)
      (running : st.ended = false) (idle : st.delivering = none) (free : s.calls k = none)
      (next : st.sent[st.read]? = some r) : Stepped s (s.receive i st k r)
  | resume (i : Nat) (st : Stream) (k : Nat) (call : Call) (o : Outcome)
      (stream : s.streams i = some st) (current : st.delivering = some k) (found : s.calls k = some call)
      (returned : call.pc = .returned o) :
      Stepped s (s.setStream i { st with delivering := none, ended := st.ended || o = .failed })

variable {cfg : Config} {s t : Network}

theorem routed_goes {call : Call} {owner : Option String} {pc : Pc}
    (h : routed cfg s call owner = some pc) : Goes s call pc := by
  unfold routed at h
  split at h
  · cases h
    exact .failed
  · rename_i allowed
    have mayForward : call.allowForward = true := by
      simp only [Bool.or_eq_true, Bool.not_eq_true', not_or, Bool.not_eq_false] at allowed
      exact allowed.1
    split at h
    · split at h
      · cases h
        exact .failed
      · cases h
    · rename_i o
      split at h
      · cases h
        split
        · exact .sending o mayForward
        · exact .failed
      · cases h

theorem moved_goes {call : Call} {m : Move} {pc : Pc} (h : moved cfg s call m = some pc) :
    call.pc.pending = true ∧ Goes s call pc := by
  cases m with
  | look =>
    simp only [moved] at h
    split at h
    · rename_i here
      rw [here]
      refine ⟨rfl, ?_⟩
      split at h
      · rename_i c listed
        cases h
        exact .found c listed
      · cases h
        exact .missed
    · cases h
  | shutdown =>
    simp only [moved] at h
    split at h
    · rename_i c here
      rw [here]
      cases h
      exact ⟨rfl, .failed⟩
    · cases h
  | recovered isShutdown =>
    simp only [moved] at h
    split at h
    · rename_i c here
      rw [here]
      refine ⟨rfl, ?_⟩
      split at h
      · split at h
        · cases h
          split
          · exact .failed
          · exact .missed
        · cases h
      · cases h
    · cases h
  | route owner =>
    simp only [moved] at h
    split at h
    · rename_i here
      rw [here]
      exact ⟨rfl, routed_goes h⟩
    · cases h

theorem sendAck_stepped {k : Nat} {call : Call} {owner : String} (found : s.calls k = some call)
    (at_send : call.pc = .sending owner) (sendOk : Bool) : Stepped s (s.sendAck k call owner sendOk) := by
  have failed : Stepped s (s.setCall k { call with pc := .returned .failed }) :=
    .move k call _ found (by rw [at_send]; rfl) .failed
  unfold Network.sendAck
  split
  · exact failed
  · rename_i i listed
    split
    · exact failed
    · rename_i st stream
      split
      · exact .sendRequest k call owner i st found at_send listed stream
      · exact failed

theorem step_cases {a : Label} (h : step cfg s a = some t) : Stepped s t := by
  cases a with
  | setLocalAckChan c node shard =>
    simp only [step] at h
    split at h
    · rename_i free
      cases h
      exact .newChan c node shard free
    · cases h
  | removeLocalAckChan node shard =>
    cases h
    exact .removeChan node shard
  | closeChan c =>
    obtain ⟨ch, found, rfl⟩ := Option.map_eq_some_iff.mp h
    exact .chan c ch ch.taken true found
  | takeAck c =>
    obtain ⟨ch, found, h⟩ := Option.bind_eq_some_iff.mp h
    split at h
    · cases h
      exact .chan c ch _ ch.closed found
    · cases h
  | learn node v =>
    cases h
    exact .learn _
  | ensureStream i client server key =>
    simp only [step] at h
    split at h
    · rename_i free
      split at h
      · rename_i apart
        cases h
        exact .newStream i client server key free apart
      · cases h
    · cases h
  | streamOpened i =>
    obtain ⟨st, found, rfl⟩ := Option.map_eq_some_iff.mp h
    exact .stream i st true st.ended found id
  | dropReceiver client server key =>
    cases h
    exact .dropReceiver client server key
  | endStream i =>
    obtain ⟨st, found, h⟩ := Option.bind_eq_some_iff.mp h
    split at h
    · cases h
      exact .stream i st st.opened true found (by simp)
    · cases h
  | deliver k node sourceShard ack =>
    simp only [step] at h
    split at h
    · rename_i free
      cases h
      exact .deliver k node sourceShard ack free
    · cases h
  | move k m =>
    obtain ⟨call, found, h⟩ := Option.bind_eq_some_iff.mp h
    obtain ⟨pc, goes, rfl⟩ := Option.map_eq_some_iff.mp h
    exact .move k call pc found (moved_goes goes).1 (moved_goes goes).2
  | putAck k =>
    obtain ⟨call, found, h⟩ := Option.bind_eq_some_iff.mp h
    split at h
    · rename_i c at_chan
      obtain ⟨ch, channel, h⟩ := Option.bind_eq_some_iff.mp h
      split at h
      · cases h
        exact .putAck k call c ch found at_chan channel
      · cases h
    · cases h
  | sendAck k sendOk =>
    obtain ⟨call, found, h⟩ := Option.bind_eq_some_iff.mp h
    split at h
    · rename_i owner at_send
      cases h
      exact sendAck_stepped found at_send sendOk
    · cases h
  | receive i k =>
    obtain ⟨st, stream, h⟩ := Option.bind_eq_some_iff.mp h
    split at h
    · cases h
    · rename_i ready
      simp only [Bool.or_eq_true, not_or, Bool.not_eq_true, Option.isSome_eq_false_iff,
        Option.isNone_iff_eq_none] at ready
      obtain ⟨r, next, rfl⟩ := Option.map_eq_some_iff.mp h
      exact .receive i st k r stream ready.1.1 ready.1.2 ready.2 next
  | resume i =>
    obtain ⟨st, stream, h⟩ := Option.bind_eq_some_iff.mp h
    obtain ⟨k, current, h⟩ := Option.bind_eq_some_iff.mp h
    obtain ⟨call, found, h⟩ := Option.bind_eq_some_iff.mp h
    split at h
    · rename_i o returned
      cases h
      exact .resume i st k call o stream current found returned
    · cases h

structure AckChan.Extends (ch ch' : AckChan) : Prop where
  node : ch'.node = ch.node
  sourceShard : ch'.sourceShard = ch.sourceShard
  entries : ch.entries <+: ch'.entries

structure Stream.Extends (st st' : Stream) : Prop where
  client : st'.client = st.client
  server : st'.server = st.server
  key : st'.key = st.key
  sent : st.sent <+: st'.sent
  arrived : st.arrived <+: st'.arrived

/-- The call is the same one, and if it has returned, it has returned what it has. -/
structure Call.Proceeds (call call' : Call) : Prop where
  same : ∃ pc, call' = { call with pc := pc }
  returned : ∀ o, call.pc = .returned o → call'.pc = .returned o

theorem AckChan.Extends.refl (ch : AckChan) : ch.Extends ch :=
  ⟨rfl, rfl, List.prefix_refl _⟩

theorem AckChan.Extends.trans (a b c : AckChan) (first : a.Extends b) (second : b.Extends c) :
    a.Extends c := by
  constructor
  · rw [second.node, first.node]
  · rw [second.sourceShard, first.sourceShard]
  · exact first.entries.trans second.entries

theorem Stream.Extends.refl (st : Stream) : st.Extends st :=
  ⟨rfl, rfl, rfl, List.prefix_refl _, List.prefix_refl _⟩

theorem Stream.Extends.trans (a b c : Stream) (first : a.Extends b) (second : b.Extends c) :
    a.Extends c := by
  constructor
  · rw [second.client, first.client]
  · rw [second.server, first.server]
  · rw [second.key, first.key]
  · exact first.sent.trans second.sent
  · exact first.arrived.trans second.arrived

theorem Call.Proceeds.refl (call : Call) : call.Proceeds call :=
  ⟨⟨call.pc, rfl⟩, fun _ returned => returned⟩

theorem Call.Proceeds.trans (a b c : Call) (first : a.Proceeds b) (second : b.Proceeds c) :
    a.Proceeds c := by
  obtain ⟨pc, rfl⟩ := first.same
  obtain ⟨pc', rfl⟩ := second.same
  exact ⟨⟨pc', rfl⟩, fun o returned => second.returned o (first.returned o returned)⟩

theorem Call.proceeds_pending {call : Call} (pending : call.pc.pending = true) (pc : Pc) :
    call.Proceeds { call with pc := pc } := by
  refine ⟨⟨pc, rfl⟩, ?_⟩
  intro o returned
  rw [returned] at pending
  cases pending

/-- Channels and streams only get longer, and calls that have returned stay as they are. -/
structure Later (s t : Network) : Prop where
  calls : Grown Call.Proceeds s.calls t.calls
  chans : Grown AckChan.Extends s.chans t.chans
  streams : Grown Stream.Extends s.streams t.streams

theorem Later.refl (s : Network) : Later s s :=
  ⟨.refl Call.Proceeds.refl _, .refl AckChan.Extends.refl _, .refl Stream.Extends.refl _⟩

theorem Later.trans {s t u : Network} (first : Later s t) (second : Later t u) : Later s u := by
  constructor
  · exact .trans Call.Proceeds.trans first.calls second.calls
  · exact .trans AckChan.Extends.trans first.chans second.chans
  · exact .trans Stream.Extends.trans first.streams second.streams

theorem Later.returned (later : Later s t) {k : Nat} {call : Call} {o : Outcome}
    (found : s.calls k = some call) (returned : call.pc = .returned o) : t.calls k = some call := by
  obtain ⟨call', found', proceeds⟩ := later.calls k call found
  obtain ⟨pc, rfl⟩ := proceeds.same
  have same : pc = call.pc := (proceeds.returned o returned).trans returned.symm
  rw [found', same]

theorem later_call {k : Nat} {call call' : Call} (found : s.calls k = some call)
    (proceeds : call.Proceeds call') : Later s (s.setCall k call') :=
  ⟨grown_put Call.Proceeds.refl found proceeds, (Later.refl s).chans, (Later.refl s).streams⟩

theorem later_newCall {k : Nat} (free : s.calls k = none) (call : Call) : Later s (s.setCall k call) :=
  ⟨grown_new Call.Proceeds.refl free call, (Later.refl s).chans, (Later.refl s).streams⟩

theorem later_chan {c : Nat} {ch ch' : AckChan} (found : s.chans c = some ch) (more : ch.Extends ch') :
    Later s (s.setChan c ch') :=
  ⟨(Later.refl s).calls, grown_put AckChan.Extends.refl found more, (Later.refl s).streams⟩

theorem later_stream {i : Nat} {st st' : Stream} (found : s.streams i = some st) (more : st.Extends st') :
    Later s (s.setStream i st') :=
  ⟨(Later.refl s).calls, (Later.refl s).chans, grown_put Stream.Extends.refl found more⟩

theorem putAck_streams_grown (s : Network) (k : Nat) (call : Call) (c : Nat) (ch : AckChan) :
    Grown Stream.Extends s.streams (s.putAck k call c ch).streams := by
  intro i st found
  by_cases carried : call.via = some i
  · refine ⟨{ st with arrived := st.arrived ++ [⟨c, ch.entries.length⟩] }, ?_, ?_⟩
    · simp [Network.putAck, carried, found]
    · exact ⟨rfl, rfl, rfl, List.prefix_refl _, List.prefix_append _ _⟩
  · exact ⟨st, by simp [Network.putAck, carried, found], Stream.Extends.refl st⟩

theorem later_step (stepped : Stepped s t) : Later s t := by
  cases stepped with
  | newChan c node shard free =>
    exact ⟨(Later.refl s).calls, grown_new AckChan.Extends.refl free _, (Later.refl s).streams⟩
  | removeChan node shard => exact ⟨(Later.refl s).calls, (Later.refl s).chans, (Later.refl s).streams⟩
  | chan c ch taken closed found => exact later_chan found ⟨rfl, rfl, List.prefix_refl _⟩
  | learn views => exact ⟨(Later.refl s).calls, (Later.refl s).chans, (Later.refl s).streams⟩
  | newStream i client server key free apart =>
    exact ⟨(Later.refl s).calls, (Later.refl s).chans, grown_new Stream.Extends.refl free _⟩
  | stream i st opened ended found stays =>
    exact later_stream found ⟨rfl, rfl, rfl, List.prefix_refl _, List.prefix_refl _⟩
  | dropReceiver client server key =>
    exact ⟨(Later.refl s).calls, (Later.refl s).chans, (Later.refl s).streams⟩
  | deliver k node sourceShard ack free => exact later_newCall free _
  | move k call pc found pending goes => exact later_call found (Call.proceeds_pending pending pc)
  | putAck k call c ch found at_chan channel =>
    constructor
    · exact grown_put Call.Proceeds.refl found (Call.proceeds_pending (by rw [at_chan]; rfl) _)
    · exact grown_put AckChan.Extends.refl channel ⟨rfl, rfl, List.prefix_append _ _⟩
    · exact putAck_streams_grown s k call c ch
  | sendRequest k call owner i st found at_send listed stream =>
    constructor
    · exact grown_put Call.Proceeds.refl found (Call.proceeds_pending (by rw [at_send]; rfl) _)
    · exact (Later.refl s).chans
    · exact grown_put Stream.Extends.refl stream ⟨rfl, rfl, rfl, List.prefix_append _ _, List.prefix_refl _⟩
  | receive i st k r stream running idle free next =>
    constructor
    · exact grown_new Call.Proceeds.refl free _
    · exact (Later.refl s).chans
    · exact grown_put Stream.Extends.refl stream ⟨rfl, rfl, rfl, List.prefix_refl _, List.prefix_refl _⟩
  | resume i st k call o stream current found returned =>
    exact later_stream stream ⟨rfl, rfl, rfl, List.prefix_refl _, List.prefix_refl _⟩

theorem later_run {labels : List Label} (h : run (step cfg) s labels = some t) : Later s t := by
  have kept : ∀ u a v, Later s u → step cfg u a = some v → Later s v := by
    intro u a v later hs
    exact later.trans (later_step (step_cases hs))
  exact run_invariant_all kept (Later.refl s) h

inductive CallStepped (s t : Network) (k : Nat) : Call → Prop where
  | kept (call : Call) (found : s.calls k = some call) : CallStepped s t k call
  | delivered (node : String) (sourceShard : ClusterShardID) (ack : TimedAck) (free : s.calls k = none) :
      CallStepped s t k ⟨node, sourceShard, ack, true, k, none, .start⟩
  | received (i : Nat) (st : Stream) (r : Request) (stream : s.streams i = some st)
      (running : st.ended = false) (idle : st.delivering = none) (next : st.sent[st.read]? = some r)
      (after : t.streams i = some { st with read := st.read + 1, delivering := some k }) :
      CallStepped s t k (st.recvAck i r)
  | moved (call : Call) (pc : Pc) (found : s.calls k = some call) (pending : call.pc.pending = true)
      (goes : Goes s call pc) : CallStepped s t k { call with pc := pc }
  | put (call : Call) (place : Place) (found : s.calls k = some call) (pending : call.pc.pending = true)
      (entered : ∃ ch, t.chans place.chan = some ch ∧
        ch.entries[place.index]? = some ⟨call.origin, call.via, call.ack⟩)
      (brought : ∀ i st, call.via = some i → s.streams i = some st →
        t.streams i = some { st with arrived := st.arrived ++ [place] }) :
      CallStepped s t k { call with pc := .returned (.put place) }
  | sent (call : Call) (owner : String) (i p : Nat) (found : s.calls k = some call)
      (at_send : call.pc = .sending owner)
      (carried : ∃ st, t.streams i = some st ∧ st.sent[p]? = some ⟨call.origin, call.ack.req⟩) :
      CallStepped s t k { call with pc := .returned (.sent i p) }

theorem call_step (stepped : Stepped s t) {k : Nat} {call : Call} (found : t.calls k = some call) :
    CallStepped s t k call := by
  cases stepped with
  | deliver k' node sourceShard ack free =>
    rcases put_some found with ⟨rfl, rfl⟩ | ⟨other, before⟩
    · exact .delivered node sourceShard ack free
    · exact .kept call before
  | move k' call' pc found' pending goes =>
    rcases put_some found with ⟨rfl, rfl⟩ | ⟨other, before⟩
    · exact .moved call' pc found' pending goes
    · exact .kept call before
  | putAck k' call' c ch found' at_chan channel =>
    rcases put_some found with ⟨rfl, rfl⟩ | ⟨other, before⟩
    · refine .put call' _ found' (by rw [at_chan]; rfl) ⟨_, put_self _ _ _, List.getElem?_concat_length⟩ ?_
      intro i st carried stream
      simp [Network.putAck, carried, stream]
    · exact .kept call before
  | sendRequest k' call' owner i st found' at_send listed stream =>
    rcases put_some found with ⟨rfl, rfl⟩ | ⟨other, before⟩
    · exact .sent call' owner i _ found' at_send ⟨_, put_self _ _ _, List.getElem?_concat_length⟩
    · exact .kept call before
  | receive i st k' r stream running idle free next =>
    rcases put_some found with ⟨rfl, rfl⟩ | ⟨other, before⟩
    · exact .received i st r stream running idle next (put_self _ _ _)
    · exact .kept call before
  | _ => exact .kept call found

inductive StreamStepped (s t : Network) (i : Nat) : Stream → Prop where
  | fresh (client server : String) (key : PeerStreamKey) (free : s.streams i = none) (apart : client ≠ server) :
      StreamStepped s t i ⟨client, server, key, false, [], 0, [], none, false⟩
  | kept (st : Stream) (opened ended : Bool) (found : s.streams i = some st)
      (stays : ended = false → st.ended = false) :
      StreamStepped s t i { st with opened := opened, ended := ended }
  | received (st : Stream) (k : Nat) (r : Request) (found : s.streams i = some st)
      (idle : st.delivering = none) (free : s.calls k = none)
      (after : t.calls k = some (st.recvAck i r)) :
      StreamStepped s t i { st with read := st.read + 1, delivering := some k }
  | resumed (st : Stream) (k : Nat) (call : Call) (o : Outcome) (found : s.streams i = some st)
      (current : st.delivering = some k) (answered : s.calls k = some call) (returned : call.pc = .returned o) :
      StreamStepped s t i { st with delivering := none, ended := st.ended || o = .failed }
  | sent (st : Stream) (k : Nat) (call : Call) (owner : String) (found : s.streams i = some st)
      (made : s.calls k = some call) (at_send : call.pc = .sending owner)
      (listed : s.receivers call.node owner call.key = some i)
      (after : t.calls k = some { call with pc := .returned (.sent i st.sent.length) }) :
      StreamStepped s t i { st with sent := st.sent ++ [⟨call.origin, call.ack.req⟩] }
  | arrived (st : Stream) (k : Nat) (call : Call) (c : Nat) (ch : AckChan) (found : s.streams i = some st)
      (made : s.calls k = some call) (carried : call.via = some i) (at_chan : call.pc = .found c)
      (channel : s.chans c = some ch)
      (after : t.calls k = some { call with pc := .returned (.put ⟨c, ch.entries.length⟩) })
      (entered : t.chans c = some { ch with entries := ch.entries ++ [⟨call.origin, call.via, call.ack⟩] }) :
      StreamStepped s t i { st with arrived := st.arrived ++ [⟨c, ch.entries.length⟩] }

theorem stream_kept {i : Nat} {st : Stream} (found : s.streams i = some st) : StreamStepped s t i st :=
  .kept st st.opened st.ended found id

theorem stream_step (stepped : Stepped s t) {i : Nat} {st : Stream} (found : t.streams i = some st) :
    StreamStepped s t i st := by
  cases stepped with
  | newStream i' client server key free apart =>
    rcases put_some found with ⟨rfl, rfl⟩ | ⟨other, before⟩
    · exact .fresh client server key free apart
    · exact stream_kept before
  | stream i' st' opened ended found' stays =>
    rcases put_some found with ⟨rfl, rfl⟩ | ⟨other, before⟩
    · exact .kept st' opened ended found' stays
    · exact stream_kept before
  | putAck k call c ch found' at_chan channel =>
    have streams : (if call.via = some i then (s.streams i).map fun st =>
        { st with arrived := st.arrived ++ [⟨c, ch.entries.length⟩] } else s.streams i) = some st := found
    split at streams
    · rename_i carried
      obtain ⟨st', before, rfl⟩ := Option.map_eq_some_iff.mp streams
      exact .arrived st' k call c ch before found' carried at_chan channel (put_self _ _ _) (put_self _ _ _)
    · exact stream_kept streams
  | sendRequest k call owner i' st' found' at_send listed stream =>
    rcases put_some found with ⟨rfl, rfl⟩ | ⟨other, before⟩
    · exact .sent st' k call owner stream found' at_send listed (put_self _ _ _)
    · exact stream_kept before
  | receive i' st' k r stream running idle free next =>
    rcases put_some found with ⟨rfl, rfl⟩ | ⟨other, before⟩
    · exact .received st' k r stream idle free (put_self _ _ _)
    · exact stream_kept before
  | resume i' st' k call o stream current found' returned =>
    rcases put_some found with ⟨rfl, rfl⟩ | ⟨other, before⟩
    · exact .resumed st' k call o stream current found' returned
    · exact stream_kept before
  | _ => exact stream_kept found

def Holds (s : Network) (c : Nat) (node : String) (shard : ClusterShardID) : Prop :=
  ∃ ch, s.chans c = some ch ∧ ch.node = node ∧ ch.sourceShard = shard

def Leads (s : Network) (i : Nat) (client server : String) (key : PeerStreamKey) : Prop :=
  ∃ st, s.streams i = some st ∧ st.client = client ∧ st.server = server ∧ st.key = key

theorem Holds.later {c : Nat} {node : String} {shard : ClusterShardID} (later : Later s t)
    (holds : Holds s c node shard) : Holds t c node shard := by
  obtain ⟨ch, found, rfl, rfl⟩ := holds
  obtain ⟨ch', found', more⟩ := later.chans c ch found
  exact ⟨ch', found', more.node, more.sourceShard⟩

theorem Leads.later {i : Nat} {client server : String} {key : PeerStreamKey} (later : Later s t)
    (leads : Leads s i client server key) : Leads t i client server key := by
  obtain ⟨st, found, rfl, rfl, rfl⟩ := leads
  obtain ⟨st', found', more⟩ := later.streams i st found
  exact ⟨st', found', more.client, more.server, more.key⟩

/-- The delivery that a stream is in is that of the next request, and the only one that was read and
    has not arrived. -/
def Next (k : Nat) (call : Call) (st : Stream) : Prop :=
  st.delivering = some k ∧ st.read = st.arrived.length + 1 ∧
    ∃ r, st.sent[st.arrived.length]? = some r ∧ r.origin = call.origin ∧
      call.ack = ⟨st.key.targetShard, ⟨r.req.inclusiveLowWatermark, none⟩⟩

structure Fits (s : Network) : Prop where
  listed : ∀ node shard c, s.localAckChannels node shard = some c → Holds s c node shard
  receivers : ∀ client server key i, s.receivers client server key = some i → Leads s i client server key
  apart : ∀ i st, s.streams i = some st → st.client ≠ st.server
  found : ∀ k call c, s.calls k = some call → call.pc = .found c → Holds s c call.node call.sourceShard
  own : ∀ k call, s.calls k = some call → call.via = none → call.origin = k
  sending : ∀ k call owner, s.calls k = some call → call.pc = .sending owner → call.allowForward = true
  relayed : ∀ k call i, s.calls k = some call → call.via = some i → call.allowForward = false ∧
    ∃ client, Leads s i client call.node call.key
  next : ∀ k call i st, s.calls k = some call → call.via = some i → call.pc.pending = true →
    s.streams i = some st → Next k call st
  delivers : ∀ i st k, s.streams i = some st → st.delivering = some k →
    ∃ call, s.calls k = some call ∧ call.via = some i
  delivered : ∀ i st k call o, s.streams i = some st → st.delivering = some k → s.calls k = some call →
    call.pc = .returned o → o ≠ .failed → st.read = st.arrived.length
  level : ∀ i st, s.streams i = some st → st.delivering = none → st.ended = false →
    st.read = st.arrived.length

theorem fits_initial : Fits initial := by
  constructor
  · intro node shard c listed
    cases listed
  · intro client server key i listed
    cases listed
  · intro i st found
    cases found
  · intro k call c found
    cases found
  · intro k call found
    cases found
  · intro k call owner found
    cases found
  · intro k call i found
    cases found
  · intro k call i st found
    cases found
  · intro i st k found
    cases found
  · intro i st k call o found
    cases found
  · intro i st found
    cases found

theorem listed_step (fits : Fits s) (stepped : Stepped s t) (node : String) (shard : ClusterShardID) (c : Nat)
    (listed : t.localAckChannels node shard = some c) : Holds t c node shard := by
  have later := later_step stepped
  cases stepped with
  | newChan c' node' shard' free =>
    by_cases here : node = node' ∧ shard = shard'
    · obtain ⟨rfl, rfl⟩ := here
      have same : c' = c := by simpa [Network.setLocalAckChan] using listed
      subst same
      exact ⟨_, put_self _ _ _, rfl, rfl⟩
    · refine (fits.listed node shard c ?_).later later
      rw [← listed]
      by_cases sameNode : node = node'
      · subst sameNode
        have other : shard ≠ shard' := fun same => here ⟨rfl, same⟩
        simp [Network.setLocalAckChan, other]
      · simp [Network.setLocalAckChan, sameNode]
  | removeChan node' shard' =>
    refine (fits.listed node shard c ?_).later later
    by_cases sameNode : node = node'
    · subst sameNode
      by_cases sameShard : shard = shard'
      · simp [Network.removeLocalAckChan, sameShard] at listed
      · simpa [Network.removeLocalAckChan, sameShard] using listed
    · simpa [Network.removeLocalAckChan, sameNode] using listed
  | _ => exact (fits.listed node shard c listed).later later

theorem setReceiver_receivers (s : Network) (client server : String) (key : PeerStreamKey) (i : Option Nat)
    (client' server' : String) (key' : PeerStreamKey) :
    (s.setReceiver client server key i).receivers client' server' key' =
      if client' = client ∧ server' = server ∧ key' = key then i else s.receivers client' server' key' := by
  by_cases sameClient : client' = client
  · subst sameClient
    by_cases sameServer : server' = server
    · subst sameServer
      by_cases sameKey : key' = key
      · simp [Network.setReceiver, sameKey]
      · simp [Network.setReceiver, sameKey]
    · simp [Network.setReceiver, sameServer]
  · simp [Network.setReceiver, sameClient]

theorem receivers_step (fits : Fits s) (stepped : Stepped s t) (client server : String) (key : PeerStreamKey)
    (i : Nat) (listed : t.receivers client server key = some i) : Leads t i client server key := by
  have later := later_step stepped
  cases stepped with
  | newStream i' client' server' key' free apart =>
    rw [Network.ensureStream, setReceiver_receivers] at listed
    split at listed
    · rename_i same
      obtain ⟨rfl, rfl, rfl⟩ := same
      cases listed
      exact ⟨_, put_self _ _ _, rfl, rfl, rfl⟩
    · exact (fits.receivers client server key i listed).later later
  | dropReceiver client' server' key' =>
    rw [setReceiver_receivers] at listed
    split at listed
    · cases listed
    · exact (fits.receivers client server key i listed).later later
  | _ => exact (fits.receivers client server key i listed).later later

theorem apart_step (fits : Fits s) (stepped : Stepped s t) (i : Nat) (st : Stream)
    (found : t.streams i = some st) : st.client ≠ st.server := by
  cases stream_step stepped found with
  | fresh client server key free apart => exact apart
  | kept st opened ended before stays => exact fits.apart i st before
  | received st k r before idle free after => exact fits.apart i st before
  | resumed st k call o before current answered returned => exact fits.apart i st before
  | sent st k call owner before made at_send listed after => exact fits.apart i st before
  | arrived st k call c ch before made carried at_chan channel after entered => exact fits.apart i st before

theorem found_step (fits : Fits s) (stepped : Stepped s t) (k : Nat) (call : Call) (c : Nat)
    (made : t.calls k = some call) (at_chan : call.pc = .found c) : Holds t c call.node call.sourceShard := by
  have later := later_step stepped
  cases call_step stepped made with
  | kept call before => exact (fits.found k call c before at_chan).later later
  | moved call pc before pending goes =>
    cases goes with
    | found c' listed =>
      cases at_chan
      exact (fits.listed _ _ _ listed).later later
    | missed => cases at_chan
    | sending owner allowed => cases at_chan
    | failed => cases at_chan
  | delivered node sourceShard ack free => cases at_chan
  | received i st r stream running idle next after => cases at_chan
  | put call place before unreturned entered brought => cases at_chan
  | sent call owner i p before at_send sent => cases at_chan

theorem sending_step (fits : Fits s) (stepped : Stepped s t) (k : Nat) (call : Call) (owner : String)
    (made : t.calls k = some call) (at_send : call.pc = .sending owner) : call.allowForward = true := by
  cases call_step stepped made with
  | kept call before => exact fits.sending k call owner before at_send
  | moved call pc before pending goes =>
    cases goes with
    | sending owner' allowed => exact allowed
    | found c listed => cases at_send
    | missed => cases at_send
    | failed => cases at_send
  | delivered node sourceShard ack free => rfl
  | received i st r stream running idle next after => cases at_send
  | put call place before unreturned entered brought => cases at_send
  | sent call owner i p before at_send sent => cases at_send

theorem own_step (fits : Fits s) (stepped : Stepped s t) (k : Nat) (call : Call)
    (made : t.calls k = some call) (first : call.via = none) : call.origin = k := by
  cases call_step stepped made with
  | kept call before => exact fits.own k call before first
  | moved call pc before pending goes => exact fits.own k call before first
  | delivered node sourceShard ack free => rfl
  | received i st r stream running idle next after => cases first
  | put call place before unreturned entered brought => exact fits.own k call before first
  | sent call owner i p before at_send sent => exact fits.own k call before first

theorem relayed_step (fits : Fits s) (stepped : Stepped s t) (k : Nat) (call : Call) (i : Nat)
    (made : t.calls k = some call) (carried : call.via = some i) :
    call.allowForward = false ∧ ∃ client, Leads t i client call.node call.key := by
  have later := later_step stepped
  have before : ∀ call₀, s.calls k = some call₀ → call₀.via = some i → call₀.allowForward = false ∧
      ∃ client, Leads t i client call₀.node call₀.key := by
    intro call₀ found via
    obtain ⟨kept, client, leads⟩ := fits.relayed k call₀ i found via
    exact ⟨kept, client, leads.later later⟩
  cases call_step stepped made with
  | kept call found => exact before call found carried
  | moved call pc found pending goes => exact before call found carried
  | delivered node sourceShard ack free => cases carried
  | received i' st r stream running idle next after =>
    cases carried
    exact ⟨rfl, st.client, _, after, rfl, rfl, rfl⟩
  | put call place found unreturned entered brought => exact before call found carried
  | sent call owner i' p found at_send sent => exact before call found carried

/- A call that is still to return keeps its place at the stream: only its own put moves the stream on. -/
theorem next_kept (fits : Fits s) (stepped : Stepped s t) {k : Nat} {call call' : Call} {i : Nat} {st : Stream}
    (made : s.calls k = some call) (carried : call.via = some i) (pending : call.pc.pending = true)
    (made' : t.calls k = some call') (pending' : call'.pc.pending = true) (found : t.streams i = some st) :
    Next k call st := by
  have held : ∀ st₀, s.streams i = some st₀ → Next k call st₀ := fun st₀ stream =>
    fits.next k call i st₀ made carried pending stream
  cases stream_step stepped found with
  | fresh client server key free apart =>
    obtain ⟨_, client', st₀, stream, _⟩ := fits.relayed k call i made carried
    rw [free] at stream
    cases stream
  | kept st opened ended before stays => exact held st before
  | received st k' r before idle free after =>
    rw [(held st before).1] at idle
    cases idle
  | resumed st k' call'' o before current answered returned =>
    rw [(held st before).1, Option.some.injEq] at current
    subst current
    rw [made, Option.some.injEq] at answered
    subst answered
    rw [returned] at pending
    cases pending
  | sent st k' call'' owner before made'' at_send listed after =>
    obtain ⟨current, ahead, r, next, origin, ack⟩ := held st before
    refine ⟨current, ahead, r, ?_, origin, ack⟩
    have inside : st.arrived.length < st.sent.length := (List.getElem?_eq_some_iff.mp next).1
    rw [← next]
    exact List.getElem?_append_left inside
  | arrived st k' call'' c ch before made'' carried'' at_chan channel after entered =>
    have current := (held st before).1
    rw [(fits.next k' call'' i st made'' carried'' (by rw [at_chan]; rfl) before).1, Option.some.injEq] at current
    subst current
    rw [made', Option.some.injEq] at after
    rw [after] at pending'
    cases pending'

theorem next_step (fits : Fits s) (stepped : Stepped s t) (k : Nat) (call : Call) (i : Nat) (st : Stream)
    (made : t.calls k = some call) (carried : call.via = some i) (pending : call.pc.pending = true)
    (found : t.streams i = some st) : Next k call st := by
  cases call_step stepped made with
  | kept call before => exact next_kept fits stepped before carried pending made pending found
  | moved call pc before pending' goes =>
    have held : Next k call st := next_kept fits stepped before carried pending' made pending found
    exact held
  | delivered node sourceShard ack free => cases carried
  | received i' st' r stream running idle next after =>
    cases carried
    rw [after, Option.some.injEq] at found
    subst found
    have level : st'.read = st'.arrived.length := fits.level i st' stream idle running
    exact ⟨rfl, congrArg (· + 1) level, r, level ▸ next, rfl, rfl⟩
  | put call place before unreturned entered brought => cases pending
  | sent call owner i' p before at_send sent => cases pending

theorem delivers_step (fits : Fits s) (stepped : Stepped s t) (i : Nat) (st : Stream) (k : Nat)
    (found : t.streams i = some st) (current : st.delivering = some k) :
    ∃ call, t.calls k = some call ∧ call.via = some i := by
  have later := later_step stepped
  have before : ∀ st₀, s.streams i = some st₀ → st₀.delivering = some k →
      ∃ call, t.calls k = some call ∧ call.via = some i := by
    intro st₀ stream delivering
    obtain ⟨call, made, carried⟩ := fits.delivers i st₀ k stream delivering
    obtain ⟨call', made', proceeds⟩ := later.calls k call made
    obtain ⟨pc, rfl⟩ := proceeds.same
    exact ⟨_, made', carried⟩
  cases stream_step stepped found with
  | fresh client server key free apart => cases current
  | kept st opened ended stream stays => exact before st stream current
  | received st k' r stream idle free after =>
    cases current
    exact ⟨_, after, rfl⟩
  | resumed st k' call o stream delivering answered returned => cases current
  | sent st k' call owner stream made at_send listed after => exact before st stream current
  | arrived st k' call c ch stream made carried at_chan channel after entered =>
    exact before st stream current

/- The delivery of a stream may not forward: unless it fails, it puts the ack, which has then arrived. -/
theorem delivered_step (fits : Fits s) (stepped : Stepped s t) (i : Nat) (st : Stream) (k : Nat) (call : Call)
    (o : Outcome) (found : t.streams i = some st) (current : st.delivering = some k)
    (made : t.calls k = some call) (returned : call.pc = .returned o) (reached : o ≠ .failed) :
    st.read = st.arrived.length := by
  have carried : call.via = some i := by
    obtain ⟨call', made', carried⟩ := delivers_step fits stepped i st k found current
    rw [made, Option.some.injEq] at made'
    rwa [made']
  cases call_step stepped made with
  | kept call before =>
    cases stream_step stepped found with
    | fresh client server key free apart => cases current
    | kept st opened ended stream stays =>
      exact fits.delivered i st k call o stream current before returned reached
    | received st k' r stream idle free after =>
      cases current
      rw [free] at before
      cases before
    | resumed st k' call' o' stream delivering answered returned' => cases current
    | sent st k' call' owner stream made' at_send listed after =>
      exact fits.delivered i st k call o stream current before returned reached
    | arrived st k' call' c ch stream made' carried' at_chan channel after entered =>
      have delivering := (fits.next k' call' i st made' carried' (by rw [at_chan]; rfl) stream).1
      cases delivering.symm.trans current
      rw [before, Option.some.injEq] at made'
      rw [← made', returned] at at_chan
      cases at_chan
  | moved call pc before pending goes =>
    cases goes with
    | failed =>
      cases returned
      exact absurd rfl reached
    | found c listed => cases returned
    | missed => cases returned
    | sending owner allowed => cases returned
  | delivered node sourceShard ack free => cases returned
  | received i' st' r stream running idle next after => cases returned
  | put call place before unreturned entered brought =>
    obtain ⟨_, client, st₀, stream, _⟩ := fits.relayed k call i before carried
    rw [brought i st₀ carried stream, Option.some.injEq] at found
    subst found
    have ahead := (fits.next k call i st₀ before carried unreturned stream).2.1
    simpa using ahead
  | sent call owner i' p before at_send sent =>
    have allowed := fits.sending k call owner before at_send
    rw [(fits.relayed k call i before carried).1] at allowed
    cases allowed

theorem level_step (fits : Fits s) (stepped : Stepped s t) (i : Nat) (st : Stream)
    (found : t.streams i = some st) (idle : st.delivering = none) (running : st.ended = false) :
    st.read = st.arrived.length := by
  cases stream_step stepped found with
  | fresh client server key free apart => rfl
  | kept st opened ended before stays => exact fits.level i st before idle (stays running)
  | received st k r before wasIdle free after => cases idle
  | resumed st k call o before current answered returned =>
    -- a delivery that failed has ended the stream
    simp only [Bool.or_eq_false_iff, decide_eq_false_iff_not] at running
    exact fits.delivered i st k call o before current answered returned running.2
  | sent st k call owner before made at_send listed after => exact fits.level i st before idle running
  | arrived st k call c ch before made carried at_chan channel after entered =>
    obtain ⟨current, _⟩ := fits.next k call i st made carried (by rw [at_chan]; rfl) before
    rw [current] at idle
    cases idle

theorem fits_step (fits : Fits s) (stepped : Stepped s t) : Fits t := by
  constructor
  · exact listed_step fits stepped
  · exact receivers_step fits stepped
  · exact apart_step fits stepped
  · exact found_step fits stepped
  · exact own_step fits stepped
  · exact sending_step fits stepped
  · exact relayed_step fits stepped
  · exact next_step fits stepped
  · exact delivers_step fits stepped
  · exact delivered_step fits stepped
  · exact level_step fits stepped

def TimedAck.withoutTime (a : TimedAck) : TimedAck := ⟨a.targetShard, ⟨a.req.inclusiveLowWatermark, none⟩⟩

/-- How an ack has come to its place: the call that it comes from was made on the node of the channel
    and put it there, or was made on another node and sent it over a stream from there. -/
inductive Came (s : Network) (place : Place) (node : String) (sourceShard : ClusterShardID) (e : Entry) :
    Prop where
  | own (call : Call) (made : s.calls e.origin = some call) (first : call.via = none)
      (outcome : call.pc = .returned (.put place)) (here : call.node = node)
      (shard : call.sourceShard = sourceShard) (direct : e.via = none) (same : e.ack = call.ack)
  | forwarded (call : Call) (i p : Nat) (st : Stream) (made : s.calls e.origin = some call)
      (first : call.via = none) (outcome : call.pc = .returned (.sent i p)) (stream : s.streams i = some st)
      (client : st.client = call.node) (server : st.server = node) (apart : call.node ≠ node)
      (shard : call.sourceShard = sourceShard) (arrived : st.arrived[p]? = some place)
      (carried : e.via = some i) (same : e.ack = call.ack.withoutTime)

structure SentBy (s : Network) (i : Nat) (st : Stream) (p : Nat) (r : Request) (call : Call) : Prop where
  made : s.calls r.origin = some call
  first : call.via = none
  outcome : call.pc = .returned (.sent i p)
  client : call.node = st.client
  key : call.key = st.key
  req : call.ack.req = r.req

def Brought (s : Network) (i : Nat) (st : Stream) (p : Nat) (place : Place) : Prop :=
  ∃ ch e r, s.chans place.chan = some ch ∧ ch.entries[place.index]? = some e ∧ e.via = some i ∧
    st.sent[p]? = some r ∧ e.origin = r.origin

def Before (a b : Place) : Prop := a.chan = b.chan → a.index < b.index

/-- What is in the channels and on the streams, and what the calls have returned, agree. -/
structure Logged (s : Network) : Prop where
  entries : ∀ c ch j e, s.chans c = some ch → ch.entries[j]? = some e →
    Came s ⟨c, j⟩ ch.node ch.sourceShard e
  sent : ∀ i st p r, s.streams i = some st → st.sent[p]? = some r → ∃ call, SentBy s i st p r call
  arrived : ∀ i st p place, s.streams i = some st → st.arrived[p]? = some place → Brought s i st p place
  ordered : ∀ i st, s.streams i = some st → st.arrived.Pairwise Before
  put : ∀ k call place, s.calls k = some call → call.pc = .returned (.put place) →
    ∃ ch, s.chans place.chan = some ch ∧ ch.entries[place.index]? = some ⟨call.origin, call.via, call.ack⟩
  forwarded : ∀ k call i p, s.calls k = some call → call.pc = .returned (.sent i p) →
    ∃ st, s.streams i = some st ∧ st.sent[p]? = some ⟨call.origin, call.ack.req⟩

theorem getElem?_extends {α : Type} {l l' : List α} (more : l <+: l') {i : Nat} {x : α}
    (found : l[i]? = some x) : l'[i]? = some x := by
  obtain ⟨rest, rfl⟩ := more
  have inside : i < l.length := (List.getElem?_eq_some_iff.mp found).1
  rw [List.getElem?_append_left inside, found]

theorem getElem?_concat {α : Type} {l : List α} {x y : α} {i : Nat} (found : (l ++ [x])[i]? = some y) :
    l[i]? = some y ∨ (i = l.length ∧ y = x) := by
  rcases Nat.lt_trichotomy i l.length with inside | rfl | outside
  · rw [List.getElem?_append_left inside] at found
    exact .inl found
  · rw [List.getElem?_concat_length, Option.some.injEq] at found
    exact .inr ⟨rfl, found.symm⟩
  · rw [List.getElem?_eq_none (by simp; omega)] at found
    cases found

theorem Came.later {place : Place} {node : String} {sourceShard : ClusterShardID} {e : Entry}
    (later : Later s t) (came : Came s place node sourceShard e) : Came t place node sourceShard e := by
  cases came with
  | own call made first outcome here shard direct same =>
    exact .own call (later.returned made outcome) first outcome here shard direct same
  | forwarded call i p st made first outcome stream client server apart shard arrived carried same =>
    obtain ⟨st', stream', more⟩ := later.streams i st stream
    exact .forwarded call i p st' (later.returned made outcome) first outcome stream' (more.client.trans client)
      (more.server.trans server) apart shard (getElem?_extends more.arrived arrived) carried same

theorem SentBy.later {i : Nat} {st st' : Stream} {p : Nat} {r : Request} {call : Call} (later : Later s t)
    (more : st.Extends st') (sentBy : SentBy s i st p r call) : SentBy t i st' p r call := by
  constructor
  · exact later.returned sentBy.made sentBy.outcome
  · exact sentBy.first
  · exact sentBy.outcome
  · rw [sentBy.client, more.client]
  · rw [sentBy.key, more.key]
  · exact sentBy.req

theorem Brought.later {i : Nat} {st st' : Stream} {p : Nat} {place : Place} (later : Later s t)
    (more : st.sent <+: st'.sent) (brought : Brought s i st p place) : Brought t i st' p place := by
  obtain ⟨ch, e, r, found, entry, carried, request, origin⟩ := brought
  obtain ⟨ch', found', longer⟩ := later.chans place.chan ch found
  exact ⟨ch', e, r, found', getElem?_extends longer.entries entry, carried,
    getElem?_extends more request, origin⟩

theorem logged_initial : Logged initial := by
  constructor
  · intro c ch j e found
    cases found
  · intro i st p r found
    cases found
  · intro i st p place found
    cases found
  · intro i st found
    cases found
  · intro k call place found
    cases found
  · intro k call i p found
    cases found

inductive ChanStepped (s t : Network) (c : Nat) : AckChan → Prop where
  | fresh (node : String) (shard : ClusterShardID) : ChanStepped s t c ⟨node, shard, [], 0, false⟩
  | kept (ch : AckChan) (taken : Nat) (closed : Bool) (found : s.chans c = some ch) :
      ChanStepped s t c { ch with taken := taken, closed := closed }
  | put (ch : AckChan) (k : Nat) (call : Call) (found : s.chans c = some ch) (made : s.calls k = some call)
      (at_chan : call.pc = .found c)
      (after : t.calls k = some { call with pc := .returned (.put ⟨c, ch.entries.length⟩) })
      (streams : t.streams = (s.putAck k call c ch).streams) :
      ChanStepped s t c { ch with entries := ch.entries ++ [⟨call.origin, call.via, call.ack⟩] }

theorem chan_kept {c : Nat} {ch : AckChan} (found : s.chans c = some ch) : ChanStepped s t c ch :=
  .kept ch ch.taken ch.closed found

theorem chan_step (stepped : Stepped s t) {c : Nat} {ch : AckChan} (found : t.chans c = some ch) :
    ChanStepped s t c ch := by
  cases stepped with
  | newChan c' node shard free =>
    rcases put_some found with ⟨rfl, rfl⟩ | ⟨other, before⟩
    · exact .fresh node shard
    · exact chan_kept before
  | chan c' ch' taken closed found' =>
    rcases put_some found with ⟨rfl, rfl⟩ | ⟨other, before⟩
    · exact .kept ch' taken closed found'
    · exact chan_kept before
  | putAck k call c' ch' made at_chan channel =>
    rcases put_some found with ⟨rfl, rfl⟩ | ⟨other, before⟩
    · exact .put ch' k call channel made at_chan (put_self _ _ _) rfl
    · exact chan_kept before
  | _ => exact chan_kept found

theorem came_put (fits : Fits s) (logged : Logged s) {k : Nat} {call : Call} {c : Nat} {ch : AckChan}
    (later : Later s t) (made : s.calls k = some call) (at_chan : call.pc = .found c)
    (channel : s.chans c = some ch)
    (after : t.calls k = some { call with pc := .returned (.put ⟨c, ch.entries.length⟩) })
    (streams : t.streams = (s.putAck k call c ch).streams) :
    Came t ⟨c, ch.entries.length⟩ ch.node ch.sourceShard ⟨call.origin, call.via, call.ack⟩ := by
  obtain ⟨ch', channel', node, shard⟩ := fits.found k call c made at_chan
  rw [channel, Option.some.injEq] at channel'
  subst channel'
  cases carried : call.via with
  | none =>
    have origin : call.origin = k := fits.own k call made carried
    rw [← origin] at after
    exact .own _ after carried rfl node.symm shard.symm rfl rfl
  | some i =>
    obtain ⟨_, client, st, stream, clientOf, serverOf, keyOf⟩ := fits.relayed k call i made carried
    obtain ⟨_, _, r, next, origin, ack⟩ :=
      fits.next k call i st made carried (by rw [at_chan]; rfl) stream
    obtain ⟨first, sentBy⟩ := logged.sent i st _ r stream next
    have key : first.ack.targetShard = st.key.targetShard ∧ first.sourceShard = st.key.sourceShard := by
      rw [← sentBy.key]
      exact ⟨rfl, rfl⟩
    have sourceShard : st.key.sourceShard = call.sourceShard := by
      rw [keyOf]
      rfl
    have apart : first.node ≠ ch.node := by
      rw [sentBy.client, node, ← serverOf]
      exact fits.apart i st stream
    have moved : t.streams i = some { st with arrived := st.arrived ++ [⟨c, ch.entries.length⟩] } := by
      rw [streams]
      simp [Network.putAck, carried, stream]
    refine .forwarded first i st.arrived.length _ ?_ sentBy.first sentBy.outcome moved sentBy.client.symm
      (serverOf.trans node.symm) apart ?_ ?_ rfl ?_
    · rw [← origin]
      exact later.returned sentBy.made sentBy.outcome
    · rw [key.2, sourceShard, shard]
    · exact List.getElem?_concat_length
    · show call.ack = first.ack.withoutTime
      rw [ack, TimedAck.withoutTime, key.1, sentBy.req]

theorem entries_step (fits : Fits s) (logged : Logged s) (stepped : Stepped s t) (c : Nat) (ch : AckChan)
    (j : Nat) (e : Entry) (found : t.chans c = some ch) (entry : ch.entries[j]? = some e) :
    Came t ⟨c, j⟩ ch.node ch.sourceShard e := by
  have later := later_step stepped
  cases chan_step stepped found with
  | fresh node shard => simp at entry
  | kept ch taken closed before => exact (logged.entries c ch j e before entry).later later
  | put ch k call before made at_chan after streams =>
    rcases getElem?_concat entry with old | ⟨rfl, rfl⟩
    · exact (logged.entries c ch j e before old).later later
    · exact came_put fits logged later made at_chan before after streams

theorem Later.extends (later : Later s t) {i : Nat} {st st' : Stream} (before : s.streams i = some st)
    (found : t.streams i = some st') : st.Extends st' := by
  obtain ⟨st'', found', more⟩ := later.streams i st before
  rw [found, Option.some.injEq] at found'
  rwa [found']

theorem sent_step (fits : Fits s) (logged : Logged s) (stepped : Stepped s t) (i : Nat) (st : Stream) (p : Nat)
    (r : Request) (found : t.streams i = some st) (request : st.sent[p]? = some r) :
    ∃ call, SentBy t i st p r call := by
  have later := later_step stepped
  have old : ∀ st₀, s.streams i = some st₀ → st₀.sent[p]? = some r → ∃ call, SentBy t i st p r call := by
    intro st₀ before request₀
    obtain ⟨call, sentBy⟩ := logged.sent i st₀ p r before request₀
    exact ⟨call, sentBy.later later (later.extends before found)⟩
  cases stream_step stepped found with
  | fresh client server key free apart => simp at request
  | kept st opened ended before stays => exact old st before request
  | received st k r before idle free after => exact old st before request
  | resumed st k call o before current answered returned => exact old st before request
  | arrived st k call c ch before made carried at_chan channel after entered => exact old st before request
  | sent st k call owner before made at_send listed after =>
    rcases getElem?_concat request with earlier | ⟨rfl, rfl⟩
    · exact old st before earlier
    · -- Only a call that may forward sends, and that is one of a proxyStreamSender.
      have first : call.via = none := by
        cases carried : call.via with
        | none => rfl
        | some i' =>
          have allowed := fits.sending k call owner made at_send
          rw [(fits.relayed k call i' made carried).1] at allowed
          cases allowed
      obtain ⟨st', stream, client, _, key⟩ := fits.receivers _ _ _ i listed
      rw [before, Option.some.injEq] at stream
      subst stream
      have origin : call.origin = k := fits.own k call made first
      rw [← origin] at after
      exact ⟨_, after, first, rfl, client.symm, key.symm, rfl⟩

theorem arrived_step (logged : Logged s) (stepped : Stepped s t) (fits : Fits s) (i : Nat) (st : Stream)
    (p : Nat) (place : Place) (found : t.streams i = some st) (brought : st.arrived[p]? = some place) :
    Brought t i st p place := by
  have later := later_step stepped
  have old : ∀ st₀, s.streams i = some st₀ → st₀.arrived[p]? = some place → Brought t i st p place := by
    intro st₀ before brought₀
    exact (logged.arrived i st₀ p place before brought₀).later later (later.extends before found).sent
  cases stream_step stepped found with
  | fresh client server key free apart => simp at brought
  | kept st opened ended before stays => exact old st before brought
  | received st k r before idle free after => exact old st before brought
  | resumed st k call o before current answered returned => exact old st before brought
  | sent st k call owner before made at_send listed after => exact old st before brought
  | arrived st k call c ch before made carried at_chan channel after entered =>
    rcases getElem?_concat brought with earlier | ⟨rfl, rfl⟩
    · exact old st before earlier
    · obtain ⟨_, _, r, next, origin, _⟩ := fits.next k call i st made carried (by rw [at_chan]; rfl) before
      exact ⟨_, _, r, entered, List.getElem?_concat_length, carried, next, origin.symm⟩

theorem ordered_step (logged : Logged s) (stepped : Stepped s t) (i : Nat) (st : Stream)
    (found : t.streams i = some st) : st.arrived.Pairwise Before := by
  cases stream_step stepped found with
  | fresh client server key free apart => exact List.Pairwise.nil
  | kept st opened ended before stays => exact logged.ordered i st before
  | received st k r before idle free after => exact logged.ordered i st before
  | resumed st k call o before current answered returned => exact logged.ordered i st before
  | sent st k call owner before made at_send listed after => exact logged.ordered i st before
  | arrived st k call c ch before made carried at_chan channel after entered =>
    rw [List.pairwise_append]
    refine ⟨logged.ordered i st before, List.pairwise_singleton _ _, ?_⟩
    intro place member new isNew same
    rw [List.mem_singleton] at isNew
    subst isNew
    obtain ⟨p, brought⟩ := List.getElem?_of_mem member
    obtain ⟨ch', e, r, channel', entry, _⟩ := logged.arrived i st p place before brought
    rw [same, channel, Option.some.injEq] at channel'
    subst channel'
    exact (List.getElem?_eq_some_iff.mp entry).1

theorem put_step (logged : Logged s) (stepped : Stepped s t) (k : Nat) (call : Call) (place : Place)
    (found : t.calls k = some call) (outcome : call.pc = .returned (.put place)) :
    ∃ ch, t.chans place.chan = some ch ∧
      ch.entries[place.index]? = some ⟨call.origin, call.via, call.ack⟩ := by
  have later := later_step stepped
  cases call_step stepped found with
  | kept call before =>
    obtain ⟨ch, channel, entry⟩ := logged.put k call place before outcome
    obtain ⟨ch', channel', more⟩ := later.chans _ ch channel
    exact ⟨ch', channel', getElem?_extends more.entries entry⟩
  | moved call pc before pending goes =>
    cases goes <;> cases outcome
  | delivered node sourceShard ack free => cases outcome
  | received i st r stream running idle next after => cases outcome
  | put call place' before unreturned entered brought =>
    cases outcome
    exact entered
  | sent call owner i p before at_send sent => cases outcome

theorem forwarded_step (logged : Logged s) (stepped : Stepped s t) (k : Nat) (call : Call) (i p : Nat)
    (found : t.calls k = some call) (outcome : call.pc = .returned (.sent i p)) :
    ∃ st, t.streams i = some st ∧ st.sent[p]? = some ⟨call.origin, call.ack.req⟩ := by
  have later := later_step stepped
  cases call_step stepped found with
  | kept call before =>
    obtain ⟨st, stream, request⟩ := logged.forwarded k call i p before outcome
    obtain ⟨st', stream', more⟩ := later.streams i st stream
    exact ⟨st', stream', getElem?_extends more.sent request⟩
  | moved call pc before pending goes =>
    cases goes <;> cases outcome
  | delivered node sourceShard ack free => cases outcome
  | received i' st r stream running idle next after => cases outcome
  | put call place before unreturned entered brought => cases outcome
  | sent call owner i' p' before at_send sent =>
    cases outcome
    exact sent

theorem logged_step (fits : Fits s) (logged : Logged s) (stepped : Stepped s t) : Logged t := by
  constructor
  · exact entries_step fits logged stepped
  · exact sent_step fits logged stepped
  · exact arrived_step logged stepped fits
  · exact ordered_step logged stepped
  · exact put_step logged stepped
  · exact forwarded_step logged stepped

theorem sound_run {labels : List Label} (h : run (step cfg) initial labels = some s) : Fits s ∧ Logged s := by
  have kept : ∀ u a v, (Fits u ∧ Logged u) → step cfg u a = some v → Fits v ∧ Logged v := by
    intro u a v holds hs
    have stepped := step_cases hs
    exact ⟨fits_step holds.1 stepped, logged_step holds.1 holds.2 stepped⟩
  exact run_invariant_all kept ⟨fits_initial, logged_initial⟩ h

def Pc.delivered : Pc → Bool
  | .returned (.put _) | .returned (.sent _ _) => true
  | _ => false

def Placed (s : Network) (k : Nat) : Prop :=
  (∃ c ch e, s.chans c = some ch ∧ e ∈ ch.entries ∧ e.origin = k) ∨
    ∃ i st r, s.streams i = some st ∧ r ∈ st.sent ∧ r.origin = k

theorem Came.outcome {place : Place} {node : String} {sourceShard : ClusterShardID} {e : Entry}
    (came : Came s place node sourceShard e) :
    ∃ call, s.calls e.origin = some call ∧ call.via = none ∧ call.pc.delivered = true := by
  cases came with
  | own call made first outcome here shard direct same => exact ⟨call, made, first, by rw [outcome]; rfl⟩
  | forwarded call i p st made first outcome stream client server apart shard arrived carried same =>
    exact ⟨call, made, first, by rw [outcome]; rfl⟩

/- A call has only one outcome, and a stream brings its requests to one place each. -/
theorem Came.unique {place place' : Place} {node node' : String} {sourceShard sourceShard' : ClusterShardID}
    {e e' : Entry} (came : Came s place node sourceShard e) (came' : Came s place' node' sourceShard' e')
    (origin : e.origin = e'.origin) : place = place' := by
  cases came with
  | own call made first outcome here shard direct same =>
    cases came' with
    | own call' made' first' outcome' here' shard' direct' same' =>
      rw [origin, made', Option.some.injEq] at made
      rw [← made, outcome'] at outcome
      cases outcome
      rfl
    | forwarded call' i p st made' first' outcome' stream client server apart shard' arrived carried same' =>
      rw [origin, made', Option.some.injEq] at made
      rw [← made, outcome'] at outcome
      cases outcome
  | forwarded call i p st made first outcome stream client server apart shard arrived carried same =>
    cases came' with
    | own call' made' first' outcome' here' shard' direct' same' =>
      rw [origin, made', Option.some.injEq] at made
      rw [← made, outcome'] at outcome
      cases outcome
    | forwarded call' i' p' st' made' first' outcome' stream' client' server' apart' shard' arrived'
        carried' same' =>
      rw [origin, made', Option.some.injEq] at made
      rw [← made, outcome'] at outcome
      cases outcome
      rw [stream, Option.some.injEq] at stream'
      rw [← stream', arrived, Option.some.injEq] at arrived'
      exact arrived'

theorem delivered_placed (fits : Fits s) (logged : Logged s) {k : Nat} {call : Call}
    (made : s.calls k = some call) (first : call.via = none) :
    call.pc.delivered = true ↔ Placed s k := by
  have origin : call.origin = k := fits.own k call made first
  constructor
  · intro delivered
    unfold Pc.delivered at delivered
    split at delivered
    · rename_i place outcome
      obtain ⟨ch, channel, entry⟩ := logged.put k call place made outcome
      exact .inl ⟨place.chan, ch, _, channel, List.mem_of_getElem? entry, origin⟩
    · rename_i i p outcome
      obtain ⟨st, stream, request⟩ := logged.forwarded k call i p made outcome
      exact .inr ⟨i, st, _, stream, List.mem_of_getElem? request, origin⟩
    · cases delivered
  · intro placed
    rcases placed with ⟨c, ch, e, channel, member, rfl⟩ | ⟨i, st, r, stream, member, rfl⟩
    · obtain ⟨j, entry⟩ := List.getElem?_of_mem member
      obtain ⟨call', made', _, delivered⟩ := (logged.entries c ch j e channel entry).outcome
      rw [made, Option.some.injEq] at made'
      rwa [made']
    · obtain ⟨p, request⟩ := List.getElem?_of_mem member
      obtain ⟨call', sentBy⟩ := logged.sent i st p r stream request
      have made' := sentBy.made
      rw [made, Option.some.injEq] at made'
      rw [made', sentBy.outcome]
      rfl

section Samples

def sourceShard : ClusterShardID := ⟨1, 1⟩
def targetShard : ClusterShardID := ⟨2, 3⟩

def sampleConfig : Config where
  memberlist _ := true
  proxyAddress _ _ := true

/-- The source shard is registered on the second node, the first one knows of it and has a stream. -/
def settle : List Label :=
  [.setLocalAckChan 0 "proxy-b" sourceShard,
    .learn "proxy-a" ⟨"proxy-a", true, [targetShard],
      (∅ : AList fun _ : String => List ClusterShardID).insert "proxy-b" [sourceShard]⟩,
    .ensureStream 0 "proxy-a" "proxy-b" ⟨targetShard, sourceShard⟩, .streamOpened 0]

def forwardAck (k : Nat) (watermark : Int) : List Label :=
  [.deliver k "proxy-a" sourceShard ⟨targetShard, ⟨watermark, some 77⟩⟩, .move k .look,
    .move k (.route (some "proxy-b")), .sendAck k true]

def receiveAck (k : Nat) : List Label := [.receive 0 k, .move k .look, .putAck k, .resume 0]

/-- An ack is forwarded; later another one is, and both arrive. -/
def forwardedOne : Network :=
  (run (step sampleConfig) initial (settle ++ forwardAck 0 5)).getD initial

def forwardedTwo : Network :=
  (run (step sampleConfig) forwardedOne (forwardAck 1 9 ++ receiveAck 2 ++ receiveAck 3)).getD initial

def firstCall : Call :=
  ⟨"proxy-a", sourceShard, ⟨targetShard, ⟨5, some 77⟩⟩, true, 0, none, .returned (.sent 0 0)⟩

def sampleChan : AckChan :=
  ⟨"proxy-b", sourceShard,
    [⟨0, some 0, ⟨targetShard, ⟨5, none⟩⟩⟩, ⟨1, some 0, ⟨targetShard, ⟨9, none⟩⟩⟩], 0, false⟩

theorem run_forwardedOne :
    run (step sampleConfig) initial (settle ++ forwardAck 0 5) = some forwardedOne := rfl

theorem run_forwardedTwo : run (step sampleConfig) forwardedOne
    (forwardAck 1 9 ++ receiveAck 2 ++ receiveAck 3) = some forwardedTwo := rfl

end Samples

/-- In every interleaving of any number of nodes: whatever is in an ack channel comes from a call for
    the channel's shard and has the call's target and watermark, over one stream at most; no ack is
    there twice; and a call returns true exactly if its ack is in a channel or on a stream. -/
theorem acks_arrive_once_unaltered {labels : List Label} (h : run (step cfg) initial labels = some s) :
    (∀ c ch j e, s.chans c = some ch → ch.entries[j]? = some e → Came s ⟨c, j⟩ ch.node ch.sourceShard e) ∧
    (∀ (c c' j j' : Nat) (ch ch' : AckChan) (e e' : Entry), s.chans c = some ch → ch.entries[j]? = some e →
      s.chans c' = some ch' → ch'.entries[j']? = some e' → e.origin = e'.origin → c = c' ∧ j = j') ∧
    ∀ k call, s.calls k = some call → call.via = none → (call.pc.delivered = true ↔ Placed s k) := by
  obtain ⟨fits, logged⟩ := sound_run h
  refine ⟨logged.entries, ?_, fun k call => delivered_placed fits logged⟩
  intro c c' j j' ch ch' e e' channel entry channel' entry' origin
  have same : Place.mk c j = Place.mk c' j' :=
    (logged.entries c ch j e channel entry).unique (logged.entries c' ch' j' e' channel' entry') origin
  cases same
  exact ⟨rfl, rfl⟩

theorem forwarded_ack_arrives :
    run (step sampleConfig) initial ((settle ++ forwardAck 0 5) ++
        (forwardAck 1 9 ++ receiveAck 2 ++ receiveAck 3)) = some forwardedTwo ∧
      Came forwardedTwo ⟨0, 0⟩ "proxy-b" sourceShard ⟨0, some 0, ⟨targetShard, ⟨5, none⟩⟩⟩ := by
  have reached := run_append.mpr ⟨forwardedOne, run_forwardedOne, run_forwardedTwo⟩
  exact ⟨reached, (acks_arrive_once_unaltered reached).1 0 sampleChan 0 _ rfl rfl⟩

theorem put_behind (logged : Logged s) (later : Later s t) {c : Nat} {ch ch' : AckChan} {j : Nat} {e : Entry}
    (channel : s.chans c = some ch) (channel' : t.chans c = some ch') (entry : ch'.entries[j]? = some e)
    (absent : s.calls e.origin = none) : ch.entries.length ≤ j := by
  by_contra inside
  obtain ⟨ch'', channel'', more⟩ := later.chans c ch channel
  rw [channel', Option.some.injEq] at channel''
  subst channel''
  obtain ⟨rest, grown⟩ := more.entries
  rw [← grown, List.getElem?_append_left (by omega)] at entry
  obtain ⟨call, made, _⟩ := (logged.entries c ch j e channel entry).outcome
  rw [absent] at made
  cases made

theorem sent_behind (logged : Logged s) (later : Later s t) {i : Nat} {st st' : Stream} {p : Nat} {r : Request}
    (stream : s.streams i = some st) (stream' : t.streams i = some st') (request : st'.sent[p]? = some r)
    (absent : s.calls r.origin = none) : st.sent.length ≤ p := by
  by_contra inside
  obtain ⟨rest, grown⟩ := (later.extends stream stream').sent
  rw [← grown, List.getElem?_append_left (by omega)] at request
  obtain ⟨call, sentBy⟩ := logged.sent i st p r stream request
  have made := sentBy.made
  rw [absent] at made
  cases made

/-- Acks keep the order of the calls that they come from, also over a stream, and a stream loses none
    before one that arrives: when a call was begun after another one had returned and its ack is in a
    channel, then the other ack, if it went into the same channel directly, stands before it there, and if
    it went over the same stream, has arrived, and before it if in the same channel. -/
theorem acks_keep_their_order {first second : List Label} (before : run (step cfg) initial first = some s)
    (after : run (step cfg) s second = some t) {k k' : Nat} {call : Call} (made : s.calls k = some call)
    (own : call.via = none) (begun : s.calls k' = none) {c j : Nat} {ch : AckChan} {e : Entry}
    (channel : t.chans c = some ch) (entry : ch.entries[j]? = some e) (origin : e.origin = k') :
    (∀ place, call.pc = .returned (.put place) → place.chan = c → place.index < j) ∧
    ∀ i p, call.pc = .returned (.sent i p) → e.via = some i →
      ∃ (place : Place) (ch' : AckChan) (e' : Entry), t.chans place.chan = some ch' ∧
        ch'.entries[place.index]? = some e' ∧ e'.origin = k ∧ e'.via = some i ∧
        (place.chan = c → place.index < j) := by
  obtain ⟨fits, logged⟩ := sound_run before
  have whole : run (step cfg) initial (first ++ second) = some t := by
    rw [run_append]
    exact ⟨s, before, after⟩
  obtain ⟨fits', logged'⟩ := sound_run whole
  have later := later_run after
  subst origin
  have number : call.origin = k := fits.own k call made own
  constructor
  · intro place outcome same
    obtain ⟨ch₀, channel₀, entry₀⟩ := logged.put k call place made outcome
    rw [same] at channel₀
    have behind := put_behind logged later channel₀ channel entry begun
    have inside := (List.getElem?_eq_some_iff.mp entry₀).1
    omega
  · intro i p outcome carried
    obtain ⟨st, stream, request⟩ := logged.forwarded k call i p made outcome
    cases logged'.entries c ch j e channel entry with
    | own call' made' first' outcome' here shard direct same =>
      rw [carried] at direct
      cases direct
    | forwarded call' i' p' st' made' first' outcome' stream' client server apart shard arrived carried' same =>
      rw [carried, Option.some.injEq] at carried'
      subst carried'
      obtain ⟨ch₁, e₁, r, channel₁, entry₁, _, request', sameOrigin⟩ := logged'.arrived i st' p' _ stream' arrived
      rw [channel, Option.some.injEq] at channel₁
      subst channel₁
      rw [entry, Option.some.injEq] at entry₁
      subst entry₁
      have behind := sent_behind logged later stream stream' request' (by rw [← sameOrigin]; exact begun)
      have inside := (List.getElem?_eq_some_iff.mp request).1
      have arrivedInside := (List.getElem?_eq_some_iff.mp arrived).1
      have earlier : p < p' := by omega
      have reached : p < st'.arrived.length := by omega
      obtain ⟨ch₂, e₂, r₂, channel₂, entry₂, carried₂, request₂, origin₂⟩ :=
        logged'.arrived i st' p _ stream' (List.getElem?_eq_getElem reached)
      refine ⟨_, ch₂, e₂, channel₂, entry₂, ?_, carried₂, ?_⟩
      · have extended := getElem?_extends (later.extends stream stream').sent request
        rw [extended, Option.some.injEq] at request₂
        rw [origin₂, ← request₂]
        exact number
      · intro same
        have ordered := List.pairwise_iff_getElem.mp (logged'.ordered i st' stream') p p' reached
          arrivedInside earlier
        rw [(List.getElem?_eq_some_iff.mp arrived).2] at ordered
        exact ordered same

theorem forwarded_acks_in_order :
    ∃ (place : Place) (ch' : AckChan) (e' : Entry), forwardedTwo.chans place.chan = some ch' ∧
      ch'.entries[place.index]? = some e' ∧ e'.origin = 0 ∧ e'.via = some 0 ∧
        (place.chan = 0 → place.index < 1) := by
  have made : forwardedOne.calls 0 = some firstCall := rfl
  have begun : forwardedOne.calls 1 = none := rfl
  have channel : forwardedTwo.chans 0 = some sampleChan := rfl
  exact (acks_keep_their_order run_forwardedOne run_forwardedTwo made rfl begun channel rfl rfl).2 0 0 rfl rfl

end AckForwarding
