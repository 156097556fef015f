import S2SProxy.Lib.LoopExit
import S2SProxy.StreamSender

/- The delivery loops and their shutdown handles. recvAck (over shardToAck and over pendingPrev)
   and proxyStreamReceiver.recvReplicationMessages (over tasksByTargetShard) look at the handle
   before each pass; intraProxyStreamReceiver.recvReplicationMessages looks at it only when it
   has found a channel. How long an iteration sleeps does not matter here. -/
namespace RetryTermination
open ShardData LoopExit

/-- How the select on a channel that was found ends: the message is sent, the send panics
    because the channel is closed and the panic is recovered, or the shutdown is seen. -/
inductive Selected where
  | sent
  | panicked
  | shutdown
  deriving DecidableEq, Repr

structure Turn where
  /-- The order in which the map yields its keys, when a pass begins. -/
  order : List ClusterShardID
  found : Option Selected
  remote : Bool
  shutdown : Bool

def deliverToShardOwner (e : Turn) : Bool :=
  match e.found with
  | some .sent => true
  | some .panicked | some .shutdown => if e.shutdown then false else e.remote
  | none => e.remote

inductive LoopEnd where
  | finished
  | abandoned
  deriving DecidableEq, Repr

/-- One attempt of the running pass, or the head of the loop and the beginning of a pass. -/
def retryBody (l : RetryLoop ClusterShardID) (e : Turn) : Outcome (RetryLoop ClusterShardID) LoopEnd :=
  match l.pass with
  | _ :: _ => .again (l.settle (deliverToShardOwner e))
  | [] =>
    if l.remaining = [] then .exit .finished
    else if e.shutdown then .exit .abandoned
    else .again { l with pass := e.order.filter (· ∉ l.sent) }

structure IntraLoop where
  sent : Bool
  logged : Bool
  backoff : Nat
  deriving DecidableEq, Repr

def intraBody (s : IntraLoop) (e : Turn) : Outcome IntraLoop LoopEnd :=
  if s.sent then .exit .finished
  else
    match e.found with
    | some selected =>
      if e.shutdown then .exit .abandoned else .again { s with sent := selected = .sent }
    | none =>
      -- No look at the shutdown handle on this path.
      .again { s with
        logged := true, backoff := if s.backoff < 1000 then s.backoff * 2 else s.backoff }

/- Once shut down, a retry loop finishes the running pass and begins no other. -/
theorem retryBody_lowers {l l' : RetryLoop ClusterShardID} {e : Turn} (down : e.shutdown = true)
    (h : retryBody l e = .again l') : l'.pass.length < l.pass.length := by
  unfold retryBody at h
  cases running : l.pass with
  | cons k rest =>
    rw [running] at h
    cases h
    simp only [RetryLoop.settle, running]
    split <;> simp
  | nil =>
    simp only [running, down, ↓reduceIte] at h
    split at h
    · cases h
    · cases h

theorem intraBody_leaves {s : IntraLoop} {e : Turn} (down : e.shutdown = true) (unsent : s.sent = false)
    (found : e.found ≠ none) : ∃ r, intraBody s e = .exit r := by
  obtain ⟨selected, here⟩ := Option.ne_none_iff_exists'.mp found
  exact ⟨.abandoned, by simp [intraBody, unsent, here, down]⟩

theorem intraBody_stays {s : IntraLoop} {e : Turn} (unsent : s.sent = false) (absent : ¬ e.found ≠ none) :
    ∃ t, intraBody s e = .again t ∧ t.sent = false := by
  have missing : e.found = none := not_not.mp absent
  exact ⟨⟨false, true, if s.backoff < 1000 then s.backoff * 2 else s.backoff⟩,
    by simp [intraBody, unsent, missing], rfl⟩

/- With the message unsent only a channel that is found leads out of the loop. -/
theorem intra_exits_iff {env : Nat → Turn} (down : ∀ k, (env k).shutdown = true) {s : IntraLoop}
    (unsent : s.sent = false) : Exits intraBody env s ↔ ∃ k, (env k).found ≠ none := by
  refine exits_iff_stopped (fun s : IntraLoop => s.sent = false) (fun e : Turn => e.found ≠ none)
    ?_ ?_ unsent
  · intro k s waiting found
    exact intraBody_leaves (down k) waiting found
  · intro k s waiting absent
    exact intraBody_stays waiting absent

theorem retry_loops_exit_iff_channel_found (env : Nat → Turn) (down : ∀ k, (env k).shutdown = true) :
    (∀ l : RetryLoop ClusterShardID, Exits retryBody env l) ∧
    ∀ s : IntraLoop, Exits intraBody env s ↔ s.sent = true ∨ ∃ k, (env k).found ≠ none := by
  constructor
  · exact exits_of_measure (fun l => l.pass.length) fun k l l' h => retryBody_lowers (down k) h
  · intro s
    cases sent : s.sent with
    | true =>
      have left : intraBody s (env 0) = .exit .finished := by simp [intraBody, sent]
      exact ⟨fun _ => .inl rfl, fun _ => ⟨1, _, iterate_exit left⟩⟩
    | false => simpa using intra_exits_iff down sent

/-- A shutdown while the channel is missing; at the third iteration it is there, closed. -/
theorem retry_loops_exit_iff_channel_found_late :
    Exits intraBody (fun k => ⟨[], if k = 2 then some .panicked else none, false, true⟩)
      ⟨false, false, 10⟩ :=
  ((retry_loops_exit_iff_channel_found
    (fun k => ⟨[], if k = 2 then some .panicked else none, false, true⟩) (fun _ => rfl)).2
      ⟨false, false, 10⟩).mpr (.inr ⟨2, by simp⟩)

/-- Shut down, and the target shard never registers again: the loop goes on for ever. -/
theorem absent_channel_keeps_loop_running :
    ¬ Exits intraBody (fun _ => ⟨[], none, false, true⟩) ⟨false, false, 10⟩ := by
  intro exits
  obtain ⟨k, found⟩ := (intra_exits_iff (fun _ => rfl) rfl).mp exits
  exact found rfl

/- The loop of recvAck in the sender's model: every iteration is one of its steps. -/
theorem retryBody_is_step {s : StreamSender.SenderRun} {fresh : Bool} {acks : ShardMap} {count : Nat}
    {loop : RetryLoop ClusterShardID} (phase : s.ackPhase = .forwarding fresh acks count loop)
    {e : Turn} (order : e.order.Perm loop.keys) (handle : e.shutdown = s.shutdown) :
    match retryBody loop e with
    | .again loop' => ∃ a t, StreamSender.step s a = some t ∧
        t.ackPhase = .forwarding fresh acks count loop'
    | .exit .finished => ∃ t, StreamSender.step s .finishRound = some t
    | .exit .abandoned => ∃ t, StreamSender.step s .abandonRound = some t := by
  unfold retryBody
  cases running : loop.pass with
  | cons k rest =>
    have current : loop.current = some k := by simp [RetryLoop.current, running]
    refine ⟨.attempt (deliverToShardOwner e), ?_⟩
    simp only [StreamSender.step, phase, current, Option.map_some]
    split
    · exact ⟨_, rfl, rfl⟩
    · exact ⟨_, rfl, rfl⟩
  | nil =>
    dsimp only
    by_cases none : loop.remaining = []
    · rw [if_pos none]
      have done : loop.done = true := by simp [RetryLoop.done, running, none]
      exact ⟨StreamSender.afterFinishRound s count, by simp [StreamSender.step, phase, done]⟩
    · rw [if_neg none]
      cases down : e.shutdown with
      | true =>
        have shut : s.shutdown = true := handle.symm.trans down
        exact ⟨StreamSender.withPhase s .stopped,
          by simp [StreamSender.step, phase, running, none, shut]⟩
      | false =>
        have begun : loop.beginPass e.order =
            some { loop with pass := e.order.filter (· ∉ loop.sent) } := by
          simp [RetryLoop.beginPass, running, none, order]
        exact ⟨.beginPass e.order, StreamSender.withPhase s (.forwarding fresh acks count
          { loop with pass := e.order.filter (· ∉ loop.sent) }),
          by simp [StreamSender.step, phase, begun], rfl⟩

end RetryTermination
