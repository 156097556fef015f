import S2SProxy.ReplicationSystem
import S2SProxy.RoutingOrder
import S2SProxy.SenderSafety

/- How the parts of the system fit together in every run: each sender is sound, and what it
   has numbered is the beginning of what was put into its channel. -/
namespace ReplicationSystem
open ShardData Routing StreamSender GuardedRuns

structure PeerSound (s : System) (c : Nat) : Prop where
  sound : Sound (s.peer c).sender
  transmitted : Transmitted (s.peer c).sender
  taken : (s.plane.chan c).taken ≤ (s.plane.chan c).puts.length
  log : (s.peer c).sender.log.allocated =
    ((s.plane.chan c).puts.take (s.plane.chan c).taken).flatMap entriesOf

structure Wired (s : System) : Prop where
  addressed : Addressed s.plane
  peers : ∀ c, PeerSound s c

@[simp] theorem withPeer_peer (s : System) (c c' : Nat) (f : Peer → Peer) :
    (withPeer s c f).peer c' = if c' = c then f (s.peer c) else s.peer c' := by
  simp only [withPeer, Function.update_apply]

@[simp] theorem afterSender_peer (s : System) (c c' : Nat) (sender : SenderRun) (acks : List Int)
    (toChan toRelay : List RoutedAck) :
    (afterSender s c sender acks toChan toRelay).peer c' =
      if c' = c then { s.peer c with sender := sender, acks := acks } else s.peer c' := by
  simp only [afterSender, withPeer, Function.update_apply]

theorem withPeer_sender (s : System) (c c' : Nat) {f : Peer → Peer}
    (kept : ∀ p, (f p).sender = p.sender) :
    ((withPeer s c f).peer c').sender = (s.peer c').sender := by
  rw [withPeer_peer]
  split
  · next here => rw [kept, here]
  · rfl

theorem PeerSound.congr {s t : System} {c : Nat} (h : PeerSound s c)
    (sender : (t.peer c).sender = (s.peer c).sender) (chan : t.plane.chan c = s.plane.chan c) :
    PeerSound t c :=
  ⟨sender ▸ h.sound, sender ▸ h.transmitted, chan ▸ h.taken, by rw [sender, chan]; exact h.log⟩

theorem initial_wired (cfg : Config) : Wired (initial cfg) := by
  refine ⟨initial_addressed cfg, fun c => ⟨new_sound 1024, new_transmitted 1024, ?_, rfl⟩⟩
  exact Nat.le_refl _

theorem PeerSound.ofPlane {cfg : Config} {s : System} {plane : Plane} {a : Label} {c : Nat}
    (h : PeerSound s c) (addressed : Addressed s.plane) (other : a ≠ .take c)
    (stepped : Routing.step cfg s.plane a = some plane) :
    (plane.chan c).taken ≤ (plane.chan c).puts.length ∧
    (s.peer c).sender.log.allocated =
      ((plane.chan c).puts.take (plane.chan c).taken).flatMap entriesOf := by
  obtain ⟨e, _, after⟩ := step_puts addressed stepped
  obtain ⟨puts, _, taken⟩ := after c
  rw [taken other, puts, List.length_append, List.take_append_of_le_length h.taken]
  exact ⟨Nat.le_add_right_of_le h.taken, h.log⟩

theorem PeerSound.ofTake {cfg : Config} {s : System} {plane : Plane} {c : Nat} {m : RoutedMessage}
    {sender : SenderRun} (h : PeerSound s c)
    (head : (s.plane.chan c).puts[(s.plane.chan c).taken]? = some m)
    (taken : Routing.step cfg s.plane (.take c) = some plane)
    (stepped : StreamSender.step (s.peer c).sender (.sendMessage m) = some sender) :
    (plane.chan c).taken ≤ (plane.chan c).puts.length ∧
    sender.log.allocated = ((plane.chan c).puts.take (plane.chan c).taken).flatMap entriesOf := by
  have inside := (List.getElem?_eq_some_iff.mp head).1
  simp only [Routing.step, act, if_pos inside, Option.map_some, Option.some.injEq, apply] at taken
  subst taken
  simp only [withChan_chan, ↓reduceIte]
  refine ⟨inside, ?_⟩
  rw [step_allocated stepped, h.log, List.take_add_one, head, List.flatMap_append]
  simp [SenderLabel.entries]

theorem step_wired {cfg : Config} {s t : System} {a : SystemLabel} (h : Wired s)
    (hs : step cfg s a = some t) : Wired t := by
  cases step_inv hs with
  | plane notTake stepped =>
    refine ⟨step_addressed h.addressed stepped, fun c => ?_⟩
    obtain ⟨taken, log⟩ := (h.peers c).ofPlane h.addressed (notTake c) stepped
    exact ⟨(h.peers c).sound, (h.peers c).transmitted, taken, log⟩
  | @take c m plane sender head taken stepped =>
    refine ⟨step_addressed h.addressed taken, fun c' => ?_⟩
    have p := h.peers c'
    by_cases here : c' = c
    · subst here
      obtain ⟨bound, log⟩ := p.ofTake head taken stepped
      have own : ({ withPeer s c' fun p => { p with sender := sender } with
          plane := plane } : System).peer c' = { s.peer c' with sender := sender } := by
        simp [withPeer]
      exact ⟨by rw [own]; exact step_sound p.sound stepped,
        by rw [own]; exact step_transmitted p.sound p.transmitted stepped, bound, by rw [own]; exact log⟩
    · have own : ({ withPeer s c fun p => { p with sender := sender } with
          plane := plane } : System).peer c' = s.peer c' := by
        simp [withPeer, here]
      have other : Label.take c ≠ .take c' := fun same => here (Label.take.inj same).symm
      obtain ⟨bound, log⟩ := p.ofPlane h.addressed other taken
      exact ⟨by rw [own]; exact p.sound, by rw [own]; exact p.transmitted, bound, by rw [own]; exact log⟩
  | @sender c l sender acks toChan toRelay noMessage incoming stepped outgoing =>
    refine ⟨h.addressed, fun c' => ?_⟩
    have p := h.peers c'
    have allocated := step_allocated stepped
    rw [noMessage, List.append_nil] at allocated
    by_cases here : c' = c
    · subst here
      refine ⟨?_, ?_, p.taken, ?_⟩ <;> rw [afterSender_peer, if_pos rfl]
      · exact step_sound p.sound stepped
      · exact step_transmitted p.sound p.transmitted stepped
      · exact allocated.trans p.log
    · refine ⟨?_, ?_, p.taken, ?_⟩ <;> rw [afterSender_peer, if_neg here]
      · exact p.sound
      · exact p.transmitted
      · exact p.log
  | process => exact ⟨h.addressed, fun c' => (h.peers c').congr (withPeer_sender s _ c' fun _ => rfl) rfl⟩
  | targetAck allowed =>
    exact ⟨h.addressed, fun c' => (h.peers c').congr (withPeer_sender s _ c' fun _ => rfl) rfl⟩
  | relayAck | takeAck | sendUp | keepalive =>
    exact ⟨h.addressed, fun c' => (h.peers c').congr rfl rfl⟩

theorem Wired.allocated_pipe {s : System} (h : Wired s) (c : Nat) :
    (s.peer c).sender.log.allocated <+: (s.plane.chan c).pipe := by
  rw [(h.peers c).log, SendChan.pipe]
  exact (List.take_prefix _ _).flatMap _

structure PeerGrows (p q : Peer) : Prop where
  allocated : p.sender.log.allocated <+: q.sender.log.allocated
  processed : p.processed ⊆ q.processed
  acked : p.acks ++ p.sender.received ⊆ q.acks ++ q.sender.received

theorem PeerGrows.refl (p : Peer) : PeerGrows p p :=
  ⟨List.prefix_refl _, List.Subset.refl _, List.Subset.refl _⟩

theorem PeerGrows.ofSender {p : Peer} {l : SenderLabel} {sender : SenderRun} {acks : List Int}
    (incoming : p.acks = l.watermarks ++ acks) (stepped : StreamSender.step p.sender l = some sender) :
    PeerGrows p { p with sender := sender, acks := acks } := by
  refine ⟨step_allocated stepped ▸ List.prefix_append _ _, List.Subset.refl _, ?_⟩
  intro w member
  rw [incoming] at member
  simp only [step_received stepped, List.mem_append] at member ⊢
  tauto

theorem withPeer_grows {s : System} {c : Nat} (f : Peer → Peer)
    (grows : PeerGrows (s.peer c) (f (s.peer c))) (c' : Nat) :
    PeerGrows (s.peer c') ((withPeer s c f).peer c') := by
  rw [withPeer_peer]
  split
  · next here => exact here ▸ grows
  · exact .refl _

theorem step_peers {cfg : Config} {s t : System} {a : SystemLabel} (hs : step cfg s a = some t)
    (c : Nat) : PeerGrows (s.peer c) (t.peer c) := by
  cases step_inv hs with
  | @take c' m plane sender head taken stepped =>
    exact withPeer_grows (fun p => { p with sender := sender }) (.ofSender rfl stepped) c
  | @sender c' l sender acks toChan toRelay noMessage incoming stepped outgoing =>
    exact withPeer_grows (fun p => { p with sender := sender, acks := acks })
      (.ofSender incoming stepped) c
  | @process c' id =>
    exact withPeer_grows _ ⟨List.prefix_refl _, List.subset_cons_self _ _, List.Subset.refl _⟩ c
  | @targetAck c' w allowed =>
    refine withPeer_grows _ ⟨List.prefix_refl _, List.Subset.refl _, ?_⟩ c
    intro w' member
    simp only [List.mem_append] at member ⊢
    tauto
  | plane | relayAck | takeAck | sendUp | keepalive => exact .refl _

end ReplicationSystem
