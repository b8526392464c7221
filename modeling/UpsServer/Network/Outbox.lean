import UpsServer.Network.Dialogue

/-!
# Everything that was ever registered

A packet is registered, waits in the queue, is held by `Sender::run` and is sent. The outbox lists
the packets in all four places in the order in which they were registered. Handling a command
appends the messages of the table to it, and no other step changes it.
-/

namespace UpsServer

open Framework CommandManager

/-- Every packet ever handed to `Sender`, in order: sent, in hand, and waiting. -/
def State.outbox (s : State) : List OutPacket := s.sentLog.map Delivery.packet ++ s.outgoing

/-- The messages that a step registers. -/
def toldBy (s : State) : Action → List Message
  | .runCommand =>
    match s.commandQueue with
    | [] => []
    | command :: rest => told (s.withCommands rest) command.message
  | _ => []

/-- The messages went to the end of the outbox. -/
structure Appends (s t : State) (messages : List Message) : Prop where
  outbox : ∃ packets : List OutPacket, t.outbox = s.outbox ++ packets ∧
    packets.map OutPacket.message = messages ∧ ∀ packet ∈ packets, packet.MadeIn s

namespace Appends

variable {s t : State}

theorem of_eq (h : t.outbox = s.outbox) : Appends s t [] :=
  ⟨[], by rw [h, List.append_nil], rfl, by simp⟩

theorem of_tells {messages : List Message} (h : Tells s t messages) : Appends s t messages := by
  obtain ⟨packets, hqueue, hmessages, hmade⟩ := h.queue
  refine ⟨packets, ?_, hmessages, hmade⟩
  rw [State.outbox, State.outbox, State.outgoing, State.outgoing, h.log, h.hand, hqueue,
    List.append_assoc, List.append_assoc]

/-- Nothing that belongs to `Sender` changes. -/
theorem idle (hand : t.senderHand = s.senderHand) (log : t.sentLog = s.sentLog)
    (queue : t.pQueue = s.pQueue) : Appends s t [] :=
  of_tells (.nothing hand log queue)

theorem of_disconnection {fd : Int} (closed : Disconnection s fd t) : Appends s t [] := by
  cases closed with
  | left => exact idle rfl rfl rfl
  | stays => exact idle rfl rfl rfl

end Appends

/-- **Nothing is lost or reordered on the way out**: a step appends what it tells. -/
theorem appends_exec {s t : State} {a : Action} (enabled : System.Enabled s a)
    (h : System.exec s a = .ok t) : Appends s t (toldBy s a) := by
  cases a with
  | accept fd nameSet =>
    simp only [System.exec, Server.acceptConnection] at h
    split at h
    · cases h
    · rw [← Except.ok.inj h]
      exact .idle rfl rfl rfl
  | receive fd data =>
    obtain ⟨_, _, h⟩ := bind_eq_ok_iff.mp h
    rw [← Except.ok.inj h]
    exact .idle rfl rfl rfl
  | peerClosed fd => exact .of_disconnection (Server.disconnection_effect h)
  | popPacket =>
    rw [← Except.ok.inj h]
    unfold PacketManager.popPacket
    split <;> exact .idle rfl rfl rfl
  | resolvePacket =>
    simp only [System.exec] at h
    split at h
    · rcases resolvePacket_eq_ok h with ⟨mess, _, rfl⟩ | ⟨_, hinvalid⟩
      · exact .idle rfl rfl rfl
      · -- an invalid packet is ignored, counted, or ends its connection
        rcases countInvalid_eq_ok hinvalid with rfl | ⟨p, rfl | hclosed⟩
        · exact .idle rfl rfl rfl
        · exact .idle rfl rfl rfl
        · have hqueues := QueuesFor.of_disconnection hclosed
          have hqueue : t.pQueue = s.pQueue := by cases hclosed <;> rfl
          exact .idle hqueues.hand hqueues.log hqueue
    · rw [← Except.ok.inj h]
      exact .idle rfl rfl rfl
  | registerResolved =>
    simp only [System.exec] at h
    split at h <;> rw [← Except.ok.inj h] <;> exact .idle rfl rfl rfl
  | runCommand =>
    obtain ⟨command, rest, hqueue⟩ := List.exists_cons_of_ne_nil enabled
    rw [exec_runCommand hqueue] at h
    have htells := dispatch_tells h
    simp only [toldBy, hqueue]
    exact .of_tells (htells.after ⟨rfl, rfl, rfl, fun _ => rfl⟩)
  | popOutgoing =>
    rw [← Except.ok.inj h]
    obtain ⟨packet, rest, hqueue⟩ := List.exists_cons_of_ne_nil enabled.2
    refine .of_eq ?_
    -- the hand was empty, so the packet keeps its place
    simp [Sender.popOutgoing, hqueue, State.outbox, State.outgoing, enabled.1]
  | sendOutgoing =>
    rw [← Except.ok.inj h]
    obtain ⟨packet, hhand⟩ := Option.ne_none_iff_exists'.mp enabled
    refine .of_eq ?_
    simp [Sender.sendOutgoing, hhand, State.outbox, State.outgoing]

end UpsServer
