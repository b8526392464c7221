import UpsServer.Network.Connections

/-!
# Who sent a command

A packet remembers a descriptor only. When `PacketManager` resolves it, the descriptor may be
closed, or lead to another client by then, or its player may have left the list. A command
carries the player whose connection delivered the packet as long as none of this happened.
-/

namespace UpsServer

open Framework CommandManager

/-- The connection that delivered the packet is still open and its player is listed. -/
def StillConnected (s : State) (packet : Packet) : Prop :=
  s.descriptors packet.socket = some packet.owner ∧ packet.owner ∈ s.players

instance (s : State) (packet : Packet) : Decidable (StillConnected s packet) :=
  inferInstanceAs (Decidable (_ ∧ _))

/-- The packet decodes to a message. -/
def decodes (packet : Packet) : Bool :=
  match Serializer.deserialize packet.data with
  | .ok (some _) => true
  | _ => false

/-- The condition on a step: a packet with a message is resolved while its connection lasts. -/
def ResolvedInTime (s : State) (a : Action) : Prop :=
  a = .resolvePacket → ∀ packet ∈ s.packetStage.packet, decodes packet = true →
    StillConnected s packet

instance (s : State) (a : Action) : Decidable (ResolvedInTime s a) :=
  inferInstanceAs (Decidable (_ → ∀ packet ∈ s.packetStage.packet, _ → _))

/-- The command carries the player whose connection delivered it. -/
def Command.Attributed (command : Command) : Prop :=
  ∃ p, command.message.player = some p ∧ command.origin = some p

/-- All commands made from packets are attributed: the one in `PacketManager`'s hand, those
    ever registered and those in the queue. -/
structure AllAttributed (s : State) : Prop where
  stage : ∀ command, s.packetStage = .resolved command → command.Attributed
  handed : ∀ command ∈ s.handedLog, command.Attributed
  queue : ∀ command ∈ s.commandQueue, command.origin ≠ none → command.Attributed

namespace AllAttributed

variable {s t : State}

theorem keep (h : AllAttributed s) (stage : t.packetStage = s.packetStage)
    (handed : t.handedLog = s.handedLog)
    (queue : ∀ command ∈ t.commandQueue, command ∈ s.commandQueue ∨ command.origin = none) :
    AllAttributed t where
  stage command hcommand := h.stage command (stage ▸ hcommand)
  handed command hcommand := h.handed command (handed ▸ hcommand)
  queue command hcommand horigin :=
    h.queue command ((queue command hcommand).resolve_right horigin) horigin

theorem disconnected {fd : Int} (h : AllAttributed s) (closed : Disconnection s fd t) :
    AllAttributed t := by
  cases closed with
  | left => exact h.keep rfl rfl fun _ hmem => Or.inl hmem
  | stays =>
    refine h.keep rfl rfl fun command hmem => ?_
    -- the new command is the server's own and has no origin
    rcases List.mem_append.mp hmem with hmem | hmem
    · exact Or.inl hmem
    · exact Or.inr (by rw [List.mem_singleton.mp hmem])

theorem handled {mess : Message} (h : AllAttributed s) (effect : Effect s mess t) :
    AllAttributed t := by
  have htraffic := effect.sameTraffic
  cases effect with
  | disconnected _ _ _ closed => exact h.disconnected closed
  | reconnected =>
    exact h.keep htraffic.packetStage htraffic.handedLog
      fun _ hmem => Or.inl (by simpa [handedOver] using hmem)
  | _ => exact h.keep rfl rfl fun _ hmem => Or.inl hmem

theorem exec {a : Action} (h : AllAttributed s) (hreach : System.Reachable s)
    (hguard : ResolvedInTime s a) (hexec : System.exec s a = .ok t) : AllAttributed t := by
  have same : t = s → AllAttributed t := fun heq => heq ▸ h
  cases a with
  | accept fd nameSet =>
    simp only [System.exec, Server.acceptConnection] at hexec
    split at hexec
    · cases hexec
    · rw [← Except.ok.inj hexec]
      exact h.keep rfl rfl fun _ hmem => Or.inl hmem
  | receive fd data =>
    obtain ⟨_, _, hexec⟩ := bind_eq_ok_iff.mp hexec
    rw [← Except.ok.inj hexec]
    exact h.keep rfl rfl fun _ hmem => Or.inl hmem
  | peerClosed fd => exact h.disconnected (Server.disconnection_effect hexec)
  | popPacket =>
    rw [← Except.ok.inj hexec]
    unfold PacketManager.popPacket
    split
    · exact h
    · -- a packet in hand is no command yet
      exact ⟨fun _ hcommand => (by cases hcommand), h.handed, h.queue⟩
  | resolvePacket =>
    simp only [System.exec] at hexec
    split at hexec
    · rename_i packet hstage
      rcases resolvePacket_eq_ok hexec with ⟨mess, hmess, rfl⟩ | ⟨_, hinvalid⟩
      · -- the guard makes the look-up find the owner of the packet
        have hconnected : StillConnected s packet :=
          hguard rfl packet (by rw [hstage]; rfl) (by rw [decodes, hmess])
        have hfound : Server.getPlayerBySocket s packet.socket = some packet.owner :=
          (connections_of_reachable hreach).getPlayerBySocket_eq_some_iff.mpr hconnected
        refine ⟨fun command hcommand => ?_, h.handed, h.queue⟩
        rw [← PacketStage.resolved.inj hcommand]
        exact ⟨packet.owner, hfound, rfl⟩
      · -- an invalid packet makes no command, but it may end its connection
        have hidle : AllAttributed { s with packetStage := .idle } :=
          ⟨fun _ hcommand => (by cases hcommand), h.handed, h.queue⟩
        have hcounted : ∀ p, AllAttributed (countOne { s with packetStage := .idle } p) :=
          fun _ => hidle.keep rfl rfl fun _ hmem => Or.inl hmem
        rcases countInvalid_eq_ok hinvalid with rfl | ⟨p, rfl | hclosed⟩
        · exact hidle
        · exact hcounted p
        · exact (hcounted p).disconnected hclosed
    · exact same (Except.ok.inj hexec).symm
  | registerResolved =>
    simp only [System.exec] at hexec
    split at hexec
    · rename_i command hstage
      rw [← Except.ok.inj hexec]
      -- the command moves from the hand into the queue and the log
      have hnew := h.stage command hstage
      refine ⟨fun _ hcommand => (by cases hcommand), fun c hc => ?_, fun c hc horigin => ?_⟩
      · rcases List.mem_append.mp hc with hc | hc
        · exact h.handed c hc
        · rw [List.mem_singleton.mp hc]
          exact hnew
      · rcases List.mem_append.mp hc with hc | hc
        · exact h.queue c hc horigin
        · rw [List.mem_singleton.mp hc]
          exact hnew
    · exact same (Except.ok.inj hexec).symm
  | runCommand =>
    simp only [System.exec, System.runCommand] at hexec
    split at hexec
    · exact same (Except.ok.inj hexec).symm
    · rename_i command rest hqueue
      have hpop : AllAttributed (s.withCommands rest) :=
        h.keep rfl rfl fun c hc => Or.inl (by rw [hqueue]; exact List.mem_cons_of_mem _ hc)
      exact hpop.handled (dispatch_effect hexec)
  | popOutgoing =>
    rw [← Except.ok.inj hexec]
    unfold Sender.popOutgoing
    split <;> exact h.keep rfl rfl fun _ hmem => Or.inl hmem
  | sendOutgoing =>
    rw [← Except.ok.inj hexec]
    unfold Sender.sendOutgoing
    split <;> exact h.keep rfl rfl fun _ hmem => Or.inl hmem

end AllAttributed

/-- The condition is exact: a popped packet that decodes yields an attributed command exactly
    when its connection still lasts. -/
theorem attributed_iff_stillConnected {s t : State} {packet : Packet} {command : Command}
    (h : System.Reachable s) (hstage : s.packetStage = .popped packet)
    (hexec : System.exec s .resolvePacket = .ok t)
    (hcommand : t.packetStage = .resolved command) :
    command.Attributed ↔ StillConnected s packet := by
  simp only [System.exec, hstage] at hexec
  rcases resolvePacket_eq_ok hexec with ⟨mess, _, rfl⟩ | ⟨_, hinvalid⟩
  · -- what `getPlayerBySocket` returns is what the descriptor leads to now
    have hconn := connections_of_reachable h
    rw [← PacketStage.resolved.inj hcommand]
    constructor
    · rintro ⟨p, hp, hown⟩
      obtain rfl : packet.owner = p := Option.some.inj hown
      exact hconn.getPlayerBySocket_eq_some_iff.mp hp
    · intro hconnected
      exact ⟨packet.owner, hconn.getPlayerBySocket_eq_some_iff.mpr hconnected, rfl⟩
  · rw [(countInvalid_sameTraffic hinvalid).packetStage] at hcommand
    cases hcommand

theorem allAttributed_of_resolvedInTime {s : State}
    (h : System.ReachableUnder ResolvedInTime s) : AllAttributed s := by
  refine Machine.ReachableFrom.invariant h ⟨fun _ hc => (by cases hc), fun _ hc => (by cases hc),
    fun _ hc => (by cases hc)⟩ ?_
  intro t u a hreach hall _ hguard hexec
  exact hall.exec (Machine.ReachableUnder.reachable hreach) hguard hexec

/-- **Attribution**: a resolved packet makes a command of the player whose connection delivered
    it exactly when that connection still lasts; so in every run whose packets are all resolved
    in time, every command made from a packet carries that player. -/
theorem commands_are_attributed (s : State) (h : System.Reachable s) :
    (∀ packet command t, s.packetStage = .popped packet →
      System.exec s .resolvePacket = .ok t → t.packetStage = .resolved command →
      (command.Attributed ↔ StillConnected s packet)) ∧
    (System.ReachableUnder ResolvedInTime s →
      (∀ command ∈ s.handedLog, command.Attributed) ∧
        ∀ command ∈ s.commandQueue, command.origin ≠ none → command.Attributed) := by
  constructor
  · intro packet command t hstage hexec hcommand
    exact attributed_iff_stillConnected h hstage hexec hcommand
  · intro hintime
    have hall := allAttributed_of_resolvedInTime hintime
    exact ⟨hall.handed, hall.queue⟩

/-- A packet is resolved after its descriptor went to the next client. -/
def reusedDescriptor : List Action :=
  [.accept 5 false, .receive 5 (System.clientPacket H_C_PING []), .peerClosed 5,
    .accept 5 false, .popPacket, .resolvePacket, .registerResolved]

/-- In some run a command carries another client's player. -/
theorem commands_are_misattributed :
    ¬ ∀ s, System.Reachable s → ∀ command ∈ s.handedLog, command.Attributed := by
  intro h
  have hcommand := h _ (System.reachable_after reusedDescriptor)
    ⟨⟨H_C_PING, [], [], some 1⟩, some 0⟩ (by decide +kernel)
  -- the origin is connection 0, the player is 1
  obtain ⟨p, hplayer, horigin⟩ := hcommand
  cases hplayer
  cases horigin

/-- A packet is resolved in time. -/
def resolvedInTime : List Action :=
  [.accept 5 false, .receive 5 (System.clientPacket H_C_PING []), .popPacket, .resolvePacket,
    .registerResolved]

theorem commands_are_attributed_ping :
    (System.machine.after ResolvedInTime resolvedInTime).handedLog.length = 1 ∧
      ∀ command ∈ (System.machine.after ResolvedInTime resolvedInTime).handedLog,
        command.Attributed :=
  have hreach := Machine.reachableUnder_after (M := System.machine) resolvedInTime
  have hattributed := commands_are_attributed
    (System.machine.after ResolvedInTime resolvedInTime) (Machine.ReachableUnder.reachable hreach)
  ⟨by decide +kernel, (hattributed.2 hreach).1⟩

end UpsServer
