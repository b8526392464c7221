import UpsServer.Network.Effects
import UpsServer.Network.System

/-!
# What a step can do

Most steps only move data through the queues. `WorldStep` lists the others: a connection is
accepted, a connection ends, a command is handled. The rules at the end turn this list into
induction rules for invariants, so that an invariant is proved from four cases and never looks
at the threads again.
-/

namespace UpsServer

open Framework CommandManager

/-! ## Steps that only move data -/

/-- Both states have the same players, games and connections. Queues, logs, what the threads
    hold and the counters of invalid packets may differ. -/
structure SameWorld (s t : State) : Prop where
  players : t.players = s.players
  player : ∀ p, ∃ n, t.player p = { s.player p with bullshitMessages := n }
  nextPlayer : t.playerHeap.next = s.playerHeap.next
  game : ∀ g, t.game g = s.game g
  nextGame : t.gameHeap.next = s.gameHeap.next
  games : t.games = s.games
  maxGameId : t.maxGameId = s.maxGameId
  descriptors : t.descriptors = s.descriptors

namespace SameWorld

variable {s t : State}

/-- Nothing but queues, logs and what the threads hold differs. -/
theorem of_eq (playerHeap : t.playerHeap = s.playerHeap) (players : t.players = s.players)
    (gameHeap : t.gameHeap = s.gameHeap) (games : t.games = s.games)
    (maxGameId : t.maxGameId = s.maxGameId) (descriptors : t.descriptors = s.descriptors) :
    SameWorld s t where
  players := players
  player := fun p => ⟨(s.player p).bullshitMessages, by
    rw [State.player, playerHeap]
    rfl⟩
  nextPlayer := by rw [playerHeap]
  game := fun g => by rw [State.game, gameHeap]; rfl
  nextGame := by rw [gameHeap]
  games := games
  maxGameId := maxGameId
  descriptors := descriptors

theorem trans {u : State} (h : SameWorld s t) (h' : SameWorld t u) : SameWorld s u where
  players := h'.players.trans h.players
  player := fun p => by
    obtain ⟨_, hn⟩ := h.player p
    obtain ⟨m, hm⟩ := h'.player p
    exact ⟨m, by rw [hm, hn]⟩
  nextPlayer := h'.nextPlayer.trans h.nextPlayer
  game := fun g => (h'.game g).trans (h.game g)
  nextGame := h'.nextGame.trans h.nextGame
  games := h'.games.trans h.games
  maxGameId := h'.maxGameId.trans h.maxGameId
  descriptors := h'.descriptors.trans h.descriptors

theorem name (h : SameWorld s t) (p : PlayerRef) : (t.player p).name = (s.player p).name := by
  obtain ⟨n, hn⟩ := h.player p
  rw [hn]

theorem inGame (h : SameWorld s t) (p : PlayerRef) :
    (t.player p).inGame = (s.player p).inGame := by
  obtain ⟨n, hn⟩ := h.player p
  rw [hn]

theorem lost (h : SameWorld s t) (p : PlayerRef) : (t.player p).lost = (s.player p).lost := by
  obtain ⟨n, hn⟩ := h.player p
  rw [hn]

theorem socket (h : SameWorld s t) (p : PlayerRef) :
    (t.player p).socket = (s.player p).socket := by
  obtain ⟨n, hn⟩ := h.player p
  rw [hn]

theorem socketSet (h : SameWorld s t) (p : PlayerRef) :
    (t.player p).socketSet = (s.player p).socketSet := by
  obtain ⟨n, hn⟩ := h.player p
  rw [hn]

end SameWorld

/-! ## Players that are about to be lost -/

/-- The queued commands of the server's own. -/
def State.internalCommands (s : State) : List Command :=
  s.commandQueue.filter fun command => command.message.header == INTERNAL_PL_LOST

/-- The players that these commands will mark as lost. -/
def State.lostPlayers (s : State) : List PlayerRef :=
  s.internalCommands.filterMap fun command => command.message.player

@[simp] theorem State.lostPlayers_pushOut (s : State) (packet : OutPacket) :
    (s.pushOut packet).lostPlayers = s.lostPlayers := rfl

@[simp] theorem State.lostPlayers_withPlayers (s : State) (players : List PlayerRef) :
    (s.withPlayers players).lostPlayers = s.lostPlayers := rfl

@[simp] theorem State.lostPlayers_withGames (s : State) (games : List GameRef) :
    (s.withGames games).lostPlayers = s.lostPlayers := rfl

@[simp] theorem State.lostPlayers_modifyPlayer (s : State) (p : PlayerRef)
    (f : Player → Player) : (s.modifyPlayer p f).lostPlayers = s.lostPlayers := rfl

@[simp] theorem State.lostPlayers_modifyGame (s : State) (g : GameRef) (f : Game → Game) :
    (s.modifyGame g f).lostPlayers = s.lostPlayers := rfl

@[simp] theorem State.lostPlayers_addGame (s : State) (p1 p2 : PlayerRef) :
    (GameManager.addGame s p1 p2).lostPlayers = s.lostPlayers := rfl

/-- The state from which a popped command is handled. -/
@[simps -fullyApplied] def State.withCommands (s : State) (commands : List Command) : State :=
  { s with commandQueue := commands }

@[simp] theorem State.game_withCommands (s : State) (commands : List Command) (g : GameRef) :
    (s.withCommands commands).game g = s.game g := rfl

/-- A command is handled in the state without it. -/
theorem exec_runCommand {s : State} {command : Command} {rest : List Command}
    (queue : s.commandQueue = command :: rest) :
    System.exec s .runCommand = dispatch (s.withCommands rest) command.message := by
  rw [System.exec, System.runCommand, queue]
  rfl

theorem sameWorld_withCommands (s : State) (commands : List Command) :
    SameWorld s (s.withCommands commands) := .of_eq rfl rfl rfl rfl rfl rfl

/-- Popping a command of the server's own. -/
theorem State.internalCommands_pop {s : State} {command : Command} {rest : List Command}
    (queue : s.commandQueue = command :: rest)
    (internal : command.message.header = INTERNAL_PL_LOST) :
    s.internalCommands = command :: (s.withCommands rest).internalCommands := by
  simp [State.internalCommands, State.withCommands, queue, internal]

/-- Popping any other command. -/
theorem State.internalCommands_pop_other {s : State} {command : Command} {rest : List Command}
    (queue : s.commandQueue = command :: rest)
    (other : command.message.header ≠ INTERNAL_PL_LOST) :
    s.internalCommands = (s.withCommands rest).internalCommands := by
  simp [State.internalCommands, State.withCommands, queue, other]

/-- A step that changes neither the world nor the players about to be lost. -/
structure Quiet (s t : State) : Prop extends SameWorld s t where
  internalCommands : t.internalCommands = s.internalCommands

theorem Quiet.trans {s t u : State} (h : Quiet s t) (h' : Quiet t u) : Quiet s u :=
  ⟨h.toSameWorld.trans h'.toSameWorld, h'.internalCommands.trans h.internalCommands⟩

/-! ## Invalid packets -/

/-- The counter of invalid packets goes up. -/
def countOne (s : State) (p : PlayerRef) : State :=
  s.modifyPlayer p fun x => { x with bullshitMessages := x.bullshitMessages + 1 }

theorem quiet_countOne (s : State) (p : PlayerRef) : Quiet s (countOne s p) := by
  refine ⟨⟨rfl, fun q => ?_, rfl, fun _ => rfl, rfl, rfl, rfl, rfl⟩, rfl⟩
  rw [countOne, State.player_modifyPlayer]
  split
  · rename_i heq
    exact ⟨(s.player p).bullshitMessages + 1, by rw [heq]⟩
  · exact ⟨(s.player q).bullshitMessages, rfl⟩

/-- An invalid packet is ignored, counted, or counted as the last one of its connection. -/
theorem countInvalid_eq_ok {s t : State} {packet : Packet}
    (h : PacketManager.countInvalid s packet = .ok t) :
    t = s ∨ ∃ p, t = countOne s p ∨ Disconnection (countOne s p) packet.socket t := by
  unfold PacketManager.countInvalid at h
  split at h
  · -- the descriptor belongs to nobody
    exact Or.inl (Except.ok.inj h).symm
  · -- the tenth invalid packet ends the connection
    rename_i p _
    dsimp only at h
    split at h
    · exact Or.inr ⟨p, Or.inr (Server.disconnection_effect h)⟩
    · exact Or.inr ⟨p, Or.inl (Except.ok.inj h).symm⟩

/-- A popped packet is resolved to a command or counted as invalid. -/
theorem resolvePacket_eq_ok {s t : State} {packet : Packet}
    (h : PacketManager.resolvePacket s packet = .ok t) :
    (∃ mess, Serializer.deserialize packet.data = .ok (some mess) ∧
      t = { s with
        packetStage := .resolved ⟨mess.withPlayer (Server.getPlayerBySocket s packet.socket),
          some packet.owner⟩ }) ∨
    (Serializer.deserialize packet.data = .ok none ∧
      PacketManager.countInvalid { s with packetStage := .idle } packet = .ok t) := by
  unfold PacketManager.resolvePacket at h
  obtain ⟨result, hresult, h⟩ := bind_eq_ok_iff.mp h
  have hdecoded := mapError_eq_ok_iff.mp hresult
  cases result with
  | some mess => exact Or.inl ⟨mess, hdecoded, (Except.ok.inj h).symm⟩
  | none => exact Or.inr ⟨hdecoded, h⟩

/-! ## The way of a packet -/

/-- What came in and what was made of it is the same in both states. -/
structure SameTraffic (s t : State) : Prop where
  packetQueue : t.packetQueue = s.packetQueue
  packetStage : t.packetStage = s.packetStage
  readLog : t.readLog = s.readLog
  handedLog : t.handedLog = s.handedLog

theorem Disconnection.sameTraffic {s t : State} {fd : Int} (h : Disconnection s fd t) :
    SameTraffic s t := by
  cases h <;> exact ⟨rfl, rfl, rfl, rfl⟩

/-- Handling a command leaves the packets alone. -/
theorem Effect.sameTraffic {s t : State} {mess : Message} (h : Effect s mess t) :
    SameTraffic s t := by
  cases h with
  | disconnected _ _ _ closed => exact closed.sameTraffic
  -- which seat is taken is decided by an `if`; either way only a game changes
  | @reconnected newP oldP _ _ game =>
    obtain ⟨f, hf, _⟩ := takeOverSeat_eq (takeOverName s newP oldP) newP game
    rw [handedOver, hf]
    exact ⟨rfl, rfl, rfl, rfl⟩
  | _ => exact ⟨rfl, rfl, rfl, rfl⟩

theorem countInvalid_sameTraffic {s t : State} {packet : Packet}
    (h : PacketManager.countInvalid s packet = .ok t) : SameTraffic s t := by
  rcases countInvalid_eq_ok h with rfl | ⟨p, rfl | hclosed⟩
  · exact ⟨rfl, rfl, rfl, rfl⟩
  · exact ⟨rfl, rfl, rfl, rfl⟩
  · have htraffic := hclosed.sameTraffic
    exact ⟨htraffic.1, htraffic.2, htraffic.3, htraffic.4⟩

/-- What a step can do to the packets and the commands made of them. -/
inductive TrafficStep (s t : State) : Prop where
  | unchanged (same : SameTraffic s t)
  /-- A chunk is read. -/
  | read {packet : Packet} (same : SameTraffic { s with
      packetQueue := s.packetQueue ++ [packet]
      readLog := s.readLog ++ [packet] } t)
  /-- A packet is popped. -/
  | popped {packet : Packet} {rest : List Packet} (queued : s.packetQueue = packet :: rest)
      (idle : s.packetStage = .idle)
      (same : SameTraffic { s with packetQueue := rest, packetStage := .popped packet } t)
  /-- The packet in hand is a message. -/
  | decoded {packet : Packet} {mess : Message} {player : Option PlayerRef}
      (hand : s.packetStage = .popped packet)
      (decodes : Serializer.deserialize packet.data = .ok (some mess))
      (same : SameTraffic { s with
        packetStage := .resolved ⟨mess.withPlayer player, some packet.owner⟩ } t)
  /-- The packet in hand is no message. -/
  | dropped {packet : Packet} (hand : s.packetStage = .popped packet)
      (decodes : Serializer.deserialize packet.data = .ok none)
      (same : SameTraffic { s with packetStage := .idle } t)
  /-- The command in hand is registered. -/
  | handed {command : Command} (hand : s.packetStage = .resolved command)
      (same : SameTraffic { s with
        packetStage := .idle
        handedLog := s.handedLog ++ [command] } t)

/-- Every step moves the packets in one of these ways. -/
theorem traffic_step {s t : State} {a : Action} (henabled : System.Enabled s a)
    (h : System.exec s a = .ok t) : TrafficStep s t := by
  -- the branches that `Enabled` excludes leave everything as it is
  have same : t = s → TrafficStep s t := fun heq => heq ▸ .unchanged ⟨rfl, rfl, rfl, rfl⟩
  cases a with
  | accept fd nameSet =>
    simp only [System.exec, Server.acceptConnection] at h
    split at h
    · cases h
    · rw [← Except.ok.inj h]
      exact .unchanged ⟨rfl, rfl, rfl, rfl⟩
  | receive fd data =>
    obtain ⟨_, _, h⟩ := bind_eq_ok_iff.mp h
    rw [← Except.ok.inj h]
    exact .read ⟨rfl, rfl, rfl, rfl⟩
  | peerClosed fd => exact .unchanged (Server.disconnection_effect h).sameTraffic
  | popPacket =>
    have hidle : s.packetStage = .idle := by
      have := henabled.1
      cases hstage : s.packetStage <;> simp_all [PacketStage.isIdle]
    rw [← Except.ok.inj h]
    unfold PacketManager.popPacket
    split
    · exact .unchanged ⟨rfl, rfl, rfl, rfl⟩
    · rename_i hqueue
      exact .popped hqueue hidle ⟨rfl, rfl, rfl, rfl⟩
  | resolvePacket =>
    simp only [System.exec] at h
    split at h
    · rename_i packet hhand
      rcases resolvePacket_eq_ok h with ⟨mess, hmess, rfl⟩ | ⟨hnone, hinvalid⟩
      · exact .decoded hhand hmess ⟨rfl, rfl, rfl, rfl⟩
      · exact .dropped hhand hnone (countInvalid_sameTraffic hinvalid)
    · exact same (Except.ok.inj h).symm
  | registerResolved =>
    simp only [System.exec] at h
    split at h
    · rename_i command hhand
      rw [← Except.ok.inj h]
      exact .handed hhand ⟨rfl, rfl, rfl, rfl⟩
    · exact same (Except.ok.inj h).symm
  | runCommand =>
    simp only [System.exec, System.runCommand] at h
    split at h
    · exact same (Except.ok.inj h).symm
    · have htraffic := (dispatch_effect h).sameTraffic
      exact .unchanged ⟨htraffic.1, htraffic.2, htraffic.3, htraffic.4⟩
  | popOutgoing =>
    rw [← Except.ok.inj h]
    unfold Sender.popOutgoing
    split <;> exact .unchanged ⟨rfl, rfl, rfl, rfl⟩
  | sendOutgoing =>
    rw [← Except.ok.inj h]
    unfold Sender.sendOutgoing
    split <;> exact .unchanged ⟨rfl, rfl, rfl, rfl⟩

/-- A command in `PacketManager`'s hand comes from a packet. -/
def StageFromPacket (s : State) : Prop :=
  ∀ command, s.packetStage = .resolved command → command.message.header ≠ INTERNAL_PL_LOST

theorem stageFromPacket_of_reachable {s : State} (h : System.Reachable s) :
    StageFromPacket s := by
  refine Machine.ReachableFrom.invariant h (fun _ hcommand => by cases hcommand) ?_
  intro t u a _ hstage henabled _ hexec command hcommand
  -- only decoding puts a command into the hand, and no packet decodes to the internal one
  cases traffic_step henabled hexec with
  | unchanged same => exact hstage command (same.packetStage ▸ hcommand)
  | read same => exact hstage command (same.packetStage ▸ hcommand)
  | decoded _ decodes same =>
    have hheader := Serializer.deserialize_ne_internal decodes
    rw [same.packetStage] at hcommand
    rw [← PacketStage.resolved.inj hcommand]
    exact hheader
  | popped _ _ same =>
    rw [same.packetStage] at hcommand
    cases hcommand
  | dropped _ _ same =>
    rw [same.packetStage] at hcommand
    cases hcommand
  | handed _ same =>
    rw [same.packetStage] at hcommand
    cases hcommand

/-! ## The other steps -/

/-- What a step can do to the world. -/
inductive WorldStep (s : State) : Action → State → Prop where
  /-- Only queues, logs and counters change. -/
  | quiet {a : Action} {t : State} (quiet : Quiet s t) : WorldStep s a t
  /-- A connection is accepted. -/
  | accepted {fd : Int} {nameSet : Bool} (fresh : s.descriptors fd = none) :
      WorldStep s (.accept fd nameSet) (Server.addPlayer s fd nameSet)
  /-- A connection ends, possibly after an invalid packet was counted. -/
  | closed {a : Action} {t t' : State} {fd : Int} (quiet : Quiet s t)
      (closed : Disconnection t fd t') : WorldStep s a t'
  /-- A command is handled. -/
  | handled {command : Command} {rest : List Command} {t : State}
      (queue : s.commandQueue = command :: rest)
      (effect : Effect (s.withCommands rest) command.message t) : WorldStep s .runCommand t

/-- Every step of the server is one of the listed ones. -/
theorem exec_step {s t : State} {a : Action} (hstage : StageFromPacket s)
    (henabled : System.Enabled s a) (h : System.exec s a = .ok t) : WorldStep s a t := by
  have same : ∀ u, u = s → WorldStep s a u := fun u hu => by
    rw [hu]
    exact .quiet ⟨.of_eq rfl rfl rfl rfl rfl rfl, rfl⟩
  cases a with
  | accept fd nameSet =>
    simp only [System.exec, Server.acceptConnection] at h
    split at h
    · cases h
    · rw [← Except.ok.inj h]
      exact .accepted henabled.2
  | receive fd data =>
    obtain ⟨_, _, h⟩ := bind_eq_ok_iff.mp h
    rw [← Except.ok.inj h]
    exact .quiet ⟨.of_eq rfl rfl rfl rfl rfl rfl, rfl⟩
  | peerClosed fd =>
    exact .closed ⟨.of_eq rfl rfl rfl rfl rfl rfl, rfl⟩ (Server.disconnection_effect h)
  | popPacket =>
    rw [← Except.ok.inj h]
    unfold PacketManager.popPacket
    split <;> exact .quiet ⟨.of_eq rfl rfl rfl rfl rfl rfl, rfl⟩
  | resolvePacket =>
    simp only [System.exec] at h
    split at h
    · rcases resolvePacket_eq_ok h with ⟨mess, _, rfl⟩ | ⟨_, hinvalid⟩
      · exact .quiet ⟨.of_eq rfl rfl rfl rfl rfl rfl, rfl⟩
      · have hidle : Quiet s { s with packetStage := .idle } :=
          ⟨.of_eq rfl rfl rfl rfl rfl rfl, rfl⟩
        -- ignored, counted, or counted and then disconnected
        rcases countInvalid_eq_ok hinvalid with rfl | ⟨p, rfl | hclosed⟩
        · exact .quiet hidle
        · exact .quiet (hidle.trans (quiet_countOne _ p))
        · exact .closed (hidle.trans (quiet_countOne _ p)) hclosed
    · exact same t (Except.ok.inj h).symm
  | registerResolved =>
    simp only [System.exec] at h
    split at h
    · rename_i command hcommand
      rw [← Except.ok.inj h]
      refine .quiet ⟨.of_eq rfl rfl rfl rfl rfl rfl, ?_⟩
      -- a command made of a packet is not one of the server's own
      simp [State.internalCommands, PacketManager.registerResolved, hstage command hcommand]
    · exact same t (Except.ok.inj h).symm
  | runCommand =>
    simp only [System.exec, System.runCommand] at h
    split at h
    · exact same t (Except.ok.inj h).symm
    · rename_i command rest hqueue
      exact .handled hqueue (dispatch_effect h)
  | popOutgoing =>
    rw [← Except.ok.inj h]
    unfold Sender.popOutgoing
    split <;> exact .quiet ⟨.of_eq rfl rfl rfl rfl rfl rfl, rfl⟩
  | sendOutgoing =>
    rw [← Except.ok.inj h]
    unfold Sender.sendOutgoing
    split <;> exact .quiet ⟨.of_eq rfl rfl rfl rfl rfl rfl, rfl⟩

/-! ## Rules for invariants -/

/-- An invariant of all guarded runs from `s₀`, from one case for every kind of step. `Known` is
    what is already proved of every reachable state. -/
theorem world_invariant_from {Guard : State → Action → Prop} {Known I : State → Prop}
    {s₀ s : State} (reachable : System.Reachable s₀)
    (reached : System.machine.ReachableFrom Guard s₀ s)
    (known : ∀ t, System.Reachable t → Known t)
    (knownQuiet : ∀ t u, Quiet t u → Known t → Known u)
    (start : I s₀)
    (quiet : ∀ t u, Quiet t u → I t → I u)
    (accepted : ∀ t fd nameSet, Known t → I t → t.descriptors fd = none →
      I (Server.addPlayer t fd nameSet))
    (closed : ∀ t u fd, Known t → I t → Disconnection t fd u → I u)
    (handled : ∀ t u command rest, Known t → I t → Guard t .runCommand →
      t.commandQueue = command :: rest →
      Effect (t.withCommands rest) command.message u → I u) : I s := by
  apply Machine.ReachableFrom.invariant reached start
  intro t u a hreach hI henabled hguard hexec
  -- guarded runs are runs, so everything known of reachable states holds on the way
  have hreachable : System.Reachable t :=
    Machine.ReachableFrom.trans reachable (hreach.mono fun _ _ _ => trivial)
  have hknown := known t hreachable
  cases exec_step (stageFromPacket_of_reachable hreachable) henabled hexec with
  | quiet hquiet => exact quiet t u hquiet hI
  | accepted hfresh => exact accepted t _ _ hknown hI hfresh
  | closed hquiet hclosed =>
    -- the count of invalid packets changes first, then the connection ends
    exact closed _ u _ (knownQuiet t _ hquiet hknown) (quiet t _ hquiet hI) hclosed
  | handled hqueue heffect => exact handled t u _ _ hknown hI hguard hqueue heffect

/-- The rule for guards that look at the step itself. `Known` is what is already proved of every
    state that the guarded runs reach. -/
theorem guarded_invariant {Guard : State → Action → Prop} {Known I : State → Prop} {s : State}
    (reached : System.ReachableUnder Guard s)
    (known : ∀ t, System.ReachableUnder Guard t → Known t)
    (start : I State.initial)
    (step : ∀ t u a, Known t → I t → Guard t a → System.exec t a = .ok u →
      WorldStep t a u → I u) : I s := by
  apply Machine.ReachableFrom.invariant reached start
  intro t u a hreach hI henabled hguard hexec
  have hstage := stageFromPacket_of_reachable (Machine.ReachableUnder.reachable hreach)
  exact step t u a (known t hreach) hI hguard hexec (exec_step hstage henabled hexec)

/-- The rule for runs from the start. -/
theorem world_invariant {Guard : State → Action → Prop} {Known I : State → Prop} {s : State}
    (reached : System.ReachableUnder Guard s)
    (known : ∀ t, System.Reachable t → Known t)
    (knownQuiet : ∀ t u, Quiet t u → Known t → Known u)
    (start : I State.initial)
    (quiet : ∀ t u, Quiet t u → I t → I u)
    (accepted : ∀ t fd nameSet, Known t → I t → t.descriptors fd = none →
      I (Server.addPlayer t fd nameSet))
    (closed : ∀ t u fd, Known t → I t → Disconnection t fd u → I u)
    (handled : ∀ t u command rest, Known t → I t → Guard t .runCommand →
      t.commandQueue = command :: rest →
      Effect (t.withCommands rest) command.message u → I u) : I s :=
  world_invariant_from .refl reached known knownQuiet start quiet accepted closed handled

/-- The rule for an invariant of all runs that reads nothing but the world. -/
theorem same_world_invariant {Known I : State → Prop} {s : State}
    (reached : System.Reachable s)
    (known : ∀ t, System.Reachable t → Known t)
    (knownSame : ∀ t u, SameWorld t u → Known t → Known u)
    (start : I State.initial)
    (same : ∀ t u, SameWorld t u → I t → I u)
    (accepted : ∀ t fd nameSet, Known t → I t → t.descriptors fd = none →
      I (Server.addPlayer t fd nameSet))
    (closed : ∀ t u fd, Known t → I t → Disconnection t fd u → I u)
    (handled : ∀ t u mess, Known t → I t → Effect t mess u → I u) : I s :=
  world_invariant reached known (fun t u hquiet => knownSame t u hquiet.toSameWorld) start
    (fun t u hquiet => same t u hquiet.toSameWorld) accepted closed
    fun t u _ rest hknown hI _ _ heffect =>
      handled (t.withCommands rest) u _ (knownSame t _ (sameWorld_withCommands t rest) hknown)
        (same t _ (sameWorld_withCommands t rest) hI) heffect

end UpsServer
