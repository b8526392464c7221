import UpsServer.Framework.Machine
import UpsServer.Network.PacketManager
import UpsServer.Network.CommandManager

/-!
# The whole server

The four threads as one machine: an action is one step of one thread, and a run is any
interleaving of them. `Enabled` is what the operating system and the loops allow: `accept`
returns a descriptor that is not open, only open descriptors are read or seen closed, and a
queue is popped only when it is not empty. `Server::run` visits the descriptors of one `select`
and may come to one that was closed meanwhile; its rounds are in `SelectLoop`.
-/

namespace UpsServer

open Framework

/-- One step of one thread. -/
inductive Action where
  /-- `Server::run` accepts a connection. -/
  | accept (fd : Int) (nameSet : Bool)
  /-- `Server::run` reads a chunk. -/
  | receive (fd : Int) (data : ByteString)
  /-- `Server::run` finds a closed connection. -/
  | peerClosed (fd : Int)
  /-- `PacketManager::run` pops a packet. -/
  | popPacket
  /-- `PacketManager::run` decodes the packet and looks its sender up. -/
  | resolvePacket
  /-- `PacketManager::run` registers the command. -/
  | registerResolved
  /-- `CommandManager::run` pops a command and handles it. -/
  | runCommand
  /-- `Sender::run` pops a packet. -/
  | popOutgoing
  /-- `Sender::run` sends the packet. -/
  | sendOutgoing
  deriving DecidableEq, Repr

namespace PacketStage

/-- No packet is in hand. -/
def isIdle : PacketStage → Bool
  | .idle => true
  | _ => false

/-- A packet was popped and not decoded yet. -/
def isPopped : PacketStage → Bool
  | .popped _ => true
  | _ => false

/-- The packet that was popped and not decoded yet. -/
def packet : PacketStage → Option Packet
  | .popped packet => some packet
  | _ => none

/-- The command that waits to be registered. -/
def command : PacketStage → Option Command
  | .resolved command => some command
  | _ => none

/-- A command waits to be registered. -/
def isResolved : PacketStage → Bool
  | .resolved _ => true
  | _ => false

end PacketStage

namespace System

/-- When a step can be taken. -/
def Enabled (s : State) : Action → Prop
  | .accept fd _ => 0 ≤ fd ∧ s.descriptors fd = none
  | .receive fd data => data ≠ [] ∧ data.length < 2 ^ 31 ∧ s.descriptors fd ≠ none
  | .peerClosed fd => s.descriptors fd ≠ none
  | .popPacket => s.packetStage.isIdle = true ∧ s.packetQueue ≠ []
  | .resolvePacket => s.packetStage.isPopped = true
  | .registerResolved => s.packetStage.isResolved = true
  | .runCommand => s.commandQueue ≠ []
  | .popOutgoing => s.senderHand = none ∧ s.pQueue ≠ []
  | .sendOutgoing => s.senderHand ≠ none

instance (s : State) : (a : Action) → Decidable (Enabled s a)
  | .accept _ _ => inferInstanceAs (Decidable (_ ∧ _))
  | .receive _ _ => inferInstanceAs (Decidable (_ ∧ _ ∧ _))
  | .peerClosed _ => inferInstanceAs (Decidable (_ ≠ _))
  | .popPacket => inferInstanceAs (Decidable (_ ∧ _))
  | .resolvePacket => inferInstanceAs (Decidable (_ = _))
  | .registerResolved => inferInstanceAs (Decidable (_ = _))
  | .runCommand => inferInstanceAs (Decidable (_ ≠ _))
  | .popOutgoing => inferInstanceAs (Decidable (_ ∧ _ ≠ _))
  | .sendOutgoing => inferInstanceAs (Decidable (_ ≠ _))

/-- `commandQueue->pop()` and the dispatch. -/
def runCommand (s : State) : Except Fault State :=
  match s.commandQueue with
  | [] => .ok s
  | command :: rest =>
    CommandManager.dispatch { s with commandQueue := rest } command.message

/-- What a step does. -/
def exec (s : State) : Action → Except Fault State
  | .accept fd nameSet => Server.acceptConnection s fd nameSet
  | .receive fd data => Server.readChunk s fd data
  | .peerClosed fd => Server.proceedPlayerDisconnection s fd
  | .popPacket => .ok (PacketManager.popPacket s)
  | .resolvePacket =>
    match s.packetStage with
    | .popped packet => PacketManager.resolvePacket s packet
    | _ => .ok s
  | .registerResolved =>
    match s.packetStage with
    | .resolved command => .ok (PacketManager.registerResolved s command)
    | _ => .ok s
  | .runCommand => runCommand s
  | .popOutgoing => .ok (Sender.popOutgoing s)
  | .sendOutgoing => .ok (Sender.sendOutgoing s)

/-- The server as a machine. -/
def machine : Machine State Action Fault := ⟨State.initial, Enabled, exec⟩

/-- The states any run reaches. -/
abbrev Reachable : State → Prop := machine.Reachable

/-- The states reached by runs whose steps all meet the guard. -/
abbrev ReachableUnder (Guard : State → Action → Prop) : State → Prop :=
  machine.ReachableUnder Guard

instance (s : State) (a : Action) : Decidable (machine.Enabled s a) :=
  inferInstanceAs (Decidable (Enabled s a))

/-! ## Concrete runs -/

/-- The packet of a client message. -/
def clientPacket (header : UInt32) (data : List Datum) : ByteString :=
  match Serializer.serialize (.compose header data none) with
  | .ok packet => packet.1
  | .error _ => []

/-- A packet is read, decoded, registered and handled. -/
def deliver (fd : Int) (header : UInt32) (data : List Datum) : List Action :=
  [.receive fd (clientPacket header data), .popPacket, .resolvePacket, .registerResolved,
    .runCommand]

/-- The state after a list of steps. -/
abbrev after (as : List Action) : State := machine.after Machine.Unguarded as

theorem reachable_after (as : List Action) : Reachable (after as) :=
  Machine.reachableUnder_after as

/-- Connections on the descriptors 5 and 6 register as `A` and `B`. -/
def registerTwo : List Action :=
  [.accept 5 false, .accept 6 false] ++ deliver 5 H_C_NEW_PL [.str [65]] ++
    deliver 6 H_C_NEW_PL [.str [66]]

/-- A third connection, on the descriptor 7, registers as `C`. -/
def registerThree : List Action :=
  registerTwo ++ [.accept 7 false] ++ deliver 7 H_C_NEW_PL [.str [67]]

/-- `A` asks `B` for a game and `B` accepts. -/
def playTwo : List Action :=
  registerTwo ++ deliver 5 H_C_JOIN_PLAYER [.str [66]] ++ deliver 6 H_C_ACCEPT_JOIN []

/-- Two games, of `A` with `B` and of `C` with `D`. -/
def playFour : List Action :=
  playTwo ++ [.accept 7 false, .accept 8 false] ++ deliver 7 H_C_NEW_PL [.str [67]] ++
    deliver 8 H_C_NEW_PL [.str [68]] ++ deliver 7 H_C_JOIN_PLAYER [.str [68]] ++
    deliver 8 H_C_ACCEPT_JOIN []

/-- A move of the player on the descriptor that waits to be handled. -/
def aboutToMove (fd : Int) (cardType moveI moveJ : UInt32) : List Action :=
  [.receive fd (clientPacket H_C_GAME_MOVE [.int cardType, .int moveI, .int moveJ]), .popPacket,
    .resolvePacket, .registerResolved]

/-- A move that is handled. -/
def makeMove (fd : Int) (cardType moveI moveJ : UInt32) : List Action :=
  aboutToMove fd cardType moveI moveJ ++ [.runCommand]

/-- The connection of `A` ends during the game. -/
def loseOne : List Action := playTwo ++ [.peerClosed 5, .runCommand]

end System

end UpsServer
