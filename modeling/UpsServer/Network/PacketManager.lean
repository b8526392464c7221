import UpsServer.Network.Server

/-!
# The packet manager

An iteration of `PacketManager::run` in three steps: pop a packet, decode it and find the
player behind its descriptor, register the command. Packets that do not decode are counted, and
the tenth ends the connection.
-/

namespace UpsServer.PacketManager

open Framework

/-- `packetQueue->pop()`. -/
def popPacket (s : State) : State :=
  match s.packetQueue with
  | [] => s
  | packet :: rest => { s with packetQueue := rest, packetStage := .popped packet }

/-- The branch for a packet that is no message. -/
def countInvalid (s : State) (packet : Packet) : Except Fault State :=
  match Server.getPlayerBySocket s packet.socket with
  | none => .ok s
  | some p =>
    let s := s.modifyPlayer p fun x => { x with bullshitMessages := x.bullshitMessages + 1 }
    if 10 ≤ (s.player p).bullshitMessages then
      Server.proceedPlayerDisconnection s packet.socket
    else .ok s

/-- `deserialize` and `getPlayerBySocket` for the popped packet. -/
def resolvePacket (s : State) (packet : Packet) : Except Fault State := do
  match ← (Serializer.deserialize packet.data).mapError .codec with
  | some mess =>
    let mess := mess.withPlayer (Server.getPlayerBySocket s packet.socket)
    return { s with packetStage := .resolved ⟨mess, some packet.owner⟩ }
  | none => countInvalid { s with packetStage := .idle } packet

/-- `CommandManager::instance()->registerCommand(mess)`. -/
def registerResolved (s : State) (command : Command) : State :=
  { s with
    packetStage := .idle
    commandQueue := s.commandQueue ++ [command]
    handedLog := s.handedLog ++ [command] }

/-- The messages that the loop hands to `registerCommand` for a sequence of packets, before
    their players are looked up. -/
def handedOver : List Packet → Except CodecFault (List Message)
  | [] => return []
  | packet :: rest => do
    match ← Serializer.deserialize packet.data with
    | some mess =>
      let messages ← handedOver rest
      return mess :: messages
    | none => handedOver rest

end UpsServer.PacketManager
