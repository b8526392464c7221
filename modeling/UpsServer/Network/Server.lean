import UpsServer.Network.State

/-!
# The server thread

The player list, its look-ups and the end of a connection. `Server::run` itself appears as the
steps it takes on one descriptor: accept, read a chunk, notice that the peer closed.
-/

namespace UpsServer.Server

open Framework

/-! ## Looking players up -/

/-- `Server::getPlayerBySocket`. -/
def getPlayerBySocket (s : State) (socket : Int) : Option PlayerRef :=
  s.players.find? fun p => (s.player p).hasSocket && (s.player p).socket == socket

/-- `Server::getPlayerByName`. -/
def getPlayerByName (s : State) (name : ByteString) : Option PlayerRef :=
  s.players.find? fun p => (s.player p).name == name

/-! ## Leaving the list -/

/-- `players->erase(players->begin() + index)`. -/
def erasePlayerAt (s : State) (index : Int) : Except Fault State :=
  match eraseAt s.players index with
  | some players => .ok (s.withPlayers players)
  | none => .error .eraseOutside

/-- `Server::deletePlayer`, which looks for the player's name. -/
def deletePlayer (s : State) (p : PlayerRef) : Except Fault State :=
  erasePlayerAt s
    (loopIndex (fun pp => (s.player pp).name == (s.player p).name) s.players (-1))

/-- The internal command of `proceedPlayerDisconnection`. -/
def lostMessage (p : PlayerRef) : Message :=
  (Message.new INTERNAL_PL_LOST []).withPlayer (some p)

/-- `Server::proceedPlayerDisconnection`. When nobody has the socket, `pl` is used without
    having been assigned. -/
def proceedPlayerDisconnection (s : State) (socket : Int) : Except Fault State := do
  let s := s.closeSocket socket
  let index := loopIndex
    (fun p => (s.player p).hasSocket && (s.player p).socket == socket) s.players (-1)
  let pl ← assigned (getPlayerBySocket s socket)
  if (s.player pl).inGame = false then
    let s := s.modifyPlayer pl fun p => { p.removeSocket with joiningPlayer := none }
    erasePlayerAt s index
  else
    let s := s.modifyPlayer pl Player.removeSocket
    return s.registerCommand ⟨lostMessage pl, none⟩

/-! ## The steps of `Server::run` -/

/-- `FD_SETSIZE`. -/
def fdSetSize : Int := 1024

/-- The new object, its entry in the vector and the descriptor that leads to it. -/
@[simps -fullyApplied] def addPlayer (s : State) (clientSocket : Int) (nameSet : Bool) : State :=
  { s with
    descriptors := fun fd => if fd = clientSocket then some s.playerHeap.next
      else s.descriptors fd
    playerHeap := s.playerHeap.alloc (Player.ofSocket clientSocket nameSet)
    players := s.players ++ [s.playerHeap.next] }

theorem player_addPlayer (s : State) (clientSocket : Int) (nameSet : Bool) (p : PlayerRef) :
    (addPlayer s clientSocket nameSet).player p
      = if p = s.playerHeap.next then Player.ofSocket clientSocket nameSet else s.player p :=
  Heap.get_alloc s.playerHeap _ p

@[simp] theorem game_addPlayer (s : State) (clientSocket : Int) (nameSet : Bool)
    (g : GameRef) : (addPlayer s clientSocket nameSet).game g = s.game g := rfl

/-- `acceptNewConnection` returned `clientSocket`. The memory of the new `Player` decides the
    first value of `nameSet`. -/
def acceptConnection (s : State) (clientSocket : Int) (nameSet : Bool) : Except Fault State :=
  if fdSetSize ≤ clientSocket then .error (.fdSetOutside clientSocket)
  else .ok (addPlayer s clientSocket nameSet)

/-- The packet that `Server::processData` makes from a chunk of a connection. -/
def processData (socket : Int) (owner : PlayerRef) (data : ByteString) : Packet :=
  ⟨socket, data, owner⟩

/-- `recv` returned a chunk, which `processData` hands to `PacketManager::registerPacket`. -/
def readChunk (s : State) (fd : Int) (data : ByteString) : Except Fault State := do
  let owner ← assigned (s.descriptors fd)
  let packet := processData fd owner data
  return { s with
    packetQueue := s.packetQueue ++ [packet]
    readLog := s.readLog ++ [packet] }

end UpsServer.Server
