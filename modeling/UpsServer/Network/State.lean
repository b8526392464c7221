import UpsServer.Framework.PointerHeap
import UpsServer.Framework.Fallible
import UpsServer.Framework.LoopSearch
import UpsServer.Game.Game
import UpsServer.Helpers.Serializer
import Mathlib.Tactic.Simps.Basic

/-!
# The state of the server

Everything the four threads share: the `Player` and `Game` objects, the two vectors that list
them, the open client descriptors and the three queues. What a thread holds between two of its
steps is part of the state, too.

Three kinds of data are not in the source and never influence a step: which connection a
descriptor leads to (a connection is named after the `Player` made for it), the origin of
packets and commands, and the logs.
-/

namespace UpsServer

open Framework

/-! ## Faults -/

/-- What ends a run: undefined behaviour or an exception nobody catches. -/
inductive Fault where
  /-- A null pointer is dereferenced. -/
  | nullPointer
  /-- A pointer is used that was never assigned. -/
  | uninitialised
  /-- `erase` in front of the first element. -/
  | eraseOutside
  /-- `field[i][j]` outside the board. -/
  | fieldOutside (i j : UInt32)
  /-- `FD_SET` with a descriptor of `FD_SETSIZE` or more. -/
  | fdSetOutside (fd : Int)
  /-- `maxGameId++` at the largest `int`. -/
  | gameIdOverflow
  | codec (fault : CodecFault)
  deriving DecidableEq, Repr

/-- Dereferences a pointer. -/
def deref (p : Option PlayerRef) : Except Fault PlayerRef :=
  match p with
  | some r => .ok r
  | none => .error .nullPointer

/-- Uses a pointer that may not have been assigned. -/
def assigned (p : Option PlayerRef) : Except Fault PlayerRef :=
  match p with
  | some r => .ok r
  | none => .error .uninitialised

@[simp] theorem deref_some (r : PlayerRef) : deref (some r) = .ok r := rfl

@[simp] theorem deref_none : deref none = .error .nullPointer := rfl

@[simp] theorem deref_eq_ok_iff {p : Option PlayerRef} {r : PlayerRef} :
    deref p = .ok r ↔ p = some r := by
  cases p <;> simp [deref]

@[simp] theorem assigned_eq_ok_iff {p : Option PlayerRef} {r : PlayerRef} :
    assigned p = .ok r ↔ p = some r := by
  cases p <;> simp [assigned]

/-! ## What travels through the queues -/

/-- `packet_t` on its way in; `size` is the length of `data`. -/
structure Packet where
  socket : Int
  data : ByteString
  /-- The connection the bytes were read from. -/
  owner : PlayerRef
  deriving DecidableEq, Repr

/-- A `Message *` in the command queue. -/
structure Command where
  message : Message
  /-- The connection that delivered the packet; none for a command made by the server. -/
  origin : Option PlayerRef
  deriving DecidableEq, Repr

/-- `packet_t` on its way out. -/
structure OutPacket where
  socket : Int
  data : ByteString
  /-- The message the packet was made from. -/
  message : Message
  deriving DecidableEq, Repr

/-- What `PacketManager::run` holds between two steps. -/
inductive PacketStage where
  | idle
  | popped (packet : Packet)
  | resolved (command : Command)
  deriving DecidableEq, Repr

/-- A packet that `send` was called for and the connection it was written to. -/
structure Delivery where
  packet : OutPacket
  receiver : Option PlayerRef
  deriving DecidableEq, Repr

/-! ## The state -/

/-- The shared state of all threads. -/
structure State where
  playerHeap : Heap Player
  /-- `Server::players`. -/
  players : List PlayerRef
  gameHeap : Heap Game
  /-- `GameManager::games`. -/
  games : List GameRef
  maxGameId : Int
  /-- The open client descriptors, which are also those in `clientSocks`, and the connection
      each leads to. -/
  descriptors : Int → Option PlayerRef
  packetQueue : List Packet
  packetStage : PacketStage
  commandQueue : List Command
  pQueue : List OutPacket
  senderHand : Option OutPacket
  readLog : List Packet
  handedLog : List Command
  sentLog : List Delivery

namespace State

/-- Nobody is connected. -/
def initial : State where
  playerHeap := Heap.empty Player.unallocated
  players := []
  gameHeap := Heap.empty Game.unallocated
  games := []
  maxGameId := 0
  descriptors := fun _ => none
  packetQueue := []
  packetStage := .idle
  commandQueue := []
  pQueue := []
  senderHand := none
  readLog := []
  handedLog := []
  sentLog := []

/-! ## Objects behind pointers -/

/-- The player behind a pointer. -/
def player (s : State) (p : PlayerRef) : Player := s.playerHeap.get p

/-- The game behind a pointer. -/
def game (s : State) (g : GameRef) : Game := s.gameHeap.get g

/-- Changes the player behind a pointer. -/
@[simps -fullyApplied] def modifyPlayer (s : State) (p : PlayerRef) (f : Player → Player) : State :=
  { s with playerHeap := s.playerHeap.modify p f }

/-- Changes the game behind a pointer. -/
@[simps -fullyApplied] def modifyGame (s : State) (g : GameRef) (f : Game → Game) : State :=
  { s with gameHeap := s.gameHeap.modify g f }

/-- Appends to `Sender`'s queue. -/
@[simps -fullyApplied] def pushOut (s : State) (packet : OutPacket) : State :=
  { s with pQueue := s.pQueue ++ [packet] }

/-- Appends several packets to `Sender`'s queue. -/
@[simps -fullyApplied] def pushAll (s : State) (packets : List OutPacket) : State :=
  { s with pQueue := s.pQueue ++ packets }

/-- `CommandManager::registerCommand`. -/
@[simps -fullyApplied] def registerCommand (s : State) (command : Command) : State :=
  { s with commandQueue := s.commandQueue ++ [command] }

/-- A different content of `Server::players`. -/
@[simps -fullyApplied] def withPlayers (s : State) (players : List PlayerRef) : State :=
  { s with players := players }

/-- A different content of `GameManager::games`. -/
@[simps -fullyApplied] def withGames (s : State) (games : List GameRef) : State :=
  { s with games := games }

/-- `close(socket)` and `FD_CLR(socket, &clientSocks)`. -/
@[simps -fullyApplied] def closeSocket (s : State) (socket : Int) : State :=
  { s with descriptors := fun fd => if fd = socket then none else s.descriptors fd }

theorem player_modifyPlayer (s : State) (p q : PlayerRef) (f : Player → Player) :
    (s.modifyPlayer p f).player q = if q = p then f (s.player p) else s.player q :=
  Heap.get_modify s.playerHeap p q f

@[simp] theorem player_modifyPlayer_self (s : State) (p : PlayerRef) (f : Player → Player) :
    (s.modifyPlayer p f).player p = f (s.player p) :=
  Heap.get_modify_self s.playerHeap p f

theorem player_modifyPlayer_of_ne (s : State) {p q : PlayerRef} (f : Player → Player)
    (hne : q ≠ p) : (s.modifyPlayer p f).player q = s.player q :=
  Heap.get_modify_of_ne s.playerHeap f hne

/-- A field that the update keeps is unchanged for every player. -/
theorem field_modifyPlayer {β : Type*} (field : Player → β) (s : State) (p q : PlayerRef)
    (f : Player → Player) (keep : ∀ x, field (f x) = field x) :
    field ((s.modifyPlayer p f).player q) = field (s.player q) :=
  Heap.get_modify_field field s.playerHeap p q f keep

/-! What the updates of the source keep, field by field. -/

@[simp] theorem name_modifyPlayer (s : State) (p q : PlayerRef) (f : Player → Player)
    (keep : ∀ x, (f x).name = x.name) :
    ((s.modifyPlayer p f).player q).name = (s.player q).name :=
  field_modifyPlayer Player.name s p q f keep

@[simp] theorem inGame_modifyPlayer (s : State) (p q : PlayerRef) (f : Player → Player)
    (keep : ∀ x, (f x).inGame = x.inGame) :
    ((s.modifyPlayer p f).player q).inGame = (s.player q).inGame :=
  field_modifyPlayer Player.inGame s p q f keep

@[simp] theorem lost_modifyPlayer (s : State) (p q : PlayerRef) (f : Player → Player)
    (keep : ∀ x, (f x).lost = x.lost) :
    ((s.modifyPlayer p f).player q).lost = (s.player q).lost :=
  field_modifyPlayer Player.lost s p q f keep

@[simp] theorem socket_modifyPlayer (s : State) (p q : PlayerRef) (f : Player → Player)
    (keep : ∀ x, (f x).socket = x.socket) :
    ((s.modifyPlayer p f).player q).socket = (s.player q).socket :=
  field_modifyPlayer Player.socket s p q f keep

@[simp] theorem socketSet_modifyPlayer (s : State) (p q : PlayerRef) (f : Player → Player)
    (keep : ∀ x, (f x).socketSet = x.socketSet) :
    ((s.modifyPlayer p f).player q).socketSet = (s.player q).socketSet :=
  field_modifyPlayer Player.socketSet s p q f keep

@[simp] theorem joiningPlayer_modifyPlayer (s : State) (p q : PlayerRef)
    (f : Player → Player) (keep : ∀ x, (f x).joiningPlayer = x.joiningPlayer) :
    ((s.modifyPlayer p f).player q).joiningPlayer = (s.player q).joiningPlayer :=
  field_modifyPlayer Player.joiningPlayer s p q f keep

@[simp] theorem askedForJoiningBy_modifyPlayer (s : State) (p q : PlayerRef)
    (f : Player → Player) (keep : ∀ x, (f x).askedForJoiningBy = x.askedForJoiningBy) :
    ((s.modifyPlayer p f).player q).askedForJoiningBy = (s.player q).askedForJoiningBy :=
  field_modifyPlayer Player.askedForJoiningBy s p q f keep

@[simp] theorem nameSet_modifyPlayer (s : State) (p q : PlayerRef) (f : Player → Player)
    (keep : ∀ x, (f x).nameSet = x.nameSet) :
    ((s.modifyPlayer p f).player q).nameSet = (s.player q).nameSet :=
  field_modifyPlayer Player.nameSet s p q f keep

@[simp] theorem availible_modifyPlayer (s : State) (p q : PlayerRef) (f : Player → Player)
    (keep : ∀ x, (f x).availible = x.availible) :
    ((s.modifyPlayer p f).player q).availible = (s.player q).availible :=
  field_modifyPlayer Player.availible s p q f keep

/-! And what they change. -/

@[simp] theorem name_setName (s : State) (p q : PlayerRef) (n : ByteString) :
    ((s.modifyPlayer p (Player.setName n)).player q).name
      = if q = p then n else (s.player q).name := by
  rw [player_modifyPlayer]
  split <;> rfl

@[simp] theorem inGame_setInGame (s : State) (p q : PlayerRef) (b : Bool) :
    ((s.modifyPlayer p (Player.setInGame b)).player q).inGame
      = if q = p then b else (s.player q).inGame := by
  rw [player_modifyPlayer]
  split <;> rfl

@[simp] theorem availible_setAvailible (s : State) (p q : PlayerRef) (b : Bool) :
    ((s.modifyPlayer p (Player.setAvailible b)).player q).availible
      = if q = p then b else (s.player q).availible := by
  rw [player_modifyPlayer]
  split <;> rfl

theorem game_modifyGame (s : State) (g h : GameRef) (f : Game → Game) :
    (s.modifyGame g f).game h = if h = g then f (s.game g) else s.game h :=
  Heap.get_modify s.gameHeap g h f

@[simp] theorem game_modifyGame_self (s : State) (g : GameRef) (f : Game → Game) :
    (s.modifyGame g f).game g = f (s.game g) :=
  Heap.get_modify_self s.gameHeap g f

theorem game_modifyGame_of_ne (s : State) {g h : GameRef} (f : Game → Game) (hne : h ≠ g) :
    (s.modifyGame g f).game h = s.game h :=
  Heap.get_modify_of_ne s.gameHeap f hne

/-- A field that the update keeps is unchanged for every game. -/
theorem field_modifyGame {β : Type*} (field : Game → β) (s : State) (g h : GameRef)
    (f : Game → Game) (keep : ∀ x, field (f x) = field x) :
    field ((s.modifyGame g f).game h) = field (s.game h) :=
  Heap.get_modify_field field s.gameHeap g h f keep

@[simp] theorem p1_modifyGame (s : State) (g h : GameRef) (f : Game → Game)
    (keep : ∀ x, (f x).p1 = x.p1) : ((s.modifyGame g f).game h).p1 = (s.game h).p1 :=
  field_modifyGame Game.p1 s g h f keep

@[simp] theorem p2_modifyGame (s : State) (g h : GameRef) (f : Game → Game)
    (keep : ∀ x, (f x).p2 = x.p2) : ((s.modifyGame g f).game h).p2 = (s.game h).p2 :=
  field_modifyGame Game.p2 s g h f keep

@[simp] theorem id_modifyGame (s : State) (g h : GameRef) (f : Game → Game)
    (keep : ∀ x, (f x).id = x.id) : ((s.modifyGame g f).game h).id = (s.game h).id :=
  field_modifyGame Game.id s g h f keep

@[simp] theorem playerOnTurn_modifyGame (s : State) (g h : GameRef) (f : Game → Game)
    (keep : ∀ x, (f x).playerOnTurn = x.playerOnTurn) :
    ((s.modifyGame g f).game h).playerOnTurn = (s.game h).playerOnTurn :=
  field_modifyGame Game.playerOnTurn s g h f keep

@[simp] theorem field_modifyGame_field (s : State) (g h : GameRef) (f : Game → Game)
    (keep : ∀ x, (f x).field = x.field) :
    ((s.modifyGame g f).game h).field = (s.game h).field :=
  field_modifyGame Game.field s g h f keep

/-! The objects seen through the other updates. -/

@[simp] theorem game_modifyPlayer (s : State) (p : PlayerRef) (f : Player → Player)
    (g : GameRef) : (s.modifyPlayer p f).game g = s.game g := rfl

@[simp] theorem player_modifyGame (s : State) (g : GameRef) (f : Game → Game)
    (p : PlayerRef) : (s.modifyGame g f).player p = s.player p := rfl

@[simp] theorem player_pushOut (s : State) (packet : OutPacket) (p : PlayerRef) :
    (s.pushOut packet).player p = s.player p := rfl

@[simp] theorem game_pushOut (s : State) (packet : OutPacket) (g : GameRef) :
    (s.pushOut packet).game g = s.game g := rfl

@[simp] theorem player_pushAll (s : State) (packets : List OutPacket) (p : PlayerRef) :
    (s.pushAll packets).player p = s.player p := rfl

@[simp] theorem game_pushAll (s : State) (packets : List OutPacket) (g : GameRef) :
    (s.pushAll packets).game g = s.game g := rfl

theorem pushAll_nil (s : State) : s.pushAll [] = s := by
  simp [pushAll]

@[simp] theorem player_registerCommand (s : State) (command : Command) (p : PlayerRef) :
    (s.registerCommand command).player p = s.player p := rfl

@[simp] theorem game_registerCommand (s : State) (command : Command) (g : GameRef) :
    (s.registerCommand command).game g = s.game g := rfl

@[simp] theorem player_withPlayers (s : State) (players : List PlayerRef) (p : PlayerRef) :
    (s.withPlayers players).player p = s.player p := rfl

@[simp] theorem game_withPlayers (s : State) (players : List PlayerRef) (g : GameRef) :
    (s.withPlayers players).game g = s.game g := rfl

@[simp] theorem player_withGames (s : State) (games : List GameRef) (p : PlayerRef) :
    (s.withGames games).player p = s.player p := rfl

@[simp] theorem game_withGames (s : State) (games : List GameRef) (g : GameRef) :
    (s.withGames games).game g = s.game g := rfl

@[simp] theorem player_closeSocket (s : State) (socket : Int) (p : PlayerRef) :
    (s.closeSocket socket).player p = s.player p := rfl

@[simp] theorem game_closeSocket (s : State) (socket : Int) (g : GameRef) :
    (s.closeSocket socket).game g = s.game g := rfl

/-! ## Who sits where -/

/-- The player holds a seat of a registered game. -/
def Seated (s : State) (p : PlayerRef) : Prop := ∃ g ∈ s.games, (s.game g).Seats p

instance (s : State) (p : PlayerRef) : Decidable (s.Seated p) :=
  inferInstanceAs (Decidable (∃ g ∈ s.games, (s.game g).Seats p))

end State

end UpsServer
