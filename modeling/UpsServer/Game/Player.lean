import UpsServer.Framework.ByteBuffer
import Mathlib.Tactic.Simps.Basic

/-!
# Players

The `Player` object: one is allocated for every accepted connection and none is ever freed.
Other objects refer to it by pointer, a number here; `none` is the null pointer.
-/

namespace UpsServer

open Framework

/-- A `Player *` that is not null. -/
abbrev PlayerRef := Nat

/-- `class Player`. A name is a `std::string`, so any sequence of bytes. -/
structure Player where
  name : ByteString
  nameSet : Bool
  socket : Int
  socketSet : Bool
  inGame : Bool
  availible : Bool
  joiningPlayer : Option PlayerRef
  askedForJoiningBy : Option PlayerRef
  lost : Bool
  bullshitMessages : Nat
  deriving DecidableEq, Repr

namespace Player

/-- `Player::Player(int socket)`. The constructor leaves `nameSet` as the allocation found
    it, so its first value is a parameter. -/
def ofSocket (socket : Int) (nameSet : Bool) : Player where
  name := []
  nameSet := nameSet
  socket := socket
  socketSet := true
  inGame := false
  availible := false
  joiningPlayer := none
  askedForJoiningBy := none
  lost := false
  bullshitMessages := 0

/-- What an unallocated cell holds; no pointer leads there. -/
def unallocated : Player := { ofSocket (-1) false with socketSet := false }

/-- `Player::hasSocket`. -/
def hasSocket (p : Player) : Bool := p.socketSet

/-- `Player::hasName`. -/
def hasName (p : Player) : Bool := p.nameSet

/-- `Player::removeSocket`. -/
@[simps] def removeSocket (p : Player) : Player := { p with socket := -1, socketSet := false }

/-- `Player::setName`. -/
@[simps] def setName (name : ByteString) (p : Player) : Player :=
  { p with name := name, nameSet := true }

/-- `Player::setInGame`. -/
@[simps] def setInGame (inGame : Bool) (p : Player) : Player := { p with inGame := inGame }

/-- `Player::setAvailible`. -/
@[simps] def setAvailible (availible : Bool) (p : Player) : Player :=
  { p with availible := availible }

end Player

end UpsServer
