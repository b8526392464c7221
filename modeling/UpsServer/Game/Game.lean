import UpsServer.Game.Player

/-!
# Games

The `Game` object: an eight by eight board of card types, two seats and the player on turn.
-/

namespace UpsServer

open Framework

/-! ## The board -/

/-- Row and column of a cell, both `int` in the source. -/
abbrev Cell := Int × Int

/-- `int field[8][8]`; only cells with both indices in `0..7` are ever used. -/
abbrev Board := Cell → Int

/-- The cell lies on the board. -/
def OnBoard (c : Cell) : Prop := 0 ≤ c.1 ∧ c.1 ≤ 7 ∧ 0 ≤ c.2 ∧ c.2 ≤ 7

instance (c : Cell) : Decidable (OnBoard c) := inferInstanceAs (Decidable (_ ∧ _))

namespace Board

/-- All cells empty, as the constructor of `Game` leaves them. -/
def empty : Board := fun _ => 0

/-- `field[i][j] = cardType`. -/
def put (board : Board) (c : Cell) (cardType : Int) : Board :=
  fun x => if x = c then cardType else board x

theorem put_of_ne (board : Board) {c x : Cell} (cardType : Int) (hne : x ≠ c) :
    board.put c cardType x = board x := by
  simp [put, hne]

end Board

/-! ## The object -/

/-- A `Game *` that is not null. -/
abbrev GameRef := Nat

/-- `class Game`. The constructor leaves `playerOnTurn` unset. -/
structure Game where
  id : Int
  field : Board
  p1 : PlayerRef
  p2 : PlayerRef
  playerOnTurn : Option PlayerRef

namespace Game

/-- `Game::Game(id)` followed by `setPlayer1` and `setPlayer2`. -/
@[simps -fullyApplied] def new (id : Int) (p1 p2 : PlayerRef) : Game :=
  ⟨id, Board.empty, p1, p2, none⟩

/-- What an unallocated cell holds; no pointer leads there. -/
def unallocated : Game := new (-1) 0 0

/-- `Game::setPlayer1`. -/
@[simps -fullyApplied] def setPlayer1 (nP : PlayerRef) (g : Game) : Game := { g with p1 := nP }

/-- `Game::setPlayer2`. -/
@[simps -fullyApplied] def setPlayer2 (nP : PlayerRef) (g : Game) : Game := { g with p2 := nP }

/-- `game->field[i][j] = cardType` for a cell on the board. -/
@[simps -fullyApplied] def putCard (c : Cell) (cardType : Int) (g : Game) : Game :=
  { g with field := g.field.put c cardType }

/-- `game->playerOnTurn = p`. -/
@[simps -fullyApplied] def setPlayerOnTurn (p : PlayerRef) (g : Game) : Game :=
  { g with playerOnTurn := some p }

/-- The player holds one of the two seats. -/
def Seats (g : Game) (p : PlayerRef) : Prop := g.p1 = p ∨ g.p2 = p

instance (g : Game) (p : PlayerRef) : Decidable (g.Seats p) := inferInstanceAs (Decidable (_ ∨ _))

/-! ## The board as a string -/

/-- `std::to_string(int)`. -/
def toDecimal (value : Int) : ByteString :=
  let digits := (Nat.toDigits 10 value.natAbs).map fun c => UInt8.ofNat c.toNat
  if value < 0 then 45 :: digits else digits

/-- The cells in the order of the nested loops over `i` and `j`. -/
def cellsInOrder : List Cell :=
  (List.range 8).flatMap fun i : Nat => (List.range 8).map fun j : Nat => ((i : Int), (j : Int))

/-- `Game::getGameString`: the card types separated by `;`. -/
def getGameString (g : Game) : ByteString :=
  cellsInOrder.foldl
    (fun gS c => (if gS = [] then gS else gS ++ [59]) ++ toDecimal (g.field c)) []

end Game

end UpsServer
