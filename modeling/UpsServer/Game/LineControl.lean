import UpsServer.Framework.TwoEndWalk
import UpsServer.Game.Game
import Mathlib.Data.Finset.Dedup

/-!
# The search for a winning line

`controlBlack`, `controlWhite` and `GameManager::isGameWon`. A card carries one black and one
white line, each with two ends on the sides of the card. The two control functions differ
only in their table of ends; both are the depth-first walk of `Framework.Track` on the board.
-/

namespace UpsServer

open Framework

/-! ## Cards and their line ends -/

/-- The four neighbours that a line end can point to. -/
inductive Side where
  | up
  | down
  | left
  | right
  deriving DecidableEq, Repr

/-- The cell next to `c` on a side. -/
def neighbour (c : Cell) : Side → Cell
  | .up => (c.1 - 1, c.2)
  | .down => (c.1 + 1, c.2)
  | .left => (c.1, c.2 - 1)
  | .right => (c.1, c.2 + 1)

/-- The ends of the black line, in the order in which the `switch` of `controlBlack` follows
    them. -/
def blackEnds (cardType : Int) : Option (Side × Side) :=
  if cardType = 1 then some (.up, .down)
  else if cardType = 2 then some (.left, .right)
  else if cardType = 3 then some (.down, .right)
  else if cardType = 4 then some (.up, .right)
  else if cardType = 5 then some (.up, .left)
  else if cardType = 6 then some (.down, .left)
  else none

/-- The ends of the white line, in the order in which the `switch` of `controlWhite` follows
    them. -/
def whiteEnds (cardType : Int) : Option (Side × Side) :=
  if cardType = 1 then some (.left, .right)
  else if cardType = 2 then some (.up, .down)
  else if cardType = 3 then some (.up, .left)
  else if cardType = 4 then some (.down, .left)
  else if cardType = 5 then some (.down, .right)
  else if cardType = 6 then some (.up, .right)
  else none

/-! ## The control functions -/

/-- The lines of one colour on a board. A cell off the board or without a card is blocked. -/
def lineTrack (ends : Int → Option (Side × Side)) (board : Board) : Track Cell where
  blocked c := !decide (OnBoard c) || decide (board c = 0)
  ends c := (ends (board c)).map fun s => (neighbour c s.1, neighbour c s.2)

/-- More than the number of cells, which is enough fuel for every walk. -/
def walkFuel : Nat := 65

/-- A control function with its table of ends. -/
def control (ends : Int → Option (Side × Side)) (board : Board) (ctrlField : Cell → Bool)
    (c origin : Cell) : Track.Answer × (Cell → Bool) :=
  ((lineTrack ends board).walk walkFuel ctrlField c origin).getD (.returned false, ctrlField)

/-- `controlBlack`. -/
def controlBlack : Board → (Cell → Bool) → Cell → Cell → Track.Answer × (Cell → Bool) :=
  control blackEnds

/-- `controlWhite`. -/
def controlWhite : Board → (Cell → Bool) → Cell → Cell → Track.Answer × (Cell → Bool) :=
  control whiteEnds

/-- `GameManager::isGameWon` with a missing return read as `false`. -/
def isGameWon (board : Board) (move : Cell) : Bool :=
  if (controlWhite board (fun _ => false) move move).1.asBool then true
  else if (controlBlack board (fun _ => false) move move).1.asBool then true
  else false

/-! ## Fuel -/

/-- The sixty-four cells. -/
def boardCells : Finset Cell := Game.cellsInOrder.toFinset

theorem mem_boardCells {c : Cell} : c ∈ boardCells ↔ OnBoard c := by
  simp only [boardCells, List.mem_toFinset, Game.cellsInOrder, List.mem_flatMap, List.mem_map,
    List.mem_range]
  -- indices of the loops on the one side, bounds on `int` values on the other
  constructor
  · rintro ⟨i, hi, j, hj, rfl⟩
    simp only [OnBoard]
    omega
  · rintro ⟨hi, hi', hj, hj'⟩
    refine ⟨c.1.toNat, by omega, c.2.toNat, by omega, ?_⟩
    rw [Int.toNat_of_nonneg hi, Int.toNat_of_nonneg hj]

theorem mem_boardCells_of_open {ends : Int → Option (Side × Side)} {board : Board} {c : Cell}
    (h : (lineTrack ends board).blocked c = false) : c ∈ boardCells := by
  simp only [lineTrack, Bool.or_eq_false_iff, Bool.not_eq_false', decide_eq_true_eq] at h
  exact mem_boardCells.mpr h.1

theorem card_unmarked_lt_walkFuel (v : Cell → Bool) :
    (Track.unmarked boardCells v).card < walkFuel := by
  -- sixty-four cells at most are unmarked, and one more step meets no new one
  have hcard : boardCells.card = 64 := by decide +kernel
  have hle : (Track.unmarked boardCells v).card ≤ boardCells.card :=
    Finset.card_le_card (Finset.filter_subset _ _)
  have : walkFuel = 65 := rfl
  omega

/-- The walk of a control function always ends within its fuel. -/
theorem walk_control (ends : Int → Option (Side × Side)) (board : Board) (v : Cell → Bool)
    (c origin : Cell) :
    (lineTrack ends board).walk walkFuel v c origin = some (control ends board v c origin) := by
  obtain ⟨a, v', h⟩ := Track.walk_total (lineTrack ends board)
    (fun _ hopen => mem_boardCells_of_open hopen) c origin (card_unmarked_lt_walkFuel v)
  rw [control, h]
  rfl

/-! ## Closed lines are found -/

/-- A closed line of one colour on the board. -/
def ClosedLine (ends : Int → Option (Side × Side)) (board : Board) (line : List Cell) : Prop :=
  (lineTrack ends board).ClosedLine line

/-- No line of either colour is closed on the board. -/
def NoClosedLine (board : Board) : Prop :=
  ∀ line, ¬ ClosedLine blackEnds board line ∧ ¬ ClosedLine whiteEnds board line

theorem neighbour_ne_self (c : Cell) (s : Side) : neighbour c s ≠ c := by
  cases s <;> simp [neighbour, Prod.ext_iff]

theorem neighbour_injective (c : Cell) {s t : Side} (h : neighbour c s = neighbour c t) :
    s = t := by
  cases s <;> cases t <;> simp [neighbour, Prod.ext_iff] at h ⊢ <;> omega

theorem blackEnds_apart {x : Int} {s t : Side} (h : blackEnds x = some (s, t)) : s ≠ t := by
  unfold blackEnds at h
  split_ifs at h <;> cases h <;> decide

theorem whiteEnds_apart {x : Int} {s t : Side} (h : whiteEnds x = some (s, t)) : s ≠ t := by
  unfold whiteEnds at h
  split_ifs at h <;> cases h <;> decide

/-- A control function started on a closed line of its colour answers `true`. -/
theorem control_of_closedLine {ends : Int → Option (Side × Side)} {board : Board}
    {line : List Cell} (hapart : ∀ x s t, ends x = some (s, t) → s ≠ t)
    (hline : ClosedLine ends board line) {c : Cell} (hc : c ∈ line) (v : Cell → Bool) :
    (control ends board v c c).1 = .returned true := by
  obtain ⟨v', h⟩ := Track.walk_closes (lineTrack ends board)
    (fun _ hopen => mem_boardCells_of_open hopen) (fun x a b hends => by
      -- a card's two ends point to different neighbours, and none to the card itself
      obtain ⟨⟨s, t⟩, hst, heq⟩ := Option.map_eq_some_iff.mp hends
      cases heq
      exact ⟨fun h => hapart _ s t hst (neighbour_injective x h), neighbour_ne_self x s⟩)
    hline hc (card_unmarked_lt_walkFuel v)
  rw [walk_control] at h
  rw [Option.some.inj h]

/-- `isGameWon` notices every closed line through the cell just played. -/
theorem isGameWon_of_closedLine {board : Board} {line : List Cell} {c : Cell} (hc : c ∈ line)
    (h : ClosedLine blackEnds board line ∨ ClosedLine whiteEnds board line) :
    isGameWon board c = true := by
  unfold isGameWon
  -- white is controlled first, and either answer is enough
  rcases h with hblack | hwhite
  · have hanswer : (controlBlack board (fun _ => false) c c).1 = .returned true :=
      control_of_closedLine (fun _ _ _ => blackEnds_apart) hblack hc _
    rw [hanswer]
    simp [Track.Answer.asBool]
  · have hanswer : (controlWhite board (fun _ => false) c c).1 = .returned true :=
      control_of_closedLine (fun _ _ _ => whiteEnds_apart) hwhite hc _
    rw [hanswer]
    simp [Track.Answer.asBool]

/-- A closed line that avoids the changed cell was there before. -/
theorem ClosedLine.of_put {ends : Int → Option (Side × Side)} {board : Board} {line : List Cell}
    {c : Cell} {cardType : Int} (h : ClosedLine ends (board.put c cardType) line)
    (hc : c ∉ line) : ClosedLine ends board line := by
  have hsame : ∀ x ∈ line, board.put c cardType x = board x := fun x hx =>
    Board.put_of_ne board cardType (fun heq => hc (heq ▸ hx))
  exact Track.ClosedLine.congr h (fun x hx => by simp [lineTrack, hsame x hx])
    (fun x hx => by simp [lineTrack, hsame x hx])

/-- A move that is not recognised as winning closes no line. -/
theorem NoClosedLine.put {board : Board} (h : NoClosedLine board) {c : Cell} {cardType : Int}
    (hlost : isGameWon (board.put c cardType) c = false) :
    NoClosedLine (board.put c cardType) := by
  intro line
  -- a line through the cell would have been noticed, any other one was there before
  by_cases hc : c ∈ line
  · constructor
    · intro hblack
      rw [isGameWon_of_closedLine hc (Or.inl hblack)] at hlost
      cases hlost
    · intro hwhite
      rw [isGameWon_of_closedLine hc (Or.inr hwhite)] at hlost
      cases hlost
  · exact ⟨fun hblack => (h line).1 (hblack.of_put hc), fun hwhite => (h line).2 (hwhite.of_put hc)⟩

/-- The board of a new game has no closed line. -/
theorem noClosedLine_empty : NoClosedLine Board.empty := by
  intro line
  constructor <;> intro h <;> obtain ⟨c, hc⟩ := List.exists_mem_of_ne_nil line h.nonempty <;>
    simpa [lineTrack, Board.empty] using h.unblocked c hc

end UpsServer
