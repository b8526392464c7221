import UpsServer.Game.ControlFunctions

/-!
# The two colours

The cases of `controlWhite` are those of `controlBlack` for other cards. Exchanging the cards
accordingly exchanges the two functions, so neither colour plays by rules of its own, and
`isGameWon` does not notice the exchange.
-/

namespace UpsServer

open Framework Track

/-! ## Exchanging the cards -/

/-- The card whose black line runs as the white line of the given one, and the other way round. -/
def recolour (cardType : Int) : Int :=
  if cardType = 1 then 2
  else if cardType = 2 then 1
  else if cardType = 3 then 5
  else if cardType = 5 then 3
  else if cardType = 4 then 6
  else if cardType = 6 then 4
  else cardType

/-- Every card of the board exchanged. -/
def Board.recoloured (board : Board) : Board := fun c => recolour (board c)

theorem recolour_recolour (cardType : Int) : recolour (recolour cardType) = cardType := by
  by_cases hcard : cardType = 1 ∨ cardType = 2 ∨ cardType = 3 ∨ cardType = 4 ∨ cardType = 5 ∨
      cardType = 6
  · rcases hcard with rfl | rfl | rfl | rfl | rfl | rfl <;> rfl
  · -- every other value stays
    have hsame : recolour cardType = cardType := by
      unfold recolour
      split_ifs <;> omega
    rw [hsame, hsame]

theorem recolour_eq_zero_iff (cardType : Int) : recolour cardType = 0 ↔ cardType = 0 := by
  unfold recolour
  split_ifs <;> omega

theorem Board.recoloured_recoloured (board : Board) : board.recoloured.recoloured = board :=
  funext fun c => recolour_recolour (board c)

/-! ## Exchanging the colours -/

theorem blackEnds_recolour (cardType : Int) :
    blackEnds (recolour cardType) = whiteEnds cardType := by
  unfold recolour
  split_ifs with h₁ h₂ h₃ h₅ h₄ h₆
  · rw [h₁]; rfl
  · rw [h₂]; rfl
  · rw [h₃]; rfl
  · rw [h₅]; rfl
  · rw [h₄]; rfl
  · rw [h₆]; rfl
  · simp [blackEnds, whiteEnds, h₁, h₂, h₃, h₄, h₅, h₆]

/-- The white lines of a board are the black lines of the other one. -/
theorem lineTrack_recoloured (board : Board) :
    lineTrack blackEnds board.recoloured = lineTrack whiteEnds board := by
  simp only [lineTrack, Board.recoloured, blackEnds_recolour, recolour_eq_zero_iff]

theorem controlBlackCases_recoloured (missing : Cell → Bool) (board : Board) (fuel : Nat)
    (ctrlField : Cell → Bool) (i j fromI fromJ : Int) :
    controlBlackCases missing board.recoloured fuel ctrlField i j fromI fromJ
      = controlWhiteCases missing board fuel ctrlField i j fromI fromJ := by
  rw [controlBlackCases_eq, controlWhiteCases_eq, lineTrack_recoloured]

theorem controlWhiteCases_recoloured (missing : Cell → Bool) (board : Board) (fuel : Nat)
    (ctrlField : Cell → Bool) (i j fromI fromJ : Int) :
    controlWhiteCases missing board.recoloured fuel ctrlField i j fromI fromJ
      = controlBlackCases missing board fuel ctrlField i j fromI fromJ := by
  rw [← controlBlackCases_recoloured, Board.recoloured_recoloured]

/-- `isGameWon` answers `true` when one of the two functions does. -/
theorem isGameWonReading_eq {white black : Cell → Bool} {board : Board} {move : Cell}
    {r r' : Answer × (Cell → Bool)}
    (hwhite : controlWhiteCases white board walkFuel (fun _ => false) move.1 move.2 move.1 move.2
      = some r)
    (hblack : controlBlackCases black board walkFuel (fun _ => false) move.1 move.2 move.1 move.2
      = some r') :
    isGameWonReading white black board move
      = some (r.1.readAs (white move) || r'.1.readAs (black move)) := by
  rw [isGameWonReading, hwhite, hblack, Option.bind_some, Option.map_some]
  cases r.1.readAs (white move) <;> cases r'.1.readAs (black move) <;> rfl

theorem isGameWonReading_recoloured (white black : Cell → Bool) (board : Board) (move : Cell) :
    isGameWonReading white black board.recoloured move
      = isGameWonReading black white board move := by
  obtain ⟨r, hr⟩ := exists_controlWhiteCases black board (fun _ => false)
    move.1 move.2 move.1 move.2
  obtain ⟨r', hr'⟩ := exists_controlBlackCases white board (fun _ => false)
    move.1 move.2 move.1 move.2
  have hsecond : controlWhiteCases white board.recoloured walkFuel (fun _ => false)
      move.1 move.2 move.1 move.2 = some r' := by
    rw [controlWhiteCases_recoloured, hr']
  have hfirst : controlBlackCases black board.recoloured walkFuel (fun _ => false)
      move.1 move.2 move.1 move.2 = some r := by
    rw [controlBlackCases_recoloured, hr]
  rw [isGameWonReading_eq hr hr', isGameWonReading_eq hsecond hfirst, Bool.or_comm]

/-- On every board and from every visited array, start and origin, `controlWhite` returns the
    result and leaves the array that `controlBlack` does on the recoloured board, whatever a
    missing return is read as; both return. `isGameWon` answers the same on both boards. -/
theorem colour_duality (board : Board) :
    (∀ missing ctrlField i j fromI fromJ, ∃ result,
      controlWhiteCases missing board walkFuel ctrlField i j fromI fromJ = some result ∧
        controlBlackCases missing board.recoloured walkFuel ctrlField i j fromI fromJ
          = some result) ∧
    (∀ missing fuel ctrlField i j fromI fromJ,
      controlWhiteCases missing board fuel ctrlField i j fromI fromJ
        = controlBlackCases missing board.recoloured fuel ctrlField i j fromI fromJ) ∧
    ∀ move, isGameWon board.recoloured move = isGameWon board move ∧
      ∀ missing, isGameWonReading missing missing board.recoloured move
        = isGameWonReading missing missing board move := by
  refine ⟨fun missing ctrlField i j fromI fromJ => ?_, fun missing fuel ctrlField i j fromI fromJ =>
    (controlBlackCases_recoloured missing board fuel ctrlField i j fromI fromJ).symm,
    fun move => ⟨?_, fun missing => isGameWonReading_recoloured missing missing board move⟩⟩
  · obtain ⟨result, hresult⟩ := exists_controlWhiteCases missing board ctrlField i j fromI fromJ
    exact ⟨result, hresult, by rw [controlBlackCases_recoloured, hresult]⟩
  · have hsame := isGameWonReading_recoloured (fun _ => false) (fun _ => false) board move
    rw [isGameWonReading_false, isGameWonReading_false] at hsame
    exact Option.some.inj hsame

end UpsServer
