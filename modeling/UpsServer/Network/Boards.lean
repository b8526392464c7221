import UpsServer.Network.BoardSteps

/-!
# Boards of registered games

No registered game has a closed line on its board. A move changes one cell; a line it closes
runs through that cell, is found, and then the game is not registered any more.
-/

namespace UpsServer

open Framework CommandManager

/-- No registered game has been won unnoticed. -/
def NoMissedWin (s : State) : Prop := ∀ g ∈ s.games, NoClosedLine (s.game g).field

theorem noMissedWin_of_reachable {s : State} (h : System.Reachable s) : NoMissedWin s := by
  apply boards_invariant h noClosedLine_empty
  intro t x _ _ hboard hopen
  -- a line that is new runs through the cell just played
  exact hboard.put hopen

/-- **No missed win**: in every reachable state no registered game has a closed line of one
    colour on its board. Runs end at a move outside the board. -/
theorem registered_games_have_no_closed_line (s : State) (h : System.Reachable s) :
    ∀ g ∈ s.games, ∀ line, ¬ ClosedLine blackEnds (s.game g).field line ∧
      ¬ ClosedLine whiteEnds (s.game g).field line :=
  fun g hg line => noMissedWin_of_reachable h g hg line

/-- The first move of a game. -/
def firstMove : List Action :=
  System.playTwo ++ System.deliver 5 H_C_GAME_MOVE [.int 3, .int 0, .int 0]

theorem registered_games_have_no_closed_line_moved :
    (System.after firstMove).games = [0] ∧ ((System.after firstMove).game 0).field (0, 0) = 3 ∧
      ∀ g ∈ (System.after firstMove).games, ∀ line,
        ¬ ClosedLine blackEnds ((System.after firstMove).game g).field line ∧
          ¬ ClosedLine whiteEnds ((System.after firstMove).game g).field line :=
  ⟨by decide +kernel, by decide +kernel,
    registered_games_have_no_closed_line _ (System.reachable_after firstMove)⟩

end UpsServer
