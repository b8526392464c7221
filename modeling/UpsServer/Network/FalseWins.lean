import UpsServer.Game.EdgeColours
import UpsServer.Network.BoardSteps

/-!
# Wins that are announced

When `H_S_GAME_WON` is sent for a move, is there a closed line through the cell just played? The
walk does not look at the side on which it enters a card, and the server does not look at the
cards a move is put next to. So the answer is yes for players who put matching cards only, and no
for the others.
-/

namespace UpsServer

open Framework CommandManager

/-! ## Announcements -/

/-- A move is announced as winning exactly when `isGameWon` says so. -/
theorem MoveEffect.announces_iff {s t : State} {p : PlayerRef} {game : GameRef} {m : Move}
    (h : MoveEffect s p game m t) :
    Announces s t H_S_GAME_WON ↔ isGameWon (m.boardIn s game) m.cell = true := by
  cases h with
  | @won first second closes _ _ winsFirst =>
    refine ⟨fun _ => closes, fun _ => ⟨[first, second], ?_, first, List.mem_cons_self, winsFirst⟩⟩
    exact List.append_assoc s.pQueue [first] [second]
  | @passed info stays _ tells =>
    apply Iff.intro
    · intro hannounced
      have hheader : info.message.header = H_S_GAME_WON := hannounced.singleton rfl
      rw [tells] at hheader
      exact absurd hheader (by decide)
    · intro hwon
      rw [stays] at hwon
      cases hwon

/-! ## Moves by the rules -/

/-- A handled move is on the board and puts one of the six cards. -/
def CardMoves (s : State) (a : Action) : Prop :=
  a = .runCommand → ∀ x ∈ s.nextMove, x.move.Inside ∧ IsCard x.move.card

instance (s : State) (a : Action) : Decidable (CardMoves s a) :=
  inferInstanceAs (Decidable (_ → ∀ x ∈ s.nextMove, _ ∧ _))

/-- A handled move in the game is on the board and puts a card that has the colours of the cards
    around it. -/
def FittingMoves (g : GameRef) (s : State) (a : Action) : Prop :=
  a = .runCommand → ∀ x ∈ s.nextMove, x.game = g → x.move.Inside ∧
    FitsBoard (s.game g).field x.move.cell x.move.card

instance (g : GameRef) (s : State) (a : Action) : Decidable (FittingMoves g s a) :=
  inferInstanceAs (Decidable (_ → ∀ x ∈ s.nextMove, _ → _ ∧ _))

/-- After moves that fit, the edges match on the board of the game. -/
theorem edgesMatch_of_fittingMoves {s : State} {g : GameRef}
    (h : System.ReachableUnder (FittingMoves g) s) : g ∈ s.games → EdgesMatch (s.game g).field := by
  apply board_invariant g h EdgesMatch.empty
  intro t x hguard hnext hhere hboard _
  subst hhere
  exact hboard.put (hguard rfl x hnext rfl).2

/-! ## No false win -/

/-- A move in the game that meets the guard is announced as winning only when the cell just played
    lies on a closed line of one colour. -/
def NoFalseWin (Guard : State → Action → Prop) (g : GameRef) (s : State) : Prop :=
  ∀ command ∈ s.commandQueue.head?, command.message.header = H_C_GAME_MOVE →
    Guard s .runCommand → ∀ t, System.exec s .runCommand = .ok t →
      Announces s t H_S_GAME_WON → ∃ x ∈ s.nextMove, x.game = g → ∃ line, x.move.cell ∈ line ∧
        (ClosedLine blackEnds (x.board s) line ∨ ClosedLine whiteEnds (x.board s) line)

/-- **No false win** in a game in which every card that is put has the colours of the cards around
    it, whatever is played in the other games. -/
theorem no_false_win (g : GameRef) (s : State) (h : System.ReachableUnder (FittingMoves g) s) :
    NoFalseWin (FittingMoves g) g s := by
  intro command hhead header hguard t hexec hannounced
  obtain ⟨x, _, hnext, -, heffect⟩ := nextMove_of_exec hhead header hexec
  have hwon : isGameWon (x.board s) x.move.cell = true := heffect.announces_iff.mp hannounced
  refine ⟨x, hnext, ?_⟩
  rintro rfl
  -- the edges matched before the move, and the card fits
  have hmatch := edgesMatch_of_fittingMoves h (State.nextMove_registered hnext)
  have hboard : EdgesMatch (x.board s) := hmatch.put (hguard rfl x hnext rfl).2
  exact hboard.closedLine_of_isGameWon hwon

/-- Four cards in a square, the last one still to be handled. -/
def closeSquare : List Action :=
  System.playTwo ++ System.makeMove 5 3 0 0 ++ System.makeMove 6 6 0 1 ++
    System.makeMove 5 4 1 0 ++ System.aboutToMove 6 5 1 1

theorem no_false_win_square :
    (System.machine.after (FittingMoves 0) closeSquare).nextMove = some ⟨1, 0, ⟨5, 1, 1⟩⟩ ∧
      NoFalseWin (FittingMoves 0) 0 (System.machine.after (FittingMoves 0) closeSquare) :=
  ⟨by decide +kernel, no_false_win 0 _ (Machine.reachableUnder_after _)⟩

/-- Four cards in a square whose colours do not match, the last one still to be handled. -/
def walkInCircles : List Action :=
  System.playTwo ++ System.makeMove 5 2 0 1 ++ System.makeMove 6 1 1 1 ++
    System.makeMove 5 2 1 0 ++ System.aboutToMove 6 1 0 0

/-- With any of the six cards allowed, some move is announced as winning and closes no line: both
    lines of its card leave the board. -/
theorem false_win_is_announced :
    ¬ ∀ g s, System.ReachableUnder CardMoves s → NoFalseWin CardMoves g s := by
  intro h
  generalize hs : System.machine.after CardMoves walkInCircles = s
  have hreached : System.ReachableUnder CardMoves s := hs ▸ Machine.reachableUnder_after _
  obtain ⟨t, hexec⟩ : ∃ t, System.exec s .runCommand = .ok t := by
    have hok : (System.exec s .runCommand).toOption.isSome = true := by
      rw [← hs]
      decide +kernel
    obtain ⟨t, ht⟩ := Option.isSome_iff_exists.mp hok
    exact ⟨t, toOption_eq_some_iff.mp ht⟩
  have hnext : s.nextMove = some ⟨1, 0, ⟨1, 0, 0⟩⟩ := by
    rw [← hs]
    decide +kernel
  have hwon : isGameWon ((⟨1, 0, 0⟩ : Move).boardIn s 0) (0, 0) = true := by
    rw [← hs]
    decide +kernel
  obtain ⟨command, hhead, header, -⟩ := State.nextMove_eq_some_iff.mp hnext
  obtain ⟨x, _, hx, hinside, heffect⟩ := nextMove_of_exec hhead header hexec
  obtain rfl := Option.some.inj (hx.symm.trans hnext)
  have hguard : CardMoves s .runCommand := by
    rintro - y hy
    obtain rfl := Option.some.inj (hy.symm.trans hnext)
    exact ⟨hinside, by decide⟩
  obtain ⟨y, hy, hline⟩ :=
    h 0 s hreached command hhead header hguard t hexec (heffect.announces_iff.mpr hwon)
  obtain rfl := Option.some.inj (hy.symm.trans hnext)
  obtain ⟨line, hcell, hclosed⟩ := hline rfl
  -- the white line of the card leaves the board to the left, the black one at the top
  rcases hclosed with hblack | hwhite
  · have hup := (hblack.goes_on hcell (s := .up) rfl).1
    exact absurd hup (by decide)
  · have hleft := (hwhite.goes_on hcell (s := .left) rfl).1
    exact absurd hleft (by decide)

end UpsServer
