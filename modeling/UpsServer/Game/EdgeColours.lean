import UpsServer.Framework.MatchedTracks
import UpsServer.Game.LineControl

/-!
# Boards whose edges match

The rule of the game that the server never tests: where two cards meet, the lines on both sides of
the edge have the same colour. On a board that obeys it every line goes on where it leaves a card,
so the control functions answer `true` only on closed lines.
-/

namespace UpsServer

open Framework

/-! ## Colours at the sides of a card -/

namespace Side

/-- The same edge, seen from the next cell. -/
def opposite : Side → Side
  | .up => .down
  | .down => .up
  | .left => .right
  | .right => .left

/-- The four sides of a card. -/
def all : List Side := [.up, .down, .left, .right]

theorem mem_all (s : Side) : s ∈ all := by
  cases s <;> simp [all]

@[simp] theorem opposite_opposite (s : Side) : s.opposite.opposite = s := by
  cases s <;> rfl

end Side

theorem neighbour_opposite (c : Cell) (s : Side) : neighbour (neighbour c s) s.opposite = c := by
  cases s <;> simp [neighbour, Side.opposite]

/-- A line of the given colour ends on this side of the card. -/
def hasEnd (ends : Int → Option (Side × Side)) (cardType : Int) (s : Side) : Bool :=
  match ends cardType with
  | some (a, b) => s == a || s == b
  | none => false

/-- The six cards of the game. -/
def IsCard (cardType : Int) : Prop := 1 ≤ cardType ∧ cardType ≤ 6

instance (cardType : Int) : Decidable (IsCard cardType) := inferInstanceAs (Decidable (_ ∧ _))

/-- A side of a card is either white or black. -/
theorem hasEnd_blackEnds {cardType : Int} (h : IsCard cardType) (s : Side) :
    hasEnd blackEnds cardType s = !hasEnd whiteEnds cardType s := by
  obtain ⟨hlow, hhigh⟩ := h
  have hcases : cardType = 1 ∨ cardType = 2 ∨ cardType = 3 ∨ cardType = 4 ∨ cardType = 5 ∨
      cardType = 6 := by omega
  rcases hcases with rfl | rfl | rfl | rfl | rfl | rfl <;> cases s <;> rfl

/-! ## Cards that fit -/

/-- The card has the colours of the cards next to the cell. -/
def FitsBoard (board : Board) (c : Cell) (cardType : Int) : Prop :=
  IsCard cardType ∧ ∀ s ∈ Side.all, OnBoard (neighbour c s) → board (neighbour c s) ≠ 0 →
    hasEnd whiteEnds cardType s = hasEnd whiteEnds (board (neighbour c s)) s.opposite

instance (board : Board) (c : Cell) (cardType : Int) : Decidable (FitsBoard board c cardType) :=
  inferInstanceAs (Decidable (_ ∧ ∀ s ∈ Side.all, _ → _ → _))

/-- Only cards lie on the board, and where two of them meet their colours are the same. -/
structure EdgesMatch (board : Board) : Prop where
  cards : ∀ c, board c = 0 ∨ IsCard (board c)
  edges : ∀ c s, OnBoard c → OnBoard (neighbour c s) → board c ≠ 0 → board (neighbour c s) ≠ 0 →
    hasEnd whiteEnds (board c) s = hasEnd whiteEnds (board (neighbour c s)) s.opposite

namespace EdgesMatch

variable {board : Board}

theorem empty : EdgesMatch Board.empty where
  cards _ := Or.inl rfl
  edges _ _ _ _ h := absurd rfl h

/-- A card that fits keeps the edges matched, whatever lay in the cell before. -/
theorem put (h : EdgesMatch board) {c : Cell} {cardType : Int}
    (fits : FitsBoard board c cardType) : EdgesMatch (board.put c cardType) where
  cards x := by
    by_cases hx : x = c
    · exact Or.inr (by simpa [Board.put, hx] using fits.1)
    · rw [Board.put_of_ne _ _ hx]
      exact h.cards x
  edges x s hx hn hcard hcard' := by
    by_cases hxc : x = c
    · -- the edge seen from the card just played
      subst hxc
      have hne : neighbour x s ≠ x := neighbour_ne_self x s
      rw [Board.put_of_ne _ _ hne] at hcard' ⊢
      simpa [Board.put] using fits.2 s (Side.mem_all s) hn hcard'
    · rw [Board.put_of_ne _ _ hxc] at hcard ⊢
      by_cases hnc : neighbour x s = c
      · -- the same edge, seen from the card next to it
        have hback : neighbour c s.opposite = x := by
          rw [← hnc]
          exact neighbour_opposite x s
        have hedge := fits.2 s.opposite (Side.mem_all _) (hback ▸ hx) (hback ▸ hcard)
        rw [hback, Side.opposite_opposite] at hedge
        simpa [Board.put, hnc] using hedge.symm
      · rw [Board.put_of_ne _ _ hnc] at hcard' ⊢
        exact h.edges x s hx hn hcard hcard'

/-- What holds of the white lines holds of the black ones, too. -/
theorem black (h : EdgesMatch board) {c : Cell} {s : Side} (hc : OnBoard c)
    (hn : OnBoard (neighbour c s)) (hcard : board c ≠ 0) (hcard' : board (neighbour c s) ≠ 0) :
    hasEnd blackEnds (board c) s = hasEnd blackEnds (board (neighbour c s)) s.opposite := by
  rw [hasEnd_blackEnds ((h.cards c).resolve_left hcard),
    hasEnd_blackEnds ((h.cards _).resolve_left hcard'), h.edges c s hc hn hcard hcard']

end EdgesMatch

/-! ## The lines of a colour are matched -/

theorem joins_lineTrack_iff {ends : Int → Option (Side × Side)} {board : Board} {c n : Cell} :
    (lineTrack ends board).Joins c n ↔ ∃ s, hasEnd ends (board c) s = true ∧ neighbour c s = n := by
  cases hends : ends (board c) with
  | none => simp [Track.Joins, lineTrack, hasEnd, hends]
  | some e =>
    obtain ⟨a, b⟩ := e
    have htrack : (lineTrack ends board).ends c = some (neighbour c a, neighbour c b) := by
      simp [lineTrack, hends]
    have hend : ∀ s, hasEnd ends (board c) s = true ↔ s = a ∨ s = b := by
      intro s
      simp [hasEnd, hends]
    apply Iff.intro
    · intro hjoins
      obtain ⟨x, y, hxy, hn⟩ := hjoins
      obtain ⟨rfl, rfl⟩ := Prod.mk.inj (Option.some.inj (htrack.symm.trans hxy))
      rcases hn with hn | hn
      · exact ⟨a, (hend a).mpr (Or.inl rfl), hn⟩
      · exact ⟨b, (hend b).mpr (Or.inr rfl), hn⟩
    · intro hside
      obtain ⟨s, hs, hn⟩ := hside
      refine ⟨_, _, htrack, ?_⟩
      rcases (hend s).mp hs with rfl | rfl
      · exact Or.inl hn
      · exact Or.inr hn

theorem lineTrack_open {ends : Int → Option (Side × Side)} {board : Board} {c : Cell}
    (h : (lineTrack ends board).blocked c = false) : OnBoard c ∧ board c ≠ 0 := by
  simpa [lineTrack] using h

/-- Where a closed line leaves a cell there is another card. -/
theorem ClosedLine.goes_on {ends : Int → Option (Side × Side)} {board : Board} {line : List Cell}
    (h : ClosedLine ends board line) {c : Cell} (hc : c ∈ line) {s : Side}
    (hend : hasEnd ends (board c) s = true) :
    OnBoard (neighbour c s) ∧ board (neighbour c s) ≠ 0 := by
  have hjoins := joins_lineTrack_iff.mpr ⟨s, hend, rfl⟩
  have hmem := (Track.ClosedLine.closedUnder h).stays c _ hc hjoins
  exact lineTrack_open (h.unblocked _ hmem)

/-- Lines that go on across every edge between two cards are matched. -/
theorem lineTrack_matched {ends : Int → Option (Side × Side)} {board : Board}
    (hapart : ∀ x s t, ends x = some (s, t) → s ≠ t)
    (edges : ∀ c s, OnBoard c → OnBoard (neighbour c s) → board c ≠ 0 →
      board (neighbour c s) ≠ 0 →
        hasEnd ends (board c) s = hasEnd ends (board (neighbour c s)) s.opposite) :
    (lineTrack ends board).Matched where
  back c n hc hn hjoins := by
    obtain ⟨s, hend, rfl⟩ := joins_lineTrack_iff.mp hjoins
    obtain ⟨hboard, hcard⟩ := lineTrack_open hc
    obtain ⟨hboard', hcard'⟩ := lineTrack_open hn
    apply joins_lineTrack_iff.mpr
    refine ⟨s.opposite, ?_, neighbour_opposite c s⟩
    rw [← edges c s hboard hboard' hcard hcard']
    exact hend
  apart c a b hends := by
    obtain ⟨⟨s, t⟩, hst, heq⟩ := Option.map_eq_some_iff.mp hends
    obtain ⟨rfl, rfl⟩ := Prod.mk.inj heq
    exact ⟨fun h => hapart _ s t hst (neighbour_injective c h), neighbour_ne_self c s,
      neighbour_ne_self c t⟩

/-- A control function that answers `true` on matched lines started on a closed one. -/
theorem closedLine_of_control {ends : Int → Option (Side × Side)} {board : Board} {c : Cell}
    (hmatched : (lineTrack ends board).Matched)
    (h : (control ends board (fun _ => false) c c).1.asBool = true) :
    ∃ line, ClosedLine ends board line ∧ c ∈ line :=
  Track.closedLine_of_walk hmatched (walk_control ends board (fun _ => false) c c) h

/-! ## Loop detection is exact -/

/-- The cell lies on a closed line of black or of white. -/
def OnClosedLine (board : Board) (c : Cell) : Prop :=
  ∃ line, c ∈ line ∧ (ClosedLine blackEnds board line ∨ ClosedLine whiteEnds board line)

/-- `isGameWon` answers `true` only on closed lines, when the lines of both colours go on across
    every edge between two cards. -/
theorem onClosedLine_of_isGameWon {board : Board} {c : Cell}
    (white : ∀ x s, OnBoard x → OnBoard (neighbour x s) → board x ≠ 0 →
      board (neighbour x s) ≠ 0 →
        hasEnd whiteEnds (board x) s = hasEnd whiteEnds (board (neighbour x s)) s.opposite)
    (black : ∀ x s, OnBoard x → OnBoard (neighbour x s) → board x ≠ 0 →
      board (neighbour x s) ≠ 0 →
        hasEnd blackEnds (board x) s = hasEnd blackEnds (board (neighbour x s)) s.opposite)
    (won : isGameWon board c = true) : OnClosedLine board c := by
  unfold isGameWon at won
  split at won
  · rename_i hwhite
    obtain ⟨line, hline, hc⟩ := closedLine_of_control
      (lineTrack_matched (fun _ _ _ => whiteEnds_apart) white) hwhite
    exact ⟨line, hc, Or.inr hline⟩
  · split at won
    · rename_i hblack
      obtain ⟨line, hline, hc⟩ := closedLine_of_control
        (lineTrack_matched (fun _ _ _ => blackEnds_apart) black) hblack
      exact ⟨line, hc, Or.inl hline⟩
    · cases won

/-- When the edges match, `isGameWon` answers `true` only for a cell on a closed line. -/
theorem EdgesMatch.closedLine_of_isGameWon {board : Board} {c : Cell} (h : EdgesMatch board)
    (won : isGameWon board c = true) :
    ∃ line, c ∈ line ∧ (ClosedLine blackEnds board line ∨ ClosedLine whiteEnds board line) :=
  onClosedLine_of_isGameWon h.edges (fun _ _ => h.black) won

/-- Two neighbouring cards show the same colour at the edge they share. -/
def SameColour (board : Board) (x : Cell) (s : Side) : Prop :=
  hasEnd whiteEnds (board x) s = hasEnd whiteEnds (board (neighbour x s)) s.opposite

/-- `isGameWon` misses no closed line on any board, and reports nothing else on a board of cards
    whose edges match. Only the sixty-four cells of the board are looked at. -/
theorem isGameWon_exact (board : Board) (c : Cell) :
    (OnClosedLine board c → isGameWon board c = true) ∧
    ((∀ x, OnBoard x → 0 ≤ board x ∧ board x ≤ 6) →
      (∀ x s, OnBoard x → OnBoard (neighbour x s) → board x ≠ 0 → board (neighbour x s) ≠ 0 →
        SameColour board x s) →
      isGameWon board c = true → OnClosedLine board c) := by
  apply And.intro
  · intro honLine
    obtain ⟨line, hmem, hline⟩ := honLine
    exact isGameWon_of_closedLine hmem hline
  · intro hcards hedges won
    have hisCard : ∀ x, OnBoard x → board x ≠ 0 → IsCard (board x) := by
      intro x hx hne
      have hrange := hcards x hx
      exact ⟨by omega, hrange.2⟩
    refine onClosedLine_of_isGameWon hedges ?_ won
    -- what is not white at the edge of a card is black
    intro x s hx hn hne hne'
    rw [hasEnd_blackEnds (hisCard x hx hne), hasEnd_blackEnds (hisCard _ hn hne')]
    exact congrArg (!·) (hedges x s hx hn hne hne')

/-- Four cards in a corner whose black lines form a ring. -/
def ringBoard : Board :=
  (((Board.empty.put (0, 0) 3).put (0, 1) 6).put (1, 0) 4).put (1, 1) 5

theorem ringBoard_matches : EdgesMatch ringBoard :=
  (((EdgesMatch.empty.put (by decide)).put (by decide)).put (by decide)).put (by decide)

/-- The ring is found from its corner, and the corner is on it. -/
theorem isGameWon_exact_ringBoard :
    isGameWon ringBoard (0, 0) = true ∧ OnClosedLine ringBoard (0, 0) := by
  have hexact := isGameWon_exact ringBoard (0, 0)
  have honLine : OnClosedLine ringBoard (0, 0) := by
    apply hexact.2
    · intro x hx
      rcases ringBoard_matches.cards x with h | h
      · omega
      · exact ⟨by have := h.1; omega, h.2⟩
    · exact ringBoard_matches.edges
    · decide +kernel
  exact ⟨hexact.1 honLine, honLine⟩

end UpsServer
