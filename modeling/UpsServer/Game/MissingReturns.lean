import UpsServer.Game.ColourDuality
import UpsServer.Game.EdgeColours

/-!
# Missing returns

Neither control function returns anything when both ends of a card fail. The recursions end all
the same and enter no cell twice, but their calls all return only when the line they follow runs
into itself. That is rare: the first card of every game makes `isGameWon` read a value that
nobody returned.
-/

namespace UpsServer

open Framework Track

/-! ## The recursions of `isGameWon` -/

/-- The recursion that `isGameWon` starts for the lines of one colour, call by call. -/
def recursion (ends : Int → Option (Side × Side)) (missing : Cell → Bool) (board : Board)
    (move : Cell) : Option (Traced Cell Answer) :=
  (lineTrack ends board).trace missing walkFuel (fun _ => false) move move

/-- The recursion ends, enters every cell once at most, and every call of it returns a value,
    whatever would be read in its place. -/
def DefinedRecursion (ends : Int → Option (Side × Side)) (board : Board) (move : Cell) : Prop :=
  ∀ missing, ∃ t, recursion ends missing board move = some t ∧ (entered t.calls).Nodup ∧
    Explicit t.calls

/-- The recursions that `isGameWon` starts are defined, and its answer is one and the same
    whatever is read for a missing return. The recursion of the black lines is started when that
    of the white lines does not answer `true`. -/
structure DefinedResult (board : Board) (move : Cell) : Prop where
  white : DefinedRecursion whiteEnds board move
  black : ∀ missing t, recursion whiteEnds missing board move = some t →
    t.value.readAs (missing move) = false → DefinedRecursion blackEnds board move
  answer : ∃ answer, ∀ white black, isGameWonReading white black board move = some answer

section Recursions

variable {board : Board} {move : Cell}

/-- Every recursion ends and enters every cell once at most. -/
theorem exists_recursion (ends : Int → Option (Side × Side)) (missing : Cell → Bool)
    (board : Board) (move : Cell) :
    ∃ t, recursion ends missing board move = some t ∧ (entered t.calls).Nodup := by
  obtain ⟨t, ht⟩ := exists_trace ends missing board (fun _ => false) move move
  exact ⟨t, ht, (entersOnce_of_trace ht).nodup⟩

theorem not_blocked (ends : Int → Option (Side × Side)) (onBoard : OnBoard move)
    (card : board move ≠ 0) : (lineTrack ends board).blocked move = false := by
  simp [lineTrack, onBoard, card]

theorem explicit_recursion_iff {ends : Int → Option (Side × Side)} {missing : Cell → Bool}
    {t : Traced Cell Answer} (onBoard : OnBoard move) (card : board move ≠ 0)
    (h : recursion ends missing board move = some t) :
    Explicit t.calls ↔ (lineTrack ends board).RunsIntoItself move := by
  rw [runsIntoItself_iff]
  exact explicit_iff_comesBack (not_blocked ends onBoard card) rfl h

theorem definedRecursion_iff (ends : Int → Option (Side × Side)) (onBoard : OnBoard move)
    (card : board move ≠ 0) :
    DefinedRecursion ends board move ↔ (lineTrack ends board).RunsIntoItself move := by
  constructor
  · intro hdefined
    obtain ⟨t, ht, -, hexplicit⟩ := hdefined fun _ => false
    exact (explicit_recursion_iff onBoard card ht).mp hexplicit
  · intro hruns missing
    obtain ⟨t, ht, hnodup⟩ := exists_recursion ends missing board move
    exact ⟨t, ht, hnodup, (explicit_recursion_iff onBoard card ht).mpr hruns⟩

/-- A recursion whose calls all return answers `true`. -/
theorem value_of_runsIntoItself {ends : Int → Option (Side × Side)} {missing : Cell → Bool}
    {t : Traced Cell Answer} (onBoard : OnBoard move) (card : board move ≠ 0)
    (hruns : (lineTrack ends board).RunsIntoItself move)
    (h : recursion ends missing board move = some t) : t.value = .returned true :=
  trace_open (not_blocked ends onBoard card) h ((explicit_recursion_iff onBoard card h).mpr hruns)

/-- The call of `controlWhite` by `isGameWon` is the recursion of the white lines. -/
theorem controlWhiteCases_of_recursion {missing : Cell → Bool} {t : Traced Cell Answer}
    (h : recursion whiteEnds missing board move = some t) :
    controlWhiteCases missing board walkFuel (fun _ => false) move.1 move.2 move.1 move.2
      = some t.outcome := by
  rw [controlWhiteCases_eq]
  exact congrArg (Option.map Traced.outcome) h

theorem controlBlackCases_of_recursion {missing : Cell → Bool} {t : Traced Cell Answer}
    (h : recursion blackEnds missing board move = some t) :
    controlBlackCases missing board walkFuel (fun _ => false) move.1 move.2 move.1 move.2
      = some t.outcome := by
  rw [controlBlackCases_eq]
  exact congrArg (Option.map Traced.outcome) h

/-- A white line that runs into itself wins, whatever a missing return is read as. -/
theorem isGameWonReading_of_runsIntoItself (onBoard : OnBoard move) (card : board move ≠ 0)
    (hruns : (lineTrack whiteEnds board).RunsIntoItself move) (white black : Cell → Bool) :
    isGameWonReading white black board move = some true := by
  obtain ⟨t, ht, -⟩ := exists_recursion whiteEnds white board move
  have hvalue := value_of_runsIntoItself onBoard card hruns ht
  rw [isGameWonReading, controlWhiteCases_of_recursion ht, Option.bind_some, Traced.outcome, hvalue]
  rfl

end Recursions

/-! ## When the result is defined -/

/-- Both control functions, as `isGameWon` calls them, end and enter no cell twice on every board.
    From a card on the board, the calls of a recursion all return exactly when the way along its
    lines runs into itself, and the result of `isGameWon` is defined exactly when the way along
    the white lines does. -/
theorem definedResult_iff {board : Board} {move : Cell} (onBoard : OnBoard move)
    (card : board move ≠ 0) :
    (∀ missing, ∃ t, recursion whiteEnds missing board move = some t ∧
      controlWhiteCases missing board walkFuel (fun _ => false) move.1 move.2 move.1 move.2
        = some t.outcome ∧ (entered t.calls).Nodup) ∧
    (∀ missing, ∃ t, recursion blackEnds missing board move = some t ∧
      controlBlackCases missing board walkFuel (fun _ => false) move.1 move.2 move.1 move.2
        = some t.outcome ∧ (entered t.calls).Nodup) ∧
    (DefinedRecursion whiteEnds board move ↔ (lineTrack whiteEnds board).RunsIntoItself move) ∧
    (DefinedRecursion blackEnds board move ↔ (lineTrack blackEnds board).RunsIntoItself move) ∧
    (DefinedResult board move ↔ (lineTrack whiteEnds board).RunsIntoItself move) := by
  refine ⟨fun missing => ?_, fun missing => ?_, definedRecursion_iff whiteEnds onBoard card,
    definedRecursion_iff blackEnds onBoard card, ?_⟩
  · obtain ⟨t, ht, hnodup⟩ := exists_recursion whiteEnds missing board move
    exact ⟨t, ht, controlWhiteCases_of_recursion ht, hnodup⟩
  · obtain ⟨t, ht, hnodup⟩ := exists_recursion blackEnds missing board move
    exact ⟨t, ht, controlBlackCases_of_recursion ht, hnodup⟩
  constructor
  · exact fun hdefined => (definedRecursion_iff whiteEnds onBoard card).mp hdefined.white
  · intro hruns
    refine ⟨(definedRecursion_iff whiteEnds onBoard card).mpr hruns, ?_, true,
      isGameWonReading_of_runsIntoItself onBoard card hruns⟩
    -- white has answered `true`, so black is not started
    intro missing t ht hstarted
    rw [value_of_runsIntoItself onBoard card hruns ht] at hstarted
    cases hstarted

/-- The ring of `ringBoard`, in white: the way leaves the corner downwards and comes back from
    the right. -/
theorem definedResult_iff_ring : DefinedResult ringBoard.recoloured (0, 0) := by
  refine (definedResult_iff (by decide) (by decide)).2.2.2.2.mpr ?_
  refine ⟨[(1, 0), (1, 1), (0, 1), (0, 0)], ?_, by decide⟩
  exact .on (by decide +kernel) (.on (by decide +kernel) (.on (by decide +kernel)
    (.on (by decide +kernel) (.here _ _))))

/-- The first card of a game: a straight one in the corner. -/
def firstCard : Board := Board.empty.put (0, 0) 1

/-- On the first card the answer is what happens to be read. -/
theorem firstCard_undefined : OnBoard (0, 0) ∧ firstCard (0, 0) ≠ 0 ∧
    isGameWonReading (fun _ => true) (fun _ => false) firstCard (0, 0) = some true ∧
    isGameWonReading (fun _ => false) (fun _ => false) firstCard (0, 0) = some false ∧
    ¬ DefinedResult firstCard (0, 0) := by
  have htrue : isGameWonReading (fun _ => true) (fun _ => false) firstCard (0, 0) = some true := by
    decide +kernel
  have hfalse : isGameWonReading (fun _ => false) (fun _ => false) firstCard (0, 0)
      = some false := by
    decide +kernel
  refine ⟨by decide, by decide, htrue, hfalse, fun hdefined => ?_⟩
  obtain ⟨answer, hanswer⟩ := hdefined.answer
  rw [hanswer] at htrue hfalse
  exact absurd (htrue.symm.trans hfalse) (by decide)

end UpsServer
