import UpsServer.Framework.WalkCalls
import UpsServer.Game.LineControl

/-!
# The control functions, case by case

`controlBlack` and `controlWhite` as they are written, with the two tests and the two calls of
each card. Both end without a `return` when the second call fails; what the caller then reads is
a parameter here, one value for each cell, since no cell is entered twice. `controlBlackCases_eq`
and `controlWhiteCases_eq` say that they are the walk of `LineControl` with the tables `blackEnds`
and `whiteEnds`.
-/

namespace UpsServer

open Framework Track

/-! ## The source, case by case -/

/-- The body of a `case`: `if (test₁ && call₁) return true; if (test₂ && call₂) return true;`
    and then the end of the function. -/
def eitherEnd (test₁ : Bool) (call₁ : (Cell → Bool) → Option (Bool × (Cell → Bool)))
    (test₂ : Bool) (call₂ : (Cell → Bool) → Option (Bool × (Cell → Bool)))
    (ctrlField : Cell → Bool) : Option (Answer × (Cell → Bool)) :=
  (if test₁ then call₁ ctrlField else some (false, ctrlField)).bind fun r₁ =>
    if r₁.1 then some (.returned true, r₁.2)
    else
      (if test₂ then call₂ r₁.2 else some (false, r₁.2)).bind fun r₂ =>
        if r₂.1 then some (.returned true, r₂.2) else some (.flowedOff, r₂.2)

/-- `controlBlack` with the depth of the recursion bounded. The result of a call on the cell `x`
    that returns nothing is read as `missing x`. -/
def controlBlackCases (missing : Cell → Bool) (board : Board) :
    Nat → (Cell → Bool) → Int → Int → Int → Int → Option (Answer × (Cell → Bool))
  | 0, _, _, _, _, _ => none
  | fuel + 1, ctrlField, i, j, fromI, fromJ =>
    let call := fun (toI toJ : Int) (ctrlField : Cell → Bool) =>
      (controlBlackCases missing board fuel ctrlField toI toJ i j).map fun r =>
        (r.1.readAs (missing (toI, toJ)), r.2)
    if i < 0 ∨ i > 7 ∨ j < 0 ∨ j > 7 then some (.returned false, ctrlField)
    else if board (i, j) = 0 then some (.returned false, ctrlField)
    else if ctrlField (i, j) then some (.returned true, ctrlField)
    else if board (i, j) = 1 then
      eitherEnd (fromI != i - 1 || fromJ != j) (call (i - 1) j)
        (fromI != i + 1 || fromJ != j) (call (i + 1) j) (mark ctrlField (i, j))
    else if board (i, j) = 2 then
      eitherEnd (fromI != i || fromJ != j - 1) (call i (j - 1))
        (fromI != i || fromJ != j + 1) (call i (j + 1)) (mark ctrlField (i, j))
    else if board (i, j) = 3 then
      eitherEnd (fromI != i + 1 || fromJ != j) (call (i + 1) j)
        (fromI != i || fromJ != j + 1) (call i (j + 1)) (mark ctrlField (i, j))
    else if board (i, j) = 4 then
      eitherEnd (fromI != i - 1 || fromJ != j) (call (i - 1) j)
        (fromI != i || fromJ != j + 1) (call i (j + 1)) (mark ctrlField (i, j))
    else if board (i, j) = 5 then
      eitherEnd (fromI != i - 1 || fromJ != j) (call (i - 1) j)
        (fromI != i || fromJ != j - 1) (call i (j - 1)) (mark ctrlField (i, j))
    else if board (i, j) = 6 then
      eitherEnd (fromI != i + 1 || fromJ != j) (call (i + 1) j)
        (fromI != i || fromJ != j - 1) (call i (j - 1)) (mark ctrlField (i, j))
    else some (.flowedOff, mark ctrlField (i, j))

/-- `controlWhite`, in the same way. -/
def controlWhiteCases (missing : Cell → Bool) (board : Board) :
    Nat → (Cell → Bool) → Int → Int → Int → Int → Option (Answer × (Cell → Bool))
  | 0, _, _, _, _, _ => none
  | fuel + 1, ctrlField, i, j, fromI, fromJ =>
    let call := fun (toI toJ : Int) (ctrlField : Cell → Bool) =>
      (controlWhiteCases missing board fuel ctrlField toI toJ i j).map fun r =>
        (r.1.readAs (missing (toI, toJ)), r.2)
    if i < 0 ∨ i > 7 ∨ j < 0 ∨ j > 7 then some (.returned false, ctrlField)
    else if board (i, j) = 0 then some (.returned false, ctrlField)
    else if ctrlField (i, j) then some (.returned true, ctrlField)
    else if board (i, j) = 1 then
      eitherEnd (fromI != i || fromJ != j - 1) (call i (j - 1))
        (fromI != i || fromJ != j + 1) (call i (j + 1)) (mark ctrlField (i, j))
    else if board (i, j) = 2 then
      eitherEnd (fromI != i - 1 || fromJ != j) (call (i - 1) j)
        (fromI != i + 1 || fromJ != j) (call (i + 1) j) (mark ctrlField (i, j))
    else if board (i, j) = 3 then
      eitherEnd (fromI != i - 1 || fromJ != j) (call (i - 1) j)
        (fromI != i || fromJ != j - 1) (call i (j - 1)) (mark ctrlField (i, j))
    else if board (i, j) = 4 then
      eitherEnd (fromI != i + 1 || fromJ != j) (call (i + 1) j)
        (fromI != i || fromJ != j - 1) (call i (j - 1)) (mark ctrlField (i, j))
    else if board (i, j) = 5 then
      eitherEnd (fromI != i + 1 || fromJ != j) (call (i + 1) j)
        (fromI != i || fromJ != j + 1) (call i (j + 1)) (mark ctrlField (i, j))
    else if board (i, j) = 6 then
      eitherEnd (fromI != i - 1 || fromJ != j) (call (i - 1) j)
        (fromI != i || fromJ != j + 1) (call i (j + 1)) (mark ctrlField (i, j))
    else some (.flowedOff, mark ctrlField (i, j))

/-- `GameManager::isGameWon`. What `controlWhite` and `controlBlack` leave out on the cell `x` is
    read as `white x` and `black x`. -/
def isGameWonReading (white black : Cell → Bool) (board : Board) (move : Cell) : Option Bool :=
  (controlWhiteCases white board walkFuel (fun _ => false) move.1 move.2 move.1 move.2).bind
    fun r =>
    if r.1.readAs (white move) then some true
    else
      (controlBlackCases black board walkFuel (fun _ => false) move.1 move.2 move.1 move.2).map
        fun r => if r.1.readAs (black move) then true else false

/-! ## They are walks -/

/-- The origin test of the source for a call to one side. -/
def leadsOn (i j fromI fromJ : Int) : Side → Bool
  | .up => fromI != i - 1 || fromJ != j
  | .down => fromI != i + 1 || fromJ != j
  | .left => fromI != i || fromJ != j - 1
  | .right => fromI != i || fromJ != j + 1

theorem leadsOn_eq (i j fromI fromJ : Int) (s : Side) :
    leadsOn i j fromI fromJ s = !decide ((fromI, fromJ) = neighbour (i, j) s) := by
  cases s <;> simp [leadsOn, neighbour, Prod.ext_iff, Bool.decide_and, bne, beq_eq_decide]

/-- The two tests and calls of a `case` try the two ends of the card. -/
theorem eitherEnd_sides (missing v : Cell → Bool) (i j fromI fromJ : Int)
    (walk : (Cell → Bool) → Cell → Cell → Option (Traced Cell Answer))
    {call : Int → Int → (Cell → Bool) → Option (Bool × (Cell → Bool))}
    (hcall : ∀ toI toJ w, call toI toJ w
      = ((walk w (toI, toJ) (i, j)).map Traced.outcome).map fun r =>
          (r.1.readAs (missing (toI, toJ)), r.2)) (s t : Side) :
    eitherEnd (leadsOn i j fromI fromJ s) (call (neighbour (i, j) s).1 (neighbour (i, j) s).2)
        (leadsOn i j fromI fromJ t) (call (neighbour (i, j) t).1 (neighbour (i, j) t).2) v
      = tryEnds walk missing v (i, j) (fromI, fromJ)
          (some (neighbour (i, j) s, neighbour (i, j) t)) := by
  -- the test fails exactly at the end that leads back
  have hend : ∀ (w : Cell → Bool) (side : Side),
      (if leadsOn i j fromI fromJ side then
          call (neighbour (i, j) side).1 (neighbour (i, j) side).2 w else some (false, w))
        = (followTraced walk missing w (i, j) (fromI, fromJ) (neighbour (i, j) side)).map
            Traced.outcome := by
    intro w side
    rw [followTraced_outcome, hcall, leadsOn_eq]
    by_cases hback : (fromI, fromJ) = neighbour (i, j) side <;> simp [hback]
  simp only [eitherEnd, hend, tryEnds]

theorem not_onBoard_iff {i j : Int} : ¬ OnBoard (i, j) ↔ i < 0 ∨ i > 7 ∨ j < 0 ∨ j > 7 := by
  simp only [OnBoard]
  omega

theorem blocked_lineTrack_iff {ends : Int → Option (Side × Side)} {board : Board} {i j : Int} :
    (lineTrack ends board).blocked (i, j) = true ↔
      (i < 0 ∨ i > 7 ∨ j < 0 ∨ j > 7) ∨ board (i, j) = 0 := by
  simp [lineTrack, ← not_onBoard_iff]

/-- The tests at the start of both functions are those of the walk. -/
theorem trace_outcome_of_cases {ends : Int → Option (Side × Side)} {missing : Cell → Bool}
    {board : Board} {fuel : Nat} {v : Cell → Bool} {i j fromI fromJ : Int}
    {body : Option (Answer × (Cell → Bool))}
    (hbody : body = tryEnds ((lineTrack ends board).trace missing fuel) missing (mark v (i, j))
      (i, j) (fromI, fromJ) ((lineTrack ends board).ends (i, j))) :
    (if i < 0 ∨ i > 7 ∨ j < 0 ∨ j > 7 then some (.returned false, v)
      else if board (i, j) = 0 then some (.returned false, v)
      else if v (i, j) then some (.returned true, v)
      else body)
      = ((lineTrack ends board).trace missing (fuel + 1) v (i, j) (fromI, fromJ)).map
          Traced.outcome := by
  rw [trace_outcome_succ, hbody]
  by_cases hoff : i < 0 ∨ i > 7 ∨ j < 0 ∨ j > 7
  · rw [if_pos hoff, if_pos (blocked_lineTrack_iff.mpr (Or.inl hoff))]
  by_cases hempty : board (i, j) = 0
  · rw [if_neg hoff, if_pos hempty, if_pos (blocked_lineTrack_iff.mpr (Or.inr hempty))]
  rw [if_neg hoff, if_neg hempty,
    if_neg fun h => (blocked_lineTrack_iff.mp h).elim hoff hempty]

/-- `controlBlack` is the walk along the black lines. -/
theorem controlBlackCases_eq (missing : Cell → Bool) (board : Board) (fuel : Nat)
    (v : Cell → Bool) (i j fromI fromJ : Int) :
    controlBlackCases missing board fuel v i j fromI fromJ
      = ((lineTrack blackEnds board).trace missing fuel v (i, j) (fromI, fromJ)).map
          Traced.outcome := by
  induction fuel generalizing v i j fromI fromJ with
  | zero => rfl
  | succ fuel ih =>
    rw [controlBlackCases]
    apply trace_outcome_of_cases
    have hsides := eitherEnd_sides missing (mark v (i, j)) i j fromI fromJ
      ((lineTrack blackEnds board).trace missing fuel) fun toI toJ w =>
        congrArg (Option.map _) (ih w toI toJ i j)
    -- the sides of the six cases, then every other card type
    simp only [lineTrack, blackEnds]
    split_ifs
    · exact hsides .up .down
    · exact hsides .left .right
    · exact hsides .down .right
    · exact hsides .up .right
    · exact hsides .up .left
    · exact hsides .down .left
    · rfl

/-- `controlWhite` is the walk along the white lines. -/
theorem controlWhiteCases_eq (missing : Cell → Bool) (board : Board) (fuel : Nat)
    (v : Cell → Bool) (i j fromI fromJ : Int) :
    controlWhiteCases missing board fuel v i j fromI fromJ
      = ((lineTrack whiteEnds board).trace missing fuel v (i, j) (fromI, fromJ)).map
          Traced.outcome := by
  induction fuel generalizing v i j fromI fromJ with
  | zero => rfl
  | succ fuel ih =>
    rw [controlWhiteCases]
    apply trace_outcome_of_cases
    have hsides := eitherEnd_sides missing (mark v (i, j)) i j fromI fromJ
      ((lineTrack whiteEnds board).trace missing fuel) fun toI toJ w =>
        congrArg (Option.map _) (ih w toI toJ i j)
    simp only [lineTrack, whiteEnds]
    split_ifs
    · exact hsides .left .right
    · exact hsides .up .down
    · exact hsides .up .left
    · exact hsides .down .left
    · exact hsides .down .right
    · exact hsides .up .right
    · rfl

/-! ## They return -/

/-- A control function makes a walk that ends, whatever a missing return is read as. -/
theorem exists_trace (ends : Int → Option (Side × Side)) (missing : Cell → Bool) (board : Board)
    (v : Cell → Bool) (c origin : Cell) :
    ∃ t, (lineTrack ends board).trace missing walkFuel v c origin = some t :=
  trace_total _ missing (fun _ hopen => mem_boardCells_of_open hopen) c origin
    (card_unmarked_lt_walkFuel v)

theorem exists_controlBlackCases (missing : Cell → Bool) (board : Board) (v : Cell → Bool)
    (i j fromI fromJ : Int) :
    ∃ r, controlBlackCases missing board walkFuel v i j fromI fromJ = some r := by
  obtain ⟨t, ht⟩ := exists_trace blackEnds missing board v (i, j) (fromI, fromJ)
  exact ⟨t.outcome, by rw [controlBlackCases_eq, ht]; rfl⟩

theorem exists_controlWhiteCases (missing : Cell → Bool) (board : Board) (v : Cell → Bool)
    (i j fromI fromJ : Int) :
    ∃ r, controlWhiteCases missing board walkFuel v i j fromI fromJ = some r := by
  obtain ⟨t, ht⟩ := exists_trace whiteEnds missing board v (i, j) (fromI, fromJ)
  exact ⟨t.outcome, by rw [controlWhiteCases_eq, ht]; rfl⟩

/-- The walk of a colour, with every missing return read as `false`. -/
theorem trace_control (ends : Int → Option (Side × Side)) (board : Board) (v : Cell → Bool)
    (c origin : Cell) :
    ((lineTrack ends board).trace (fun _ => false) walkFuel v c origin).map Traced.outcome
      = some (control ends board v c origin) := by
  rw [← walk_eq_trace, walk_control]

/-- `isGameWon` is the source with every missing return read as `false`. -/
theorem isGameWonReading_false (board : Board) (move : Cell) :
    isGameWonReading (fun _ => false) (fun _ => false) board move
      = some (isGameWon board move) := by
  rw [isGameWonReading, controlWhiteCases_eq, controlBlackCases_eq, trace_control, trace_control,
    isGameWon, controlWhite, controlBlack]
  simp only [Option.bind_some, Option.map_some, Answer.readAs_false]
  split
  · rfl
  · rfl

end UpsServer
