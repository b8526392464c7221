import UpsServer.Game.EdgeColours
import UpsServer.Network.BoardSteps

/-!
# Moves and the rules of the game

The server plays every move that is on the board. It looks neither at whose turn it is nor at the
cell nor at the card; `playerOnTurn` is written, and read only to tell both players of it when one
of them comes back. What a game is at any time follows from the moves made in it, one after the
other.
-/

namespace UpsServer

open Framework CommandManager Sender

/-! ## Handling a move -/

/-- What a handled move does, whoever is on turn, whatever lies in the cell and whichever number
    stands for the card. -/
structure CarriedOut (s : State) (x : NextMove) (t : State) : Prop where
  /-- The card lies in its cell and the other cells are as before. -/
  field : (t.game x.game).field = x.board s
  /-- No other game is touched. -/
  others : ∀ g, g ≠ x.game → t.game g = s.game g
  /-- After a winning move its game is not registered any more, and all others are. -/
  won : isGameWon (x.board s) x.move.cell = true → ∀ g, g ∈ t.games ↔ g ∈ s.games ∧ g ≠ x.game
  /-- After any other move the opponent is on turn. -/
  passed : isGameWon (x.board s) x.move.cell = false → t.games = s.games ∧
    (t.game x.game).playerOnTurn = some (GameManager.otherSeat s x.game x.player)

theorem carriedOut_of_exec {s t : State} (hreg : Registry s) {x : NextMove}
    (next : s.nextMove = some x) (exec : System.exec s .runCommand = .ok t) :
    CarriedOut s x t := by
  obtain ⟨command, hhead, header, -⟩ := State.nextMove_eq_some_iff.mp next
  obtain ⟨y, _, hnext, -, heffect⟩ := nextMove_of_exec hhead header exec
  obtain rfl := Option.some.inj (hnext.symm.trans next)
  have hmem := State.nextMove_registered next
  refine ⟨heffect.field, fun g hne => heffect.game_of_ne hne, fun hwon => ?_, fun hopen => ?_⟩
  · cases heffect with
    | won => exact hreg.mem_deleted_iff hmem
    | passed stays => exact absurd (hwon.symm.trans stays) (by decide)
  · cases heffect with
    | won closes => exact absurd (closes.symm.trans hopen) (by decide)
    | passed =>
      refine ⟨rfl, ?_⟩
      simp [GameManager.otherSeat]
      rfl

/-! ## No move is refused -/

theorem wellFormed_gameMove (m : Move) (p : PlayerRef) :
    (Message.compose H_S_GAME_MOVE m.data (some p)).WellFormed := by
  refine ⟨rfl, ?_, ?_⟩
  · show Matches [.int m.cardType, .int m.moveI, .int m.moveJ] ['i', 'i', 'i']
    simp [Matches, Datum.HasKind]
  · show (packetOf H_S_GAME_MOVE [.int m.cardType, .int m.moveI, .int m.moveJ]).length < 2 ^ 31
    simp [Datum.encode]

/-- The announcement of a win fits into an `int` when the name of the winner is not too long. -/
theorem wellFormed_gameWon (m : Move) (p : PlayerRef) {name : ByteString}
    (short : name.length + 25 < 2 ^ 31) :
    (Message.compose H_S_GAME_WON (.str name :: m.data) (some p)).WellFormed := by
  refine ⟨rfl, ?_, ?_⟩
  · show Matches [.str name, .int m.cardType, .int m.moveI, .int m.moveJ] ['s', 'i', 'i', 'i']
    simp [Matches, Datum.HasKind]
  · show (packetOf H_S_GAME_WON [.str name, .int m.cardType, .int m.moveI,
      .int m.moveJ]).length < 2 ^ 31
    simp only [length_packetOf, encodePayload_cons, encodePayload_nil, Datum.encode,
      List.length_append, length_wordBytes, List.length_nil]
    omega

theorem exists_passTurn (s : State) (game : GameRef) (oponent : PlayerRef) (m : Move) :
    ∃ t, passTurn s game oponent m.data = .ok t :=
  ⟨_, registerMessage_of_wellFormed _ (wellFormed_gameMove m oponent) rfl⟩

theorem exists_winGame (s : State) {game : GameRef} (turnPlayer oponent : PlayerRef) (m : Move)
    (registered : game ∈ s.games) (short : (s.player turnPlayer).name.length + 25 < 2 ^ 31) :
    ∃ t, winGame s game turnPlayer oponent m.data = .ok t := by
  unfold winGame
  dsimp only
  rw [registerMessage_of_wellFormed s (wellFormed_gameWon m turnPlayer short) rfl, ok_bind,
    registerMessage_of_wellFormed _ (wellFormed_gameWon m oponent short) rfl, ok_bind]
  exact ⟨_, GameManager.deleteGame_of_mem registered rfl (by simp)⟩

/-- A move on the board is always carried out. -/
theorem exists_exec_of_nextMove {s : State} {x : NextMove} (next : s.nextMove = some x)
    (inside : x.move.Inside)
    (short : isGameWon (x.board s) x.move.cell = true →
      (s.player x.player).name.length + 25 < 2 ^ 31) :
    ∃ t, System.exec s .runCommand = .ok t := by
  obtain ⟨command, hhead, header, hsender, hplaying, hmove⟩ := State.nextMove_eq_some_iff.mp next
  obtain ⟨rest, hqueue⟩ := List.head?_eq_some_iff.mp hhead
  obtain ⟨h₀, h₁, h₂⟩ := Message.payloadInt_of_move hmove
  have hplaying' : GameManager.getGameByPlayer (s.withCommands rest) x.player = some x.game :=
    hplaying
  rw [exec_runCommand hqueue, dispatch_move header]
  unfold processGameMove
  rw [hsender, deref_some, ok_bind, hplaying', deref_some, ok_bind, h₀, ok_bind, h₁, ok_bind, h₂,
    ok_bind]
  dsimp only
  rw [if_neg inside]
  have hboard : (((s.withCommands rest).modifyGame x.game
      (Game.putCard x.move.cell x.move.card)).game x.game).field = x.board s := by
    rw [State.game_modifyGame_self]
    rfl
  split
  · rename_i hwon
    have hmem : x.game ∈ s.games := State.nextMove_registered next
    refine exists_winGame _ _ _ x.move hmem (short ?_)
    rw [← hboard]
    exact hwon
  · exact exists_passTurn _ x.game _ x.move

/-! ## The record of a game -/

/-- A move that was made, by whom and against whom. -/
structure PlayedMove where
  sender : PlayerRef
  oponent : PlayerRef
  move : Move

/-- The player who asked for a game and the moves made in it, in their order. -/
structure GameRecord where
  asking : PlayerRef
  moves : List PlayedMove

namespace GameRecord

/-- The cards of the moves, put one after the other. -/
def board (r : GameRecord) : Board :=
  r.moves.foldl (fun board m => board.put m.move.cell m.move.card) Board.empty

/-- The opponent of the last sender, and at the start the player who asked. -/
def onTurn (r : GameRecord) : PlayerRef :=
  (r.moves.getLast?.map PlayedMove.oponent).getD r.asking

/-- Another move. -/
def add (r : GameRecord) (m : PlayedMove) : GameRecord := { r with moves := r.moves ++ [m] }

@[simp] theorem board_add (r : GameRecord) (m : PlayedMove) :
    (r.add m).board = r.board.put m.move.cell m.move.card := by
  simp [board, add]

@[simp] theorem onTurn_add (r : GameRecord) (m : PlayedMove) : (r.add m).onTurn = m.oponent := by
  simp [onTurn, add]

/-- The record says what lies on the board of the game and whose turn it is. -/
def Describes (r : GameRecord) (game : Game) : Prop :=
  game.field = r.board ∧ game.playerOnTurn = some r.onTurn

/-- The moves of a game in which every move was allowed: they alternate, beginning with the player
    who asked, no two go to the same cell, and every card is still where it was put. -/
structure ByTheRules (r : GameRecord) : Prop where
  begins : ∀ m ∈ r.moves.head?, m.sender = r.asking
  alternates : r.moves.IsChain fun m m' => m'.sender = m.oponent
  cards : ∀ m ∈ r.moves, IsCard m.move.card
  apart : (r.moves.map fun m => m.move.cell).Nodup
  lies : ∀ m ∈ r.moves, r.board m.move.cell = m.move.card

theorem ByTheRules.nil (asking : PlayerRef) : (⟨asking, []⟩ : GameRecord).ByTheRules where
  begins m h := by cases h
  alternates := List.isChain_nil
  cards m h := by cases h
  apart := List.nodup_nil
  lies m h := by cases h

/-- An allowed move goes on by the rules. -/
theorem ByTheRules.add {r : GameRecord} (h : r.ByTheRules) {m : PlayedMove}
    (turn : m.sender = r.onTurn) (empty : r.board m.move.cell = 0) (card : IsCard m.move.card) :
    (r.add m).ByTheRules := by
  -- a cell with a card in it is not empty
  have hnew : ∀ m' ∈ r.moves, m'.move.cell ≠ m.move.cell := by
    intro m' hm' heq
    have hcard := h.cards m' hm'
    rw [← h.lies m' hm', heq, empty] at hcard
    exact absurd hcard (by decide)
  refine ⟨?_, ?_, ?_, ?_, ?_⟩
  · intro m' hm'
    cases hmoves : r.moves with
    | nil =>
      simp only [GameRecord.add, hmoves, List.nil_append, List.head?_cons] at hm'
      obtain rfl := Option.some.inj hm'
      show m.sender = r.asking
      simpa [onTurn, hmoves] using turn
    | cons first rest =>
      apply h.begins m'
      simpa [GameRecord.add, hmoves] using hm'
  · apply List.isChain_append.mpr
    refine ⟨h.alternates, List.isChain_singleton m, ?_⟩
    intro last hlast m' hm'
    obtain rfl := Option.some.inj hm'
    have hlast' : r.moves.getLast? = some last := hlast
    simpa [onTurn, hlast'] using turn
  · intro m' hm'
    rcases List.mem_append.mp hm' with hm' | hm'
    · exact h.cards m' hm'
    · rw [List.mem_singleton.mp hm']
      exact card
  · simp only [GameRecord.add, List.map_append]
    apply List.nodup_append.mpr
    refine ⟨h.apart, List.nodup_singleton _, ?_⟩
    intro c hc c' hc'
    obtain ⟨m', hm', rfl⟩ := List.mem_map.mp hc
    rw [List.mem_singleton.mp hc']
    exact hnew m' hm'
  · intro m' hm'
    rw [board_add]
    rcases List.mem_append.mp hm' with hm' | hm'
    · rw [Board.put_of_ne _ _ (hnew m' hm')]
      exact h.lies m' hm'
    · rw [List.mem_singleton.mp hm']
      simp [Board.put]

end GameRecord

/-! ## Records of runs -/

/-- The records of all games. -/
abbrev Records := GameRef → GameRecord

/-- What a step adds to the records: the next move, or an empty record for the game that an
    accepted request starts. -/
def keepRecord (s : State) (a : Action) (records : Records) : Records :=
  if a = .runCommand then
    match s.nextMove with
    | some x =>
      Function.update records x.game
        ((records x.game).add ⟨x.player, GameManager.otherSeat s x.game x.player, x.move⟩)
    | none =>
      match s.nextStart with
      | some asking => Function.update records s.gameHeap.next ⟨asking, []⟩
      | none => records
  else records

/-- The server and the records of its games. -/
def recordedServer : Machine (State × Records) Action Fault :=
  System.machine.recorded (fun _ => ⟨0, []⟩) keepRecord

/-- A run whose steps all meet the guard leads to the state and leaves these records. -/
def Leaves (Guard : State → Action → Prop) (s : State) (records : Records) : Prop :=
  recordedServer.ReachableUnder (fun y => Guard y.1) (s, records)

/-- What a step does to a game that is registered after it, and to its record. -/
inductive RecordStep (s : State) (a : Action) (t : State) (g : GameRef) :
    GameRecord → GameRecord → Prop where
  /-- Nothing is played in it. -/
  | kept {r : GameRecord} (registered : g ∈ s.games)
      (field : (t.game g).field = (s.game g).field)
      (playerOnTurn : (t.game g).playerOnTurn = (s.game g).playerOnTurn) : RecordStep s a t g r r
  /-- It is a new game. -/
  | started {r : GameRecord} {asking : PlayerRef} (field : (t.game g).field = Board.empty)
      (playerOnTurn : (t.game g).playerOnTurn = some asking) : RecordStep s a t g r ⟨asking, []⟩
  /-- A move is made in it. -/
  | played {r : GameRecord} {x : NextMove} (now : a = .runCommand) (next : s.nextMove = some x)
      (here : x.game = g) (field : (t.game g).field = x.board s)
      (playerOnTurn : (t.game g).playerOnTurn = some (GameManager.otherSeat s g x.player)) :
      RecordStep s a t g r (r.add ⟨x.player, GameManager.otherSeat s g x.player, x.move⟩)

theorem BoardStep.recordStep {s t : State} {a : Action} (h : BoardStep s a t) (hreg : Registry s)
    (exec : System.exec s a = .ok t) (records : Records) {g : GameRef} (registered : g ∈ t.games) :
    RecordStep s a t g (records g) (keepRecord s a records g) := by
  cases h with
  | kept idle games field playerOnTurn =>
    have hmem := games.subset registered
    have hsame : keepRecord s a records g = records g := by
      unfold keepRecord
      split
      · rename_i ha
        rw [idle ha]
        cases s.nextStart with
        | none => rfl
        | some asking =>
          -- an acceptance that starts no game
          have hne : g ≠ s.gameHeap.next := Nat.ne_of_lt (hreg.gamesAllocated g hmem)
          exact Function.update_of_ne hne _ _
      · rfl
    rw [hsame]
    exact .kept hmem (field g) (playerOnTurn g)
  | @started _ asking asked idle starts games game =>
    have hrecord : keepRecord s .runCommand records
        = Function.update records s.gameHeap.next ⟨asking, []⟩ := by
      rw [keepRecord, if_pos rfl, idle, starts]
    rw [hrecord]
    by_cases hnew : g = s.gameHeap.next
    · subst hnew
      rw [Function.update_self]
      exact .started (by rw [game, if_pos rfl]; rfl) (by rw [game, if_pos rfl]; rfl)
    · rw [Function.update_of_ne hnew]
      have hmem : g ∈ s.games := by
        rw [games] at registered
        rcases List.mem_append.mp registered with hg | hg
        · exact hg
        · exact absurd (List.mem_singleton.mp hg) hnew
      exact .kept hmem (by rw [game, if_neg hnew]) (by rw [game, if_neg hnew])
  | @played x _ _ next _ _ =>
    have hdone := carriedOut_of_exec hreg next exec
    have hrecord : keepRecord s .runCommand records = Function.update records x.game
        ((records x.game).add ⟨x.player, GameManager.otherSeat s x.game x.player, x.move⟩) := by
      rw [keepRecord, if_pos rfl, next]
    rw [hrecord]
    by_cases hhere : g = x.game
    · subst hhere
      rw [Function.update_self]
      -- a game that is still registered was not won
      have hopen : isGameWon (x.board s) x.move.cell = false := by
        by_contra hwon
        exact ((hdone.won (by simpa using hwon) x.game).mp registered).2 rfl
      exact .played rfl next rfl hdone.field (hdone.passed hopen).2
    · rw [Function.update_of_ne hhere]
      have hmem : g ∈ s.games := by
        cases hwon : isGameWon (x.board s) x.move.cell with
        | true => exact ((hdone.won hwon g).mp registered).1
        | false => exact (hdone.passed hwon).1 ▸ registered
      exact .kept hmem (by rw [hdone.others g hhere]) (by rw [hdone.others g hhere])

/-- The rule for records: what a new game has and every guarded step keeps, all registered games
    of a guarded run have. -/
theorem records_invariant {Guard : State → Action → Prop} {P : Game → GameRecord → Prop}
    {s : State} {records : Records} (leaves : Leaves Guard s records)
    (step : ∀ t u a g r r', Guard t a → RecordStep t a u g r r' →
      (g ∈ t.games → P (t.game g) r) → P (u.game g) r') :
    ∀ g ∈ s.games, P (s.game g) (records g) := by
  refine Machine.ReachableFrom.invariant
    (I := fun y : State × Records => ∀ g ∈ y.1.games, P (y.1.game g) (y.2 g)) leaves
    (fun g hg => absurd hg List.not_mem_nil) ?_
  intro y z a hreach hI henabled hguard hexec g hg
  obtain ⟨hstep, hrecord⟩ := Machine.exec_recorded_eq_ok hexec
  have hreached : System.ReachableUnder Guard y.1 := Machine.reachable_of_recorded hreach
  have hworld := exec_step (stageFromPacket_of_reachable hreached.reachable) henabled hstep
  have hrecorded := (hworld.boardStep hstep).recordStep (registry_of_reachable hreached.reachable)
    hstep y.2 hg
  rw [hrecord]
  exact step _ _ _ g _ _ hguard hrecorded fun hmem => hI g hmem

theorem RecordStep.describes {s t : State} {a : Action} {g : GameRef} {r r' : GameRecord}
    (h : RecordStep s a t g r r') (before : g ∈ s.games → r.Describes (s.game g)) :
    r'.Describes (t.game g) := by
  cases h with
  | kept registered field playerOnTurn =>
    obtain ⟨hboard, hturn⟩ := before registered
    exact ⟨field.trans hboard, playerOnTurn.trans hturn⟩
  | started field playerOnTurn => exact ⟨field, playerOnTurn⟩
  | @played x _ next here field playerOnTurn =>
    subst here
    obtain ⟨hboard, -⟩ := before (State.nextMove_registered next)
    refine ⟨?_, ?_⟩
    · rw [field, GameRecord.board_add, ← hboard]
      rfl
    · rw [playerOnTurn, GameRecord.onTurn_add]

/-- What is on the board and whose turn it is follows from the moves made in the game. -/
theorem describes_of_leaves {Guard : State → Action → Prop} {s : State} {records : Records}
    (h : Leaves Guard s records) : ∀ g ∈ s.games, (records g).Describes (s.game g) := by
  apply records_invariant (P := fun game r => GameRecord.Describes r game) h
  intro t u a g r r' _ hstep hbefore
  exact hstep.describes hbefore

/-! ## Moves that the rules allow -/

/-- The sender is on turn, the cell is an empty one of the board and the card is one of the six. -/
def Allowed (s : State) (x : NextMove) : Prop :=
  (s.game x.game).playerOnTurn = some x.player ∧ x.move.Inside ∧
    (s.game x.game).field x.move.cell = 0 ∧ IsCard x.move.card

/-- The condition on a step: a move that is handled is allowed. -/
def AllowedMoves (s : State) (a : Action) : Prop :=
  a = .runCommand → ∀ x ∈ s.nextMove, Allowed s x

theorem byTheRules_of_leaves {s : State} {records : Records} (h : Leaves AllowedMoves s records) :
    ∀ g ∈ s.games, (records g).ByTheRules := by
  have hboth : ∀ g ∈ s.games, (records g).Describes (s.game g) ∧ (records g).ByTheRules := by
    apply records_invariant (P := fun game r => GameRecord.Describes r game ∧ r.ByTheRules) h
    intro t u a g r r' hguard hstep hbefore
    refine ⟨hstep.describes fun hmem => (hbefore hmem).1, ?_⟩
    cases hstep with
    | kept registered => exact (hbefore registered).2
    | started => exact .nil _
    | @played x now next here =>
      subst here
      obtain ⟨⟨hboard, hturn⟩, hrules⟩ := hbefore (State.nextMove_registered next)
      obtain ⟨honTurn, -, hempty, hcard⟩ := hguard now x next
      apply hrules.add
      · exact Option.some.inj (honTurn.symm.trans hturn)
      · rw [← hboard]
        exact hempty
      · exact hcard
  exact fun g hg => (hboth g hg).2

/-! ## Which moves change a game -/

/-- The move of a seated player changes the board, the turn or the registration of its game only
    when it is allowed. -/
def OnlyAllowedMovesCount (s : State) : Prop :=
  ∀ x ∈ s.nextMove, (s.game x.game).Seats x.player → ∀ t, System.exec s .runCommand = .ok t →
    ((t.game x.game).field ≠ (s.game x.game).field ∨
      (t.game x.game).playerOnTurn ≠ (s.game x.game).playerOnTurn ∨ x.game ∉ t.games) →
        Allowed s x

/-- `A` asked for the game and is on turn, but a move of `B` waits to be handled. -/
def moveOutOfTurn : List Action := System.playTwo ++ System.aboutToMove 6 3 0 0

end UpsServer
