import UpsServer.Network.Moves

/-!
# What a step does to the boards

Two kinds of step touch the board or the turn of a registered game: an accepted request registers
a game with an empty board, and a handled move puts one card. `BoardStep` says so once; whatever
holds of boards and turns over whole runs is proved from its three cases.
-/

namespace UpsServer

open Framework CommandManager

/-! ## The move handled next -/

/-- A move, its sender and the game that is found for the sender. -/
structure NextMove where
  player : PlayerRef
  game : GameRef
  move : Move
  deriving DecidableEq, Repr

/-- The board after the move. -/
def NextMove.board (x : NextMove) (s : State) : Board := x.move.boardIn s x.game

/-- The move at the head of the command queue. -/
def State.nextMove (s : State) : Option NextMove := do
  let command ← s.commandQueue.head?
  if command.message.header = H_C_GAME_MOVE then
    let p ← command.message.player
    let game ← GameManager.getGameByPlayer s p
    let m ← command.message.move
    return ⟨p, game, m⟩
  else none

theorem State.nextMove_eq_some_iff {s : State} {x : NextMove} :
    s.nextMove = some x ↔ ∃ command ∈ s.commandQueue.head?,
      command.message.header = H_C_GAME_MOVE ∧ command.message.player = some x.player ∧
        GameManager.getGameByPlayer s x.player = some x.game ∧
          command.message.move = some x.move := by
  unfold State.nextMove
  apply Iff.intro
  · intro h
    obtain ⟨command, hcommand, h⟩ := Option.bind_eq_some_iff.mp h
    split at h
    · rename_i hheader
      obtain ⟨p, hp, h⟩ := Option.bind_eq_some_iff.mp h
      obtain ⟨game, hgame, h⟩ := Option.bind_eq_some_iff.mp h
      obtain ⟨m, hm, h⟩ := Option.bind_eq_some_iff.mp h
      obtain rfl := Option.some.inj h
      exact ⟨command, hcommand, hheader, hp, hgame, hm⟩
    · cases h
  · intro h
    obtain ⟨command, hcommand, hheader, hp, hgame, hm⟩ := h
    have hhead : s.commandQueue.head? = some command := hcommand
    simp [hhead, hheader, hp, hgame, hm]

/-- The player who asked for a game that the command at the head of the queue accepts. -/
def State.nextStart (s : State) : Option PlayerRef := do
  let command ← s.commandQueue.head?
  if command.message.header = H_C_ACCEPT_JOIN then
    let asked ← command.message.player
    (s.player asked).askedForJoiningBy
  else none

/-- The game of the next move is registered. -/
theorem State.nextMove_registered {s : State} {x : NextMove} (h : s.nextMove = some x) :
    x.game ∈ s.games := by
  obtain ⟨_, _, _, _, hgame, _⟩ := State.nextMove_eq_some_iff.mp h
  exact (GameManager.getGameByPlayer_eq_some hgame).1

/-- A handled `H_C_GAME_MOVE` is a move on the board. -/
theorem nextMove_of_exec {s t : State} {command : Command}
    (head : command ∈ s.commandQueue.head?) (header : command.message.header = H_C_GAME_MOVE)
    (exec : System.exec s .runCommand = .ok t) :
    ∃ x rest, s.nextMove = some x ∧ x.move.Inside ∧
      MoveEffect (s.withCommands rest) x.player x.game x.move t := by
  obtain ⟨rest, hqueue⟩ := List.head?_eq_some_iff.mp head
  rw [exec_runCommand hqueue, dispatch_move header] at exec
  obtain ⟨p, game, m, hp, hgame, hm, hinside, heffect⟩ := processGameMove_moveEffect exec
  refine ⟨⟨p, game, m⟩, rest, State.nextMove_eq_some_iff.mpr ?_, hinside, heffect⟩
  exact ⟨command, head, header, hp, hgame, hm⟩

/-! ## Steps -/

/-- What a step does to the registered games, their boards and whose turn it is. -/
inductive BoardStep (s : State) : Action → State → Prop where
  /-- Nothing is played and no game starts; games may end. -/
  | kept {a : Action} {t : State} (idle : a = .runCommand → s.nextMove = none)
      (games : t.games.Sublist s.games)
      (field : ∀ g, (t.game g).field = (s.game g).field)
      (playerOnTurn : ∀ g, (t.game g).playerOnTurn = (s.game g).playerOnTurn) : BoardStep s a t
  /-- A game starts, and the player who asked for it is on turn. -/
  | started {t : State} {asking asked : PlayerRef} (idle : s.nextMove = none)
      (starts : s.nextStart = some asking) (games : t.games = s.games ++ [s.gameHeap.next])
      (game : ∀ g, t.game g = if g = s.gameHeap.next then
        Game.setPlayerOnTurn asking (Game.new s.maxGameId asking asked) else s.game g) :
      BoardStep s .runCommand t
  /-- The next move is made. -/
  | played {x : NextMove} {rest : List Command} {t : State} (next : s.nextMove = some x)
      (inside : x.move.Inside)
      (effect : MoveEffect (s.withCommands rest) x.player x.game x.move t) :
      BoardStep s .runCommand t

namespace BoardStep

variable {s t : State}

theorem same {a : Action} (idle : a = .runCommand → s.nextMove = none) (h : SameWorld s t) :
    BoardStep s a t :=
  .kept idle (by rw [h.games]) (fun g => by rw [h.game]) fun g => by rw [h.game]

theorem closed {a : Action} {u : State} {fd : Int} (idle : a = .runCommand → s.nextMove = none)
    (h : SameWorld s u) (closed : Disconnection u fd t) : BoardStep s a t := by
  have hgames : u.games.Sublist s.games := by rw [h.games]
  have hfield : ∀ g, (u.game g).field = (s.game g).field := fun g => by rw [h.game]
  have hturn : ∀ g, (u.game g).playerOnTurn = (s.game g).playerOnTurn := fun g => by rw [h.game]
  cases closed with
  | left => exact .kept idle hgames hfield hturn
  | stays => exact .kept idle hgames hfield hturn

/-- A command that is not a move keeps the boards. -/
theorem other {command : Command} {rest : List Command} (idle : s.nextMove = none)
    (queue : s.commandQueue = command :: rest)
    (effect : Effect (s.withCommands rest) command.message t)
    (header : command.message.header ≠ H_C_GAME_MOVE) : BoardStep s .runCommand t := by
  have idle' : Action.runCommand = .runCommand → s.nextMove = none := fun _ => idle
  cases effect with
  | disconnected _ _ _ hclosed => exact closed idle' (sameWorld_withCommands s rest) hclosed
  | @started asking asked _ _ haccept sender askedBy =>
    have hstarts : s.nextStart = some asking := by
      have hasked : (s.player asked).askedForJoiningBy = some asking := askedBy
      simp [State.nextStart, queue, haccept, sender, hasked]
    exact .started idle hstarts rfl fun g => game_gameStarted (s.withCommands rest) asking asked g
  | moved hmove => exact absurd hmove header
  | won hmove => exact absurd hmove header
  | ended => exact .kept idle' List.eraseP_sublist (by simp [freeBoth]) (by simp [freeBoth])
  | endedLost => exact .kept idle' List.eraseP_sublist (by simp) (by simp)
  | bothLost => exact .kept idle' List.eraseP_sublist (by simp) (by simp)
  | reconnected =>
    -- a seat changes hands, the board and the turn stay
    exact .kept idle' (by simp [handedOver]) (by simp [handedOver]) (by simp [handedOver])
  | _ =>
    exact .kept idle' (List.Sublist.refl _) (by simp [clearRequest]) (by simp [clearRequest])

end BoardStep

/-- Every step of the server is one of the three. -/
theorem WorldStep.boardStep {s t : State} {a : Action} (h : WorldStep s a t)
    (exec : System.exec s a = .ok t) : BoardStep s a t := by
  by_cases hplays : ∃ x, a = .runCommand ∧ s.nextMove = some x
  · obtain ⟨x, rfl, hnext⟩ := hplays
    obtain ⟨command, hhead, hheader, -⟩ := State.nextMove_eq_some_iff.mp hnext
    obtain ⟨y, _, hnext', hinside, hmove⟩ := nextMove_of_exec hhead hheader exec
    exact .played hnext' hinside hmove
  · have hidle : a = .runCommand → s.nextMove = none := by
      intro ha
      by_contra hsome
      obtain ⟨x, hx⟩ := Option.ne_none_iff_exists'.mp hsome
      exact hplays ⟨x, ha, hx⟩
    cases h with
    | quiet hquiet => exact .same hidle hquiet.toSameWorld
    | accepted => exact .kept hidle (List.Sublist.refl _) (fun _ => rfl) fun _ => rfl
    | closed hquiet hclosed => exact .closed hidle hquiet.toSameWorld hclosed
    | @handled command rest _ hqueue heffect =>
      refine .other (hidle rfl) hqueue heffect fun hheader => ?_
      -- a handled move has a game
      have hhead : command ∈ s.commandQueue.head? := by
        rw [hqueue]
        rfl
      obtain ⟨x, _, hnext, -⟩ := nextMove_of_exec hhead hheader exec
      exact hplays ⟨x, rfl, hnext⟩

/-! ## The rule for boards -/

/-- What holds of the empty board and is kept by every guarded move in a game that does not win
    holds of the board of this game as long as it is registered. -/
theorem board_invariant {Guard : State → Action → Prop} {P : Board → Prop} {s : State}
    (g : GameRef) (reached : System.ReachableUnder Guard s) (empty : P Board.empty)
    (move : ∀ t x, Guard t .runCommand → t.nextMove = some x → x.game = g →
      P (t.game x.game).field → isGameWon (x.board t) x.move.cell = false → P (x.board t)) :
    g ∈ s.games → P (s.game g).field := by
  refine guarded_invariant (I := fun t : State => g ∈ t.games → P (t.game g).field) reached
    (fun t ht => registry_of_reachable ht.reachable) (fun hg => absurd hg List.not_mem_nil) ?_
  intro t u a hreg hboard hguard hexec hstep hg
  cases hstep.boardStep hexec with
  | kept _ games field =>
    rw [field]
    exact hboard (games.subset hg)
  | started _ _ games game =>
    rw [game]
    split
    · exact empty
    · rename_i hne
      rw [games] at hg
      rcases List.mem_append.mp hg with hg | hg
      · exact hboard hg
      · exact absurd (List.mem_singleton.mp hg) hne
  | @played x rest _ hnext _ heffect =>
    have hmem := State.nextMove_registered hnext
    have hfield := heffect.field
    have hother : g ≠ x.game → t.game g = u.game g := fun hne => (heffect.game_of_ne hne).symm
    cases heffect with
    | won =>
      -- ids are distinct, so exactly the game that was won is not registered any more
      obtain ⟨hold, hne⟩ := (hreg.mem_deleted_iff hmem g).mp hg
      rw [← hother hne]
      exact hboard hold
    | passed hopen =>
      by_cases heq : g = x.game
      · subst heq
        rw [hfield]
        exact move t x hguard hnext rfl (hboard hmem) hopen
      · rw [← hother heq]
        exact hboard hg

/-- The same for the boards of all registered games. -/
theorem boards_invariant {Guard : State → Action → Prop} {P : Board → Prop} {s : State}
    (reached : System.ReachableUnder Guard s) (empty : P Board.empty)
    (move : ∀ t x, Guard t .runCommand → t.nextMove = some x → P (t.game x.game).field →
      isGameWon (x.board t) x.move.cell = false → P (x.board t)) :
    ∀ g ∈ s.games, P (s.game g).field := fun g =>
  board_invariant g reached empty fun t x hguard hnext _ => move t x hguard hnext

end UpsServer
