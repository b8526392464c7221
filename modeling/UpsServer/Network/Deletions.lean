import UpsServer.Network.Registry

/-!
# Deleting a game

`deleteGame` counts to the first entry with the id of its argument and erases there; without
such an entry it would erase the last game instead. The registered games stand in the order of
their ids, so the entry found is the argument itself whenever it is registered, and each of the
three handlers that delete a game deletes one it has just found in the vector.
-/

namespace UpsServer

open Framework Sender CommandManager

/-! ## The order of the ids -/

/-- The ids grow along `GameManager::games`. -/
def GamesInOrder (s : State) : Prop :=
  s.games.Pairwise fun g h => (s.game g).id < (s.game h).id

namespace GamesInOrder

variable {s t : State}

theorem shrink (h : GamesInOrder s) (shrinks : Shrinks s t) : GamesInOrder t := by
  refine (List.Pairwise.sublist shrinks.games h).imp fun {g g'} hlt => ?_
  rwa [shrinks.ids, shrinks.ids]

/-- A new game takes an id above all others and the last place. -/
theorem addGame (h : GamesInOrder s) (registry : Registry s) (p1 p2 : PlayerRef) :
    GamesInOrder (GameManager.addGame s p1 p2) := by
  refine List.pairwise_append.mpr ⟨?_, List.pairwise_singleton _ _, fun g hg last hlast => ?_⟩
  · refine List.Pairwise.imp_of_mem (fun {g g'} hg hg' hlt => ?_) h
    rwa [registry.game_addGame_of_mem hg, registry.game_addGame_of_mem hg']
  · rw [List.mem_singleton.mp hlast, registry.game_addGame_of_mem hg, GameManager.game_addGame,
      if_pos rfl, Game.new_id]
    exact registry.idsBelow g hg

theorem handled {mess : Message} (h : GamesInOrder s) (registry : Registry s)
    (effect : Effect s mess t) : GamesInOrder t := by
  rcases Shrinks.of_effect effect with hshrinks | ⟨asking, asked, hshrinks⟩
  · exact h.shrink hshrinks
  · exact (h.addGame registry asking asked).shrink hshrinks

end GamesInOrder

theorem gamesInOrder_of_reachable {s : State} (h : System.Reachable s) : GamesInOrder s :=
  same_world_invariant h (fun _ ht => registry_of_reachable ht)
    (fun _ _ hsame hreg => hreg.same hsame)
    (show GamesInOrder State.initial from List.Pairwise.nil)
    (fun _ _ hsame horder => horder.shrink (.of_same hsame))
    (fun _ _ _ _ horder _ => horder)
    (fun _ _ _ _ horder hclosed => horder.shrink (.of_disconnection hclosed))
    fun _ _ _ hreg horder heffect => horder.handled hreg heffect

/-! ## Handlers up to the call -/

/-- A handler stopped where it calls `deleteGame`, or the result of a path without a call. -/
inductive UntilDelete where
  | returned (s : State)
  /-- The state and the argument of the call, and what the handler does after it. -/
  | calls (s : State) (game : GameRef) (goOn : State → Except Fault State)

/-- Makes the call and goes on. -/
def UntilDelete.finish : UntilDelete → Except Fault State
  | .returned s => .ok s
  | .calls s game goOn => GameManager.deleteGame s game >>= goOn

/-- The argument of the call. -/
def UntilDelete.argument : UntilDelete → Option GameRef
  | .returned _ => none
  | .calls _ game _ => some game

theorem UntilDelete.argument_eq_some_iff {u : UntilDelete} {game : GameRef} :
    u.argument = some game ↔ ∃ t goOn, u = .calls t game goOn := by
  cases u <;> simp [argument]

namespace CommandManager

/-- `winGame` up to its call. -/
def winGameUntil (s : State) (game : GameRef) (turnPlayer oponent : PlayerRef)
    (move : List Datum) : Except Fault UntilDelete := do
  let data := .str (s.player turnPlayer).name :: move
  let s ← registerMessage s (.compose H_S_GAME_WON data (some turnPlayer))
  let s ← registerMessage s (.compose H_S_GAME_WON data (some oponent))
  let s := s.modifyPlayer turnPlayer (Player.setInGame false)
  let s := s.modifyPlayer oponent (Player.setInGame false)
  let s := s.modifyPlayer turnPlayer (Player.setAvailible true)
  let s := s.modifyPlayer oponent (Player.setAvailible true)
  return .calls s game .ok

/-- `processGameMove` up to its call. -/
def processGameMoveUntil (s : State) (mess : Message) : Except Fault UntilDelete := do
  let turnPlayer ← deref mess.player
  let game ← deref (GameManager.getGameByPlayer s turnPlayer)
  let oponent := GameManager.otherSeat s game turnPlayer
  let cardType ← payloadInt mess 0
  let moveI ← payloadInt mess 1
  let moveJ ← payloadInt mess 2
  if 7 < moveI ∨ 7 < moveJ then
    throw (.fieldOutside moveI moveJ)
  let cell : Cell := (moveI.toNat, moveJ.toNat)
  let s := s.modifyGame game (Game.putCard cell (asInt cardType.toNat))
  let move := [.int cardType, .int moveI, .int moveJ]
  if isGameWon (s.game game).field cell then
    winGameUntil s game turnPlayer oponent move
  else
    return .returned (← passTurn s game oponent move)

/-- `proceedGameEnding` up to its call. -/
def proceedGameEndingUntil (s : State) (mess : Message) : Except Fault UntilDelete := do
  let p ← deref mess.player
  let game ← deref (GameManager.getGameByPlayer s p)
  let oponent := GameManager.otherSeat s game p
  if (s.player oponent).lost then
    let s ← Server.deletePlayer s oponent
    let s := s.modifyPlayer p (Player.setAvailible true)
    let s := s.modifyPlayer p (Player.setInGame false)
    return .calls s game .ok
  else
    let s := s.modifyPlayer p (Player.setInGame false)
    let s := s.modifyPlayer oponent (Player.setInGame false)
    let s := s.modifyPlayer p (Player.setAvailible true)
    let s := s.modifyPlayer oponent (Player.setAvailible true)
    let s ← registerMessage s (.compose H_S_GAME_ENDED [] (some oponent))
    return .calls s game .ok

/-- `proceedPlayerLost` up to its call. -/
def proceedPlayerLostUntil (s : State) (mess : Message) : Except Fault UntilDelete := do
  let lost ← deref mess.player
  let game ← deref (GameManager.getGameByPlayer s lost)
  let oponent := GameManager.otherSeat s game lost
  let s := s.modifyPlayer lost fun p => { p with lost := true }
  if (s.player oponent).lost then
    return .calls s game fun s => do
      let s := s.modifyPlayer oponent (Player.setInGame false)
      let s := s.modifyPlayer lost (Player.setInGame false)
      let s ← Server.deletePlayer s oponent
      Server.deletePlayer s lost
  else
    return .returned (← registerMessage s (.compose H_S_PL_LOSS [] (some oponent)))

end CommandManager

/-- The handlers that delete games. -/
inductive DeletingHandler where
  | processGameMove
  | proceedGameEnding
  | proceedPlayerLost
  deriving DecidableEq, Repr

namespace DeletingHandler

/-- The handler of the source. -/
def run : DeletingHandler → State → Message → Except Fault State
  | processGameMove => CommandManager.processGameMove
  | proceedGameEnding => CommandManager.proceedGameEnding
  | proceedPlayerLost => CommandManager.proceedPlayerLost

/-- The handler up to its call. -/
def runUntil : DeletingHandler → State → Message → Except Fault UntilDelete
  | processGameMove => processGameMoveUntil
  | proceedGameEnding => proceedGameEndingUntil
  | proceedPlayerLost => proceedPlayerLostUntil

end DeletingHandler

/-! ## Going on gives the handlers -/

theorem winGame_eq_finish (s : State) (game : GameRef) (turnPlayer oponent : PlayerRef)
    (move : List Datum) :
    winGame s game turnPlayer oponent move
      = winGameUntil s game turnPlayer oponent move >>= UntilDelete.finish := by
  simp [winGame, winGameUntil, bind_assoc, UntilDelete.finish]

theorem processGameMove_eq_finish (s : State) (mess : Message) :
    processGameMove s mess = processGameMoveUntil s mess >>= UntilDelete.finish := by
  unfold processGameMove processGameMoveUntil
  simp only [bind_assoc]
  refine bind_congr fun turnPlayer => bind_congr fun game => bind_congr fun cardType =>
    bind_congr fun moveI => bind_congr fun moveJ => ?_
  -- outside the board, the winning move, the turn handed on
  split
  · rfl
  simp only [winGame_eq_finish]
  split
  · rfl
  · simp [bind_assoc, UntilDelete.finish]

theorem proceedGameEnding_eq_finish (s : State) (mess : Message) :
    proceedGameEnding s mess = proceedGameEndingUntil s mess >>= UntilDelete.finish := by
  unfold proceedGameEnding proceedGameEndingUntil
  simp only [bind_assoc]
  refine bind_congr fun p => bind_congr fun game => ?_
  -- the opponent is lost or is told
  split <;> simp [bind_assoc, UntilDelete.finish]

theorem proceedPlayerLost_eq_finish (s : State) (mess : Message) :
    proceedPlayerLost s mess = proceedPlayerLostUntil s mess >>= UntilDelete.finish := by
  unfold proceedPlayerLost proceedPlayerLostUntil
  simp only [bind_assoc]
  refine bind_congr fun lost => bind_congr fun game => ?_
  -- the opponent is lost, too, or is told
  split <;> simp [bind_assoc, UntilDelete.finish]

/-- A handler is its part up to the call, the call and what comes after. -/
theorem DeletingHandler.run_eq_finish (handler : DeletingHandler) (s : State) (mess : Message) :
    handler.run s mess = handler.runUntil s mess >>= UntilDelete.finish := by
  cases handler with
  | processGameMove => exact processGameMove_eq_finish s mess
  | proceedGameEnding => exact proceedGameEnding_eq_finish s mess
  | proceedPlayerLost => exact proceedPlayerLost_eq_finish s mess

/-! ## What is deleted -/

/-- The argument of a call was found for the sender of the message, and the vector and the ids
    are still those of the state in which it was found. -/
structure DeletesFound (s : State) (mess : Message) (t : State) (game : GameRef) : Prop where
  found : ∃ p, mess.player = some p ∧ GameManager.getGameByPlayer s p = some game
  games : t.games = s.games
  ids : ∀ g, (t.game g).id = (s.game g).id

section Calls

variable {s t : State} {mess : Message} {game : GameRef} {goOn : State → Except Fault State}

theorem winGameUntil_calls {found : GameRef} {turnPlayer oponent : PlayerRef}
    {move : List Datum}
    (h : winGameUntil s found turnPlayer oponent move = .ok (.calls t game goOn)) :
    game = found ∧ t.games = s.games ∧ ∀ g, t.game g = s.game g := by
  unfold winGameUntil at h
  obtain ⟨_, hfirst, h⟩ := bind_eq_ok_iff.mp h
  obtain ⟨first, -, rfl⟩ := registerMessage_compose_eq_ok hfirst
  obtain ⟨_, hsecond, h⟩ := bind_eq_ok_iff.mp h
  obtain ⟨second, -, rfl⟩ := registerMessage_compose_eq_ok hsecond
  cases h
  exact ⟨rfl, rfl, fun _ => rfl⟩

theorem processGameMoveUntil_calls (h : processGameMoveUntil s mess = .ok (.calls t game goOn)) :
    DeletesFound s mess t game := by
  unfold processGameMoveUntil at h
  obtain ⟨p, hp, h⟩ := bind_eq_ok_iff.mp h
  obtain ⟨found, hfound, h⟩ := bind_eq_ok_iff.mp h
  obtain ⟨cardType, -, h⟩ := bind_eq_ok_iff.mp h
  obtain ⟨moveI, -, h⟩ := bind_eq_ok_iff.mp h
  obtain ⟨moveJ, -, h⟩ := bind_eq_ok_iff.mp h
  split at h
  · cases h
  dsimp only at h
  split at h
  · -- the move changes the board of the game, not its id
    obtain ⟨rfl, hgames, hsame⟩ := winGameUntil_calls h
    refine ⟨⟨p, deref_eq_ok_iff.mp hp, deref_eq_ok_iff.mp hfound⟩, hgames, fun g => ?_⟩
    rw [hsame]
    exact State.id_modifyGame s _ g _ fun _ => rfl
  · obtain ⟨_, -, h⟩ := bind_eq_ok_iff.mp h
    cases h

theorem proceedGameEndingUntil_calls
    (h : proceedGameEndingUntil s mess = .ok (.calls t game goOn)) :
    DeletesFound s mess t game := by
  unfold proceedGameEndingUntil at h
  obtain ⟨p, hp, h⟩ := bind_eq_ok_iff.mp h
  obtain ⟨found, hfound, h⟩ := bind_eq_ok_iff.mp h
  have hlookup : ∃ p, mess.player = some p ∧ GameManager.getGameByPlayer s p = some found :=
    ⟨p, deref_eq_ok_iff.mp hp, deref_eq_ok_iff.mp hfound⟩
  dsimp only at h
  split at h
  · obtain ⟨_, hdelete, h⟩ := bind_eq_ok_iff.mp h
    obtain ⟨players, -, rfl⟩ := Server.deletePlayer_eq_ok hdelete
    cases h
    exact ⟨hlookup, rfl, fun _ => rfl⟩
  · obtain ⟨_, htold, h⟩ := bind_eq_ok_iff.mp h
    obtain ⟨answer, -, rfl⟩ := registerMessage_compose_eq_ok htold
    cases h
    exact ⟨hlookup, rfl, fun _ => rfl⟩

theorem proceedPlayerLostUntil_calls
    (h : proceedPlayerLostUntil s mess = .ok (.calls t game goOn)) :
    DeletesFound s mess t game := by
  unfold proceedPlayerLostUntil at h
  obtain ⟨p, hp, h⟩ := bind_eq_ok_iff.mp h
  obtain ⟨found, hfound, h⟩ := bind_eq_ok_iff.mp h
  dsimp only at h
  split at h
  · cases h
    exact ⟨⟨p, deref_eq_ok_iff.mp hp, deref_eq_ok_iff.mp hfound⟩, rfl, fun _ => rfl⟩
  · obtain ⟨_, -, h⟩ := bind_eq_ok_iff.mp h
    cases h

theorem DeletingHandler.runUntil_calls {handler : DeletingHandler}
    (h : handler.runUntil s mess = .ok (.calls t game goOn)) : DeletesFound s mess t game := by
  cases handler with
  | processGameMove => exact processGameMoveUntil_calls h
  | proceedGameEnding => exact proceedGameEndingUntil_calls h
  | proceedPlayerLost => exact proceedPlayerLostUntil_calls h

end Calls

/-- A registered game leaves the vector alone. -/
theorem Registry.deleteGame_splits {s t : State} (h : Registry s) {g : GameRef}
    (hmem : g ∈ s.games) (games : t.games = s.games)
    (ids : ∀ x, (t.game x).id = (s.game x).id) :
    ∃ before after, s.games = before ++ g :: after ∧ g ∉ before ++ after ∧
      GameManager.deleteGame t g = .ok (t.withGames (before ++ after)) := by
  have hself : sameId s g g = true := by simp [sameId]
  obtain ⟨found, before, after, -, hfound, hsplit, herased⟩ := List.exists_of_eraseP hmem hself
  -- no other game has the id
  have heq : found = g :=
    h.idsDistinct found (by simp [hsplit]) g hmem (by simpa [sameId] using hfound)
  subst heq
  have hnodup := h.gamesNodup
  rw [hsplit, List.nodup_middle, List.nodup_cons] at hnodup
  refine ⟨before, after, hsplit, hnodup.1, ?_⟩
  rw [GameManager.deleteGame_of_mem hmem games ids, herased]

/-- In every reachable state the ids of the registered games grow along the vector and stay
    below the next one. Each of the three handlers is its part up to the call of `deleteGame`,
    the call and the rest; the argument of the call was found for the sender, and the call
    removes this one object and keeps the others in their order. -/
theorem deleteGame_removes_the_found_game {s : State} (reachable : System.Reachable s) :
    GamesInOrder s ∧ (∀ g ∈ s.games, (s.game g).id < s.maxGameId) ∧
      ∀ (handler : DeletingHandler) (commands : List Command) (mess : Message),
        handler.run (s.withCommands commands) mess
            = handler.runUntil (s.withCommands commands) mess >>= UntilDelete.finish ∧
          ∀ t game goOn,
            handler.runUntil (s.withCommands commands) mess = .ok (.calls t game goOn) →
              (∃ p, mess.player = some p ∧
                GameManager.getGameByPlayer (s.withCommands commands) p = some game) ∧
              t.games = s.games ∧
              ∃ before after, s.games = before ++ game :: after ∧ game ∉ before ++ after ∧
                GameManager.deleteGame t game = .ok (t.withGames (before ++ after)) := by
  have registry := registry_of_reachable reachable
  refine ⟨gamesInOrder_of_reachable reachable, registry.idsBelow, fun handler commands mess =>
    ⟨handler.run_eq_finish _ mess, fun t game goOn hcalls => ?_⟩⟩
  -- popping the command touches neither the vector nor the games
  have hfinds := handler.runUntil_calls hcalls
  obtain ⟨p, hp, hfound⟩ := hfinds.found
  have hmem : game ∈ s.games := (GameManager.getGameByPlayer_eq_some hfound).1
  exact ⟨⟨p, hp, hfound⟩, hfinds.games,
    registry.deleteGame_splits hmem hfinds.games hfinds.ids⟩

/-- `A` leaves the first of two games, and only this one is deleted. -/
theorem deleteGame_removes_the_found_game_leaving :
    (System.after System.playFour).games = [0, 1] ∧
      ∃ t goOn, DeletingHandler.proceedGameEnding.runUntil
          ((System.after System.playFour).withCommands []) (.compose H_C_PL_LOGOUT [] (some 0))
            = .ok (.calls t 0 goOn) ∧
        GameManager.deleteGame t 0 = .ok (t.withGames [1]) := by
  have hgames : (System.after System.playFour).games = [0, 1] := by decide +kernel
  have hargument : (DeletingHandler.proceedGameEnding.runUntil
      ((System.after System.playFour).withCommands [])
      (.compose H_C_PL_LOGOUT [] (some 0))).toOption.bind UntilDelete.argument = some 0 := by
    decide +kernel
  obtain ⟨u, hu, hcalls⟩ := Option.bind_eq_some_iff.mp hargument
  obtain ⟨t, goOn, rfl⟩ := UntilDelete.argument_eq_some_iff.mp hcalls
  have hrun := toOption_eq_some_iff.mp hu
  obtain ⟨-, -, hdeletes⟩ :=
    deleteGame_removes_the_found_game (System.reachable_after System.playFour)
  obtain ⟨-, -, before, after, hsplit, -, hdeleted⟩ :=
    (hdeletes .proceedGameEnding [] (.compose H_C_PL_LOGOUT [] (some 0))).2 t 0 goOn hrun
  refine ⟨hgames, t, goOn, hrun, ?_⟩
  -- the first game is the one that was found
  rw [hgames] at hsplit
  cases before with
  | nil =>
    obtain ⟨-, rfl⟩ := List.cons.inj hsplit
    exact hdeleted
  | cons first before =>
    obtain ⟨rfl, hrest⟩ := List.cons.inj hsplit
    have hmem : (0 : GameRef) ∈ [1] := by
      rw [hrest]
      simp
    exact absurd hmem (by decide)

end UpsServer
