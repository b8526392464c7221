import UpsServer.Network.Registry

/-!
# Moves and the games they end

What handling a move does with the three numbers of its message, and which game a client's
command ends: a logout the game that is found for its sender, a move the same game when
`isGameWon` answers yes.
-/

namespace UpsServer

open Framework CommandManager Sender

/-! ## The move in a message -/

/-- The three integers of `H_C_GAME_MOVE`. -/
structure Move where
  cardType : UInt32
  moveI : UInt32
  moveJ : UInt32
  deriving DecidableEq, Repr

namespace Move

/-- `field[moveI][moveJ]`. -/
def cell (m : Move) : Cell := (m.moveI.toNat, m.moveJ.toNat)

/-- The card type as the `int` that the board stores. -/
def card (m : Move) : Int := asInt m.cardType.toNat

/-- Both indices lie on the board. -/
def Inside (m : Move) : Prop := ¬ (7 < m.moveI ∨ 7 < m.moveJ)

instance (m : Move) : Decidable m.Inside := inferInstanceAs (Decidable (¬ _))

/-- The payload entries that are sent on. -/
def data (m : Move) : List Datum := [.int m.cardType, .int m.moveI, .int m.moveJ]

/-- The board of the game after the move. -/
def boardIn (m : Move) (s : State) (game : GameRef) : Board :=
  (s.game game).field.put m.cell m.card

end Move

/-- The move in the first three payload entries. -/
def Message.move (mess : Message) : Option Move :=
  match mess.payload[0]?, mess.payload[1]?, mess.payload[2]? with
  | some (Datum.int cardType), some (Datum.int moveI), some (Datum.int moveJ) =>
    some ⟨cardType, moveI, moveJ⟩
  | _, _, _ => none

theorem payloadInt_eq_ok_iff {mess : Message} {i : Nat} {value : UInt32} :
    payloadInt mess i = .ok value ↔ mess.payload[i]? = some (.int value) := by
  unfold payloadInt Message.intAt
  rw [mapError_eq_ok_iff]
  split <;> rename_i heq <;> simp [heq]

theorem Message.move_eq_some {mess : Message} {cardType moveI moveJ : UInt32}
    (h₀ : payloadInt mess 0 = .ok cardType) (h₁ : payloadInt mess 1 = .ok moveI)
    (h₂ : payloadInt mess 2 = .ok moveJ) : mess.move = some ⟨cardType, moveI, moveJ⟩ := by
  rw [payloadInt_eq_ok_iff] at h₀ h₁ h₂
  rw [Message.move, h₀, h₁, h₂]

theorem Message.payloadInt_of_move {mess : Message} {m : Move} (h : mess.move = some m) :
    payloadInt mess 0 = .ok m.cardType ∧ payloadInt mess 1 = .ok m.moveI ∧
      payloadInt mess 2 = .ok m.moveJ := by
  simp only [payloadInt_eq_ok_iff]
  unfold Message.move at h
  split at h
  · rename_i cardType moveI moveJ h₀ h₁ h₂
    cases h
    exact ⟨h₀, h₁, h₂⟩
  · cases h

/-! ## What a move does -/

/-- What handling the move `m` of `p` in `game` can do. -/
inductive MoveEffect (s : State) (p : PlayerRef) (game : GameRef) (m : Move) : State → Prop where
  /-- The move wins: both players are told and the game is over. -/
  | won {first second : OutPacket} (closes : isGameWon (m.boardIn s game) m.cell = true)
      (sentFirst : first.For s p) (sentSecond : second.For s (GameManager.otherSeat s game p))
      (winsFirst : first.message.header = H_S_GAME_WON)
      (winsSecond : second.message.header = H_S_GAME_WON) :
      MoveEffect s p game m
        ((freeBoth (((s.modifyGame game (Game.putCard m.cell m.card)).pushOut first).pushOut
          second) p (GameManager.otherSeat s game p)).withGames
            (s.games.eraseP (sameId s game)))
  /-- The move does not win: the opponent is told and is on turn. -/
  | passed {info : OutPacket} (stays : isGameWon (m.boardIn s game) m.cell = false)
      (sent : info.For s (GameManager.otherSeat s game p))
      (tells : info.message.header = H_S_GAME_MOVE) :
      MoveEffect s p game m
        (((s.modifyGame game (Game.putCard m.cell m.card)).modifyGame game
          (Game.setPlayerOnTurn (GameManager.otherSeat s game p))).pushOut info)

namespace MoveEffect

variable {s t : State} {p : PlayerRef} {game : GameRef} {m : Move}

/-- The other games are not touched. -/
theorem game_of_ne (h : MoveEffect s p game m t) {g : GameRef} (hne : g ≠ game) :
    t.game g = s.game g := by
  cases h with
  | won => exact State.game_modifyGame_of_ne s _ hne
  | passed =>
    exact (State.game_modifyGame_of_ne _ _ hne).trans (State.game_modifyGame_of_ne s _ hne)

/-- The card lies on the board, whether the game was won or not. -/
theorem field (h : MoveEffect s p game m t) : (t.game game).field = m.boardIn s game := by
  cases h with
  | won => simp [Move.boardIn]
  | passed => simp [Move.boardIn]

end MoveEffect

theorem processGameMove_moveEffect {s t : State} {mess : Message}
    (h : processGameMove s mess = .ok t) :
    ∃ p game m, mess.player = some p ∧ GameManager.getGameByPlayer s p = some game ∧
      mess.move = some m ∧ m.Inside ∧ MoveEffect s p game m t := by
  unfold processGameMove at h
  obtain ⟨p, hp, h⟩ := bind_eq_ok_iff.mp h
  obtain ⟨game, hgame, h⟩ := bind_eq_ok_iff.mp h
  have hplaying := deref_eq_ok_iff.mp hgame
  obtain ⟨cardType, h₀, h⟩ := bind_eq_ok_iff.mp h
  obtain ⟨moveI, h₁, h⟩ := bind_eq_ok_iff.mp h
  obtain ⟨moveJ, h₂, h⟩ := bind_eq_ok_iff.mp h
  -- a move outside the board is a fault
  split at h
  · cases h
  rename_i hinside
  refine ⟨p, game, ⟨cardType, moveI, moveJ⟩, deref_eq_ok_iff.mp hp, hplaying,
    Message.move_eq_some h₀ h₁ h₂, hinside, ?_⟩
  have hboard : ((s.modifyGame game (Game.putCard ((moveI.toNat : Int), (moveJ.toNat : Int))
      (asInt cardType.toNat))).game game).field
      = (⟨cardType, moveI, moveJ⟩ : Move).boardIn s game := by
    rw [State.game_modifyGame_self, Game.putCard]
    rfl
  dsimp only at h
  rw [hboard] at h
  split at h
  · rename_i hwon
    unfold winGame at h
    obtain ⟨_, hfirst, h⟩ := bind_eq_ok_iff.mp h
    obtain ⟨first, hsentFirst, hmessage, rfl⟩ := registerMessage_compose_carries hfirst
    obtain ⟨_, hsecond, h⟩ := bind_eq_ok_iff.mp h
    obtain ⟨second, hsentSecond, hmessage', rfl⟩ := registerMessage_compose_carries hsecond
    dsimp only at h
    rw [GameManager.deleteGame_eq_ok h (GameManager.getGameByPlayer_eq_some hplaying).1
      rfl (by simp)]
    exact .won hwon (hsentFirst.congr (by simp)) (hsentSecond.congr (by simp))
      (by rw [hmessage, header_compose]) (by rw [hmessage', header_compose])
  · rename_i hopen
    unfold passTurn at h
    obtain ⟨info, hsent, hmessage, rfl⟩ := registerMessage_compose_carries h
    exact .passed (Bool.eq_false_of_not_eq_true hopen) (hsent.congr (by simp))
      (by rw [hmessage, header_compose])

/-! ## The game that a command ends -/

/-- The game that a logout or a winning move of `p` ends. -/
def endedGame (s : State) (mess : Message) (p : PlayerRef) : Option GameRef :=
  if mess.header = H_C_PL_LOGOUT then
    if (s.player p).inGame then GameManager.getGameByPlayer s p else none
  else if mess.header = H_C_GAME_MOVE then
    match GameManager.getGameByPlayer s p, mess.move with
    | some game, some m => if isGameWon (m.boardIn s game) m.cell then some game else none
    | _, _ => none
  else none

theorem endedGame_of_logout {s : State} {mess : Message} {p : PlayerRef} {game : GameRef}
    (header : mess.header = H_C_PL_LOGOUT) (inGame : (s.player p).inGame = true)
    (playing : GameManager.getGameByPlayer s p = some game) :
    endedGame s mess p = some game := by
  rw [endedGame, if_pos header, if_pos inGame, playing]

/-- A handled move that takes its game out of the registry is a winning one. -/
theorem endedGame_of_move {s t : State} {mess : Message} {p : PlayerRef} {game : GameRef}
    (header : mess.header = H_C_GAME_MOVE) (sender : mess.player = some p)
    (playing : GameManager.getGameByPlayer s p = some game) (handled : dispatch s mess = .ok t)
    (deleted : game ∉ t.games) : endedGame s mess p = some game := by
  rw [dispatch_move header] at handled
  obtain ⟨q, game', m, hq, hplaying, hm, -, heffect⟩ := processGameMove_moveEffect handled
  obtain rfl : q = p := Option.some.inj (hq.symm.trans sender)
  obtain rfl : game' = game := Option.some.inj (hplaying.symm.trans playing)
  cases heffect with
  | won closes =>
    have hlogout : mess.header ≠ H_C_PL_LOGOUT := by
      rw [header]
      decide
    simp only [endedGame, if_neg hlogout, if_pos header, hplaying, hm, closes, if_true]
  | passed =>
    -- the registry is the same
    exact absurd (GameManager.getGameByPlayer_eq_some playing).1 deleted

end UpsServer
