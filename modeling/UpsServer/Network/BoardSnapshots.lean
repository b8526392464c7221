import UpsServer.Game.BoardStrings
import UpsServer.Network.Effects

/-!
# What a reconnecting client is told about its board

The message of `proceedPlayerReconnection` carries the board of the game that is taken over as a
string. The string determines the board, whatever card types the clients have put on it.
-/

namespace UpsServer

open Framework Sender CommandManager

/-- The newcomer is sent the board of the game that it takes over. -/
theorem reconnect_sends_board {s s' : State} {newP oldP : PlayerRef}
    (h : reconnect s newP oldP = .ok s') :
    ∃ game packet onTurn oponent,
      GameManager.getGameByPlayer (takeOverName s newP oldP) oldP = some game ∧
      packet ∈ s'.pQueue ∧ packet.message.header = H_S_GAME_CON ∧
      packet.message.player = some newP ∧
      packet.message.payload = [.str onTurn, .str oponent, .str (s.game game).getGameString] := by
  unfold reconnect at h
  obtain ⟨game, hgame, h⟩ := bind_eq_ok_iff.mp h
  obtain ⟨onTurn, _, h⟩ := bind_eq_ok_iff.mp h
  obtain ⟨oponent, _, h⟩ := bind_eq_ok_iff.mp h
  obtain ⟨_, hfirst, h⟩ := bind_eq_ok_iff.mp h
  obtain ⟨first, _, hmessage, rfl⟩ := registerMessage_compose_carries hfirst
  obtain ⟨_, hsecond, h⟩ := bind_eq_ok_iff.mp h
  obtain ⟨second, _, _, rfl⟩ := registerMessage_compose_carries hsecond
  obtain ⟨players, _, rfl⟩ := Server.deletePlayer_eq_ok h
  -- the seat that changes hands is not part of the string
  have hboard : ((takeOverSeat (takeOverName s newP oldP) game newP).game game).getGameString
      = (s.game game).getGameString := by
    rw [Game.getGameString, field_takeOverSeat]
    rfl
  rw [compose_eq, hboard] at hmessage
  have hqueued : first ∈ (s.pQueue ++ [first]) ++ [second] :=
    List.mem_append_left _ (List.mem_append_right _ List.mem_cons_self)
  have hqueue : ((((takeOverSeat (takeOverName s newP oldP) game newP).pushOut first).pushOut
      second).withPlayers players).pQueue = (s.pQueue ++ [first]) ++ [second] := by
    obtain ⟨f, hf, _⟩ := takeOverSeat_eq (takeOverName s newP oldP) newP game
    rw [hf]
    rfl
  exact ⟨game, first, _, _, deref_eq_ok_iff.mp hgame, hqueue ▸ hqueued,
    congrArg Message.header hmessage, congrArg Message.player hmessage,
    congrArg Message.payload hmessage⟩

/-- **Lossless snapshots**: the string of a board has exactly 64 pieces, the number in each is the
    card type of its cell, boards with the same string are the same, and the string that a
    reconnecting client is sent gives it every cell of the game's board. -/
theorem board_snapshot_lossless :
    (∀ g : Game, (g.getGameString.splitOn 59).length = 64 ∧
      ∀ k < 64, ((g.getGameString.splitOn 59)[k]?).bind readDecimal
        = some (g.field (((k / 8 : Nat) : Int), ((k % 8 : Nat) : Int)))) ∧
    (∀ g h : Game, g.getGameString = h.getGameString → ∀ c, OnBoard c → g.field c = h.field c) ∧
    ∀ (s s' : State) (newP oldP : PlayerRef), reconnect s newP oldP = .ok s' →
      ∃ game packet onTurn oponent gameString,
        GameManager.getGameByPlayer (takeOverName s newP oldP) oldP = some game ∧
        packet ∈ s'.pQueue ∧ packet.message.header = H_S_GAME_CON ∧
        packet.message.player = some newP ∧
        packet.message.payload = [.str onTurn, .str oponent, .str gameString] ∧
        ∀ i < 8, ∀ j < 8,
          Game.rebuild gameString i j = some ((s.game game).field ((i : Int), (j : Int))) := by
  refine ⟨?_, ?_, ?_⟩
  · intro g
    refine ⟨?_, fun k hk => Game.readDecimal_piece g hk⟩
    rw [Game.splitOn_getGameString, List.length_map]
    rfl
  · intro g h heq c hc
    exact Game.field_eq_of_getGameString_eq heq hc
  · intro s s' newP oldP h
    obtain ⟨game, packet, onTurn, oponent, hgame, hqueue, hheader, hplayer, hpayload⟩ :=
      reconnect_sends_board h
    exact ⟨game, packet, onTurn, oponent, _, hgame, hqueue, hheader, hplayer, hpayload,
      fun i hi j hj => Game.rebuild_getGameString _ hi hj⟩

end UpsServer
