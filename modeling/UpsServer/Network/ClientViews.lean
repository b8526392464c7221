import UpsServer.Game.BoardStrings
import UpsServer.Network.References
import UpsServer.Network.Tidy

/-!
# What the clients believe

A client sees the server through the messages it is sent and knows its own commands. `View` is what
it can conclude from them: whether it plays, the board, and whether it is on turn. The first entry
of the messages that start or resume a game names the player on turn, the second one the opponent
of whoever reads it, so a client is on turn when they differ.

The views are a record that is kept next to a run. This module works out, for every command, whose
view changes and to what.
-/

namespace UpsServer

open Framework CommandManager

/-! ## Views -/

/-- What a client knows. -/
inductive View where
  /-- It plays no game. -/
  | free
  /-- It plays, with this board, and believes to be on turn or not. -/
  | playing (board : Board) (onTurn : Bool)

namespace View

/-- A card is put on the board that the client sees. -/
def play (m : Move) (onTurn : Bool) : View → View
  | free => free
  | playing board _ => playing (board.put m.cell m.card) onTurn

/-- The board that the string of a snapshot describes. -/
def boardOf (gameString : ByteString) : Board :=
  fun c => (Game.rebuild gameString c.1.toNat c.2.toNat).getD 0

/-- The player on turn is not the opponent. -/
def onTurnIn (mess : Message) : Bool := mess.payload[0]? != mess.payload[1]?

/-- The client receives a message. -/
def hear (v : View) (mess : Message) : View :=
  if mess.header = H_S_GAME_START then .playing Board.empty (onTurnIn mess)
  else if mess.header = H_S_GAME_CON then
    match mess.payload[2]? with
    | some (Datum.str gameString) => .playing (boardOf gameString) (onTurnIn mess)
    | _ => v
  else if mess.header = H_S_GAME_MOVE then
    match mess.move with
    | some m => v.play m true
    | none => v
  else if mess.header = H_S_GAME_WON ∨ mess.header = H_S_GAME_ENDED then .free
  else v

/-- A command of the client is handled. -/
def say (v : View) (mess : Message) : View :=
  if mess.header = H_C_GAME_MOVE then
    match mess.move with
    | some m => v.play m false
    | none => v
  else if mess.header = H_C_PL_LOGOUT then .free
  else v

/-- The client sees this board. -/
def Shows (v : View) (board : Board) : Prop :=
  ∃ seen onTurn, v = .playing seen onTurn ∧ ∀ c, OnBoard c → seen c = board c

/-- A card that is put on both boards. -/
theorem Shows.play {v : View} {board : Board} (h : v.Shows board) (m : Move) (onTurn : Bool) :
    (v.play m onTurn).Shows (board.put m.cell m.card) := by
  obtain ⟨seen, was, rfl, hsame⟩ := h
  refine ⟨seen.put m.cell m.card, onTurn, rfl, fun c hc => ?_⟩
  rw [Board.put, Board.put]
  split
  · rfl
  · exact hsame c hc

/-- A snapshot shows the board it was taken of. -/
theorem boardOf_getGameString (g : Game) {c : Cell} (hc : OnBoard c) :
    boardOf g.getGameString c = g.field c := by
  obtain ⟨hi, hi', hj, hj'⟩ := hc
  rw [boardOf, Game.rebuild_getGameString g (by omega) (by omega), Int.toNat_of_nonneg hi,
    Int.toNat_of_nonneg hj]
  rfl

section Hear

variable {v : View} {player : Option PlayerRef}

theorem hear_start {onTurn oponent : ByteString} :
    v.hear (.compose H_S_GAME_START [.str onTurn, .str oponent] player)
      = .playing Board.empty (onTurn != oponent) := by
  rw [Sender.compose_eq]
  simp [hear, onTurnIn, bne]

theorem hear_con {onTurn oponent gameString : ByteString} :
    v.hear (.compose H_S_GAME_CON [.str onTurn, .str oponent, .str gameString] player)
      = .playing (boardOf gameString) (onTurn != oponent) := by
  rw [Sender.compose_eq]
  simp [hear, onTurnIn, bne, H_S_GAME_CON, H_S_GAME_START]

theorem hear_move {m : Move} :
    v.hear (.compose H_S_GAME_MOVE m.data player) = v.play m true := by
  rw [Sender.compose_eq]
  simp [hear, Message.move, Move.data, H_S_GAME_MOVE, H_S_GAME_CON, H_S_GAME_START]

theorem hear_won {data : List Datum} : v.hear (.compose H_S_GAME_WON data player) = .free := by
  rw [Sender.compose_eq]
  simp [hear, H_S_GAME_WON, H_S_GAME_MOVE, H_S_GAME_CON, H_S_GAME_START]

theorem hear_ended {data : List Datum} : v.hear (.compose H_S_GAME_ENDED data player) = .free := by
  rw [Sender.compose_eq]
  simp [hear, H_S_GAME_ENDED, H_S_GAME_WON, H_S_GAME_MOVE, H_S_GAME_CON, H_S_GAME_START]

end Hear

end View

/-! ## The views of all clients -/

/-- The views of all clients, by the connection. -/
abbrev Views := PlayerRef → View

/-- The headers that a client's view depends on. -/
def gameHeaders : List UInt32 :=
  [H_S_GAME_START, H_S_GAME_CON, H_S_GAME_MOVE, H_S_GAME_WON, H_S_GAME_ENDED]

namespace Views

/-- A message is told to its addressee. -/
def tell (views : Views) (m : Message) : Views :=
  fun p => if m.player = some p then (views p).hear m else views p

/-- A command of its sender is handled. -/
def say (views : Views) (mess : Message) : Views :=
  fun p => if mess.player = some p then (views p).say mess else views p

/-- A command is handled and everybody is told what comes of it. -/
def handle (s : State) (mess : Message) (views : Views) : Views :=
  (told s mess).foldl tell (views.say mess)

/-- What a step does to the views. -/
def watch (s : State) (a : Action) (views : Views) : Views :=
  match a, s.commandQueue with
  | .runCommand, command :: rest => handle (s.withCommands rest) command.message views
  | _, _ => views

variable {views : Views} {messages : List Message} {mess : Message} {p : PlayerRef}

/-- Whoever is not addressed learns nothing. -/
theorem foldl_tell_of_not_addressed (h : ∀ m ∈ messages, m.player ≠ some p) :
    messages.foldl tell views p = views p := by
  induction messages generalizing views with
  | nil => rfl
  | cons m messages ih =>
    rw [List.foldl_cons, ih fun n hn => h n (List.mem_cons_of_mem _ hn), tell,
      if_neg (h m List.mem_cons_self)]

/-- Other messages tell nothing about games. -/
theorem foldl_tell_of_other (h : ∀ m ∈ messages, m.header ∉ gameHeaders) :
    messages.foldl tell views = views := by
  induction messages generalizing views with
  | nil => rfl
  | cons m messages ih =>
    rw [List.foldl_cons, ih fun n hn => h n (List.mem_cons_of_mem _ hn)]
    have hother := h m List.mem_cons_self
    simp only [gameHeaders, List.mem_cons, List.not_mem_nil, or_false, not_or] at hother
    funext q
    simp [tell, View.hear, hother]

theorem say_of_ne (h : mess.player ≠ some p) : views.say mess p = views p := by
  rw [say, if_neg h]

/-- Other commands change nothing about games. -/
theorem say_of_other (move : mess.header ≠ H_C_GAME_MOVE) (logout : mess.header ≠ H_C_PL_LOGOUT) :
    views.say mess = views := by
  funext q
  simp [say, View.say, move, logout]

/-- The sender moves. -/
theorem say_move {m : Move} (header : mess.header = H_C_GAME_MOVE) (hm : mess.move = some m)
    (sender : mess.player = some p) : views.say mess p = (views p).play m false := by
  simp [say, View.say, header, hm, sender]

/-- The sender leaves. -/
theorem say_logout (header : mess.header = H_C_PL_LOGOUT) (sender : mess.player = some p) :
    views.say mess p = .free := by
  have hmove : (H_C_PL_LOGOUT = H_C_GAME_MOVE) = False := by decide
  simp [say, View.say, header, sender, hmove]

/-- The views of `p` and `oponent` are now `first` and `second`; nobody else's has changed. -/
structure Become (views views' : Views) (p oponent : PlayerRef) (first second : View) : Prop where
  first : views' p = first
  second : views' oponent = second
  others : ∀ q, q ≠ p → q ≠ oponent → views' q = views q

/-- Two different clients are told something. -/
theorem become_of_two {oponent : PlayerRef} {m n : Message} {first second : View}
    (distinct : oponent ≠ p) (toFirst : m.player = some p) (toSecond : n.player = some oponent)
    (hears : (views p).hear m = first) (hears' : (views oponent).hear n = second) :
    Become views ([m, n].foldl tell views) p oponent first second := by
  have hne : (some p : Option PlayerRef) ≠ some oponent := fun heq =>
    distinct (Option.some.inj heq).symm
  refine ⟨?_, ?_, fun q hp hoponent => ?_⟩
  · rw [← hears]
    simp [tell, toFirst, toSecond, distinct]
  · rw [← hears']
    simp [tell, toFirst, toSecond, hne]
  · exact foldl_tell_of_not_addressed (by simp [toFirst, toSecond, Ne.symm hp, Ne.symm hoponent])

/-- The sender's command is handled and one other client is told something. -/
theorem become_of_one {oponent : PlayerRef} {m : Message} {first second : View}
    (distinct : oponent ≠ p) (sender : mess.player = some p) (toSecond : m.player = some oponent)
    (own : views.say mess p = first) (hears : (views oponent).hear m = second) :
    Become views ([m].foldl tell (views.say mess)) p oponent first second := by
  have hsender : ∀ q, q ≠ p → mess.player ≠ some q := fun q hq heq =>
    hq (Option.some.inj (heq.symm.trans sender))
  refine ⟨?_, ?_, fun q hp hoponent => ?_⟩
  · rw [← own]
    exact foldl_tell_of_not_addressed (by simp [toSecond, distinct])
  · rw [← hears]
    simp [tell, toSecond, say_of_ne (hsender oponent distinct)]
  · rw [foldl_tell_of_not_addressed (by simp [toSecond, Ne.symm hoponent]),
      say_of_ne (hsender q hp)]

/-- The sender hears of its command what overwrites its own view. -/
theorem Become.of_say {views' : Views} {oponent : PlayerRef} {first second : View}
    (h : Become (views.say mess) views' p oponent first second) (sender : mess.player = some p) :
    Become views views' p oponent first second := by
  refine ⟨h.first, h.second, fun q hp hoponent => ?_⟩
  rw [h.others q hp hoponent, say_of_ne]
  exact fun heq => hp (Option.some.inj (heq.symm.trans sender))

end Views

/-! ## The table in the single cases -/

section Table

variable {s t : State} {mess : Message}

/-- What was told is what was queued. -/
theorem Tells.eq_of_queue {messages : List Message} {packets : List OutPacket}
    (h : Tells s t messages) (queue : t.pQueue = s.pQueue ++ packets) :
    messages = packets.map OutPacket.message := by
  obtain ⟨packets', hqueue, hmessages, -⟩ := h.queue
  rw [← hmessages, List.append_cancel_left (hqueue.symm.trans queue)]

/-- The headers that are no news about a game. -/
theorem not_mem_gameHeaders {header : UInt32} {data : List Datum} {player : Option PlayerRef}
    (h : header ∈ [H_S_ACK, H_S_NACK, H_S_NACK_REAS, H_S_PL_LIST_ANS, H_S_JOIN_PLAYER,
      H_S_PL_LOSS]) : (Message.compose header data player).header ∉ gameHeaders := by
  rw [Sender.header_compose]
  simp only [List.mem_cons, List.not_mem_nil, or_false] at h
  rcases h with rfl | rfl | rfl | rfl | rfl | rfl <;> decide

/-- Only four commands lead to news about games. -/
theorem told_of_other
    (header : mess.header ∉ [H_C_PL_RECONN, H_C_ACCEPT_JOIN, H_C_GAME_MOVE, H_C_PL_LOGOUT]) :
    ∀ m ∈ told s mess, m.header ∉ gameHeaders := by
  have hnone : ∀ m ∈ ([] : List Message), m.header ∉ gameHeaders := by simp
  have hone : ∀ (header : UInt32) (data : List Datum) (player : Option PlayerRef),
      header ∈ [H_S_ACK, H_S_NACK, H_S_NACK_REAS, H_S_PL_LIST_ANS, H_S_JOIN_PLAYER,
        H_S_PL_LOSS] → ∀ m ∈ [Message.compose header data player], m.header ∉ gameHeaders := by
    intro header data player hheader m hm
    rw [List.mem_singleton.mp hm]
    exact not_mem_gameHeaders hheader
  simp only [List.mem_cons, List.not_mem_nil, or_false, not_or] at header
  cases hplayer : mess.player with
  | none => simp [told, hplayer]
  | some p =>
    simp only [told, hplayer, header, if_false]
    split_ifs
    · unfold toldOnRegistration
      split <;> exact hone _ _ _ (by decide)
    · exact hone _ _ _ (by decide)
    · unfold toldOnJoining
      split
      · exact hone _ _ _ (by decide)
      · split
        · intro m hm
          rcases List.mem_cons.mp hm with rfl | hm
          · exact not_mem_gameHeaders (by decide)
          · exact hone _ _ _ (by decide) m hm
        · exact hone _ _ _ (by decide)
    · unfold toldOnDecline
      split
      · exact hnone
      · split
        · exact hone _ _ _ (by decide)
        · exact hnone
    · unfold toldOnLoss
      split
      · exact hnone
      · dsimp only
        split
        · exact hnone
        · exact hone _ _ _ (by decide)
    · exact hnone

/-- A handover is told to two players, if the handler returns. -/
theorem toldOnHandover_ne_singleton {newP oldP : PlayerRef} {game : GameRef} {m : Message} :
    toldOnHandover s newP oldP game ≠ [m] := by
  unfold toldOnHandover
  dsimp only
  split <;> simp

/-- Nor does a refused reconnection: it is answered with one message. -/
theorem told_of_refused {p : PlayerRef} {answer : OutPacket} (header : mess.header = H_C_PL_RECONN)
    (sender : mess.player = some p) (tells : Tells s (s.pushOut answer) (told s mess)) :
    ∀ m ∈ told s mess, m.header ∉ gameHeaders := by
  have hqueue : (s.pushOut answer).pQueue = s.pQueue ++ [answer] := rfl
  have hone : told s mess = [answer.message] := tells.eq_of_queue hqueue
  have hnack : ∀ m ∈ [Message.compose H_S_NACK [] (some p)], m.header ∉ gameHeaders := by
    intro m hm
    rw [List.mem_singleton.mp hm]
    exact not_mem_gameHeaders (by decide)
  rw [told_reconnection header sender] at hone ⊢
  unfold toldOnReconnection at hone ⊢
  split at hone
  · exact hnack
  · split at hone
    · split at hone
      · exact absurd hone toldOnHandover_ne_singleton
      · cases hone
    · rename_i hpresent
      rw [if_neg hpresent]
      exact hnack

/-- Nor does the acceptance of a request that was withdrawn. -/
theorem told_of_gone {asking asked : PlayerRef} {answers : List OutPacket}
    (header : mess.header = H_C_ACCEPT_JOIN) (sender : mess.player = some asked)
    (askedBy : (s.player asked).askedForJoiningBy = some asking)
    (sent : ∀ answer ∈ answers, answer.For s asked) (queue : t.pQueue = s.pQueue ++ answers)
    (tells : Tells s t (told s mess)) : ∀ m ∈ told s mess, m.header ∉ gameHeaders := by
  have hanswers : told s mess = answers.map OutPacket.message := tells.eq_of_queue queue
  rw [told_accept header sender] at hanswers ⊢
  simp only [toldOnAccept, askedBy] at hanswers ⊢
  split_ifs at hanswers ⊢ with hwaiting hconnected
  · -- the start of a game is told to the asking player first
    have hmem : Message.compose H_S_GAME_START
        [.str (s.player asking).name, .str (s.player asked).name] (some asking)
          ∈ answers.map OutPacket.message := by
      rw [← hanswers]
      exact List.mem_cons_self
    obtain ⟨answer, hanswer, hmessage⟩ := List.mem_map.mp hmem
    have hplayer := (sent answer hanswer).1
    rw [hmessage, Sender.compose_eq] at hplayer
    exact absurd (Option.some.inj hplayer) hwaiting.1
  · intro m hm
    rw [List.mem_singleton.mp hm]
    exact not_mem_gameHeaders (by decide)
  · simp

/-- Both players hear that the game starts. -/
theorem told_of_started {asking asked : PlayerRef} (header : mess.header = H_C_ACCEPT_JOIN)
    (sender : mess.player = some asked)
    (askedBy : (s.player asked).askedForJoiningBy = some asking) (distinct : asking ≠ asked)
    (waiting : (s.player asking).joiningPlayer.isSome = true) :
    told s mess = [.compose H_S_GAME_START
        [.str (s.player asking).name, .str (s.player asked).name] (some asking),
      .compose H_S_GAME_START
        [.str (s.player asking).name, .str (s.player asking).name] (some asked)] := by
  rw [told_accept header sender]
  simp only [toldOnAccept, askedBy]
  rw [if_pos ⟨distinct, waiting⟩]

/-- Both players of a game that is handed over hear of it. -/
theorem told_of_reconnected {newP oldP oponent onTurn : PlayerRef} {game : GameRef}
    {name : ByteString} (header : mess.header = H_C_PL_RECONN)
    (sender : mess.player = some newP) (payload : payloadString mess 0 = .ok name)
    (found : Server.getPlayerByName s name = some oldP) (lost : (s.player oldP).lost = true)
    (playing : GameManager.getGameByPlayer (takeOverName s newP oldP) oldP = some game)
    (turn : ((handedOver s newP oldP game).game game).playerOnTurn = some onTurn)
    (against : GameManager.getPlayersOponent (handedOver s newP oldP game) newP = some oponent) :
    told s mess = [.compose H_S_GAME_CON
        [.str ((handedOver s newP oldP game).player onTurn).name,
          .str ((handedOver s newP oldP game).player oponent).name,
          .str ((handedOver s newP oldP game).game game).getGameString] (some newP),
      .compose H_S_GAME_CON
        [.str ((handedOver s newP oldP game).player onTurn).name,
          .str ((handedOver s newP oldP game).player newP).name,
          .str ((handedOver s newP oldP game).game game).getGameString] (some oponent)] := by
  rw [told_reconnection header sender, Message.firstName_getD payload]
  simp only [toldOnReconnection, found, lost, if_true, playing, toldOnHandover, turn, against]

end Table

/-! ## The views after a command -/

section Handled

variable {s : State} {mess : Message} (views : Views)

/-- Headers other than these four leave all views as they are. -/
theorem handle_of_other
    (header : mess.header ∉ [H_C_PL_RECONN, H_C_ACCEPT_JOIN, H_C_GAME_MOVE, H_C_PL_LOGOUT]) :
    Views.handle s mess views = views := by
  rw [Views.handle, Views.foldl_tell_of_other (told_of_other header), Views.say_of_other]
  · exact fun heq => header (by simp [heq])
  · exact fun heq => header (by simp [heq])

/-- Commands without a case leave the views as they are. -/
theorem handle_of_ignored (header : mess.header ∉ handledHeaders) :
    Views.handle s mess views = views := by
  have hknown : [H_C_PL_RECONN, H_C_ACCEPT_JOIN, H_C_GAME_MOVE, H_C_PL_LOGOUT]
      ⊆ handledHeaders := by
    simp [handledHeaders]
  exact handle_of_other views fun hmem => header (hknown hmem)

/-- A command that is only answered leaves the views as they are. -/
theorem handle_of_answered {p : PlayerRef} {answer : OutPacket}
    (header : mess.header ∈ [H_C_NEW_PL, H_C_PL_RECONN, H_C_PL_LIST_REQ, H_C_JOIN_PLAYER])
    (sender : mess.player = some p) (tells : Tells s (s.pushOut answer) (told s mess)) :
    Views.handle s mess views = views := by
  by_cases hreconn : mess.header = H_C_PL_RECONN
  · rw [Views.handle, Views.foldl_tell_of_other (told_of_refused hreconn sender tells),
      Views.say_of_other (by rw [hreconn]; decide) (by rw [hreconn]; decide)]
  · refine handle_of_other views ?_
    simp only [List.mem_cons, List.not_mem_nil, or_false] at header
    rcases header with heq | heq | heq | heq <;> rw [heq] at hreconn ⊢
    · decide
    · exact absurd rfl hreconn
    · decide
    · decide

/-- Accepting a request that was withdrawn leaves the views as they are. -/
theorem handle_of_gone {t : State} {asking asked : PlayerRef} {answers : List OutPacket}
    (header : mess.header = H_C_ACCEPT_JOIN) (sender : mess.player = some asked)
    (askedBy : (s.player asked).askedForJoiningBy = some asking)
    (sent : ∀ answer ∈ answers, answer.For s asked) (queue : t.pQueue = s.pQueue ++ answers)
    (tells : Tells s t (told s mess)) : Views.handle s mess views = views := by
  rw [Views.handle,
    Views.foldl_tell_of_other (told_of_gone header sender askedBy sent queue tells),
    Views.say_of_other (by rw [header]; decide) (by rw [header]; decide)]

theorem handle_reconnected {newP oldP oponent onTurn : PlayerRef} {game : GameRef}
    {name : ByteString} (header : mess.header = H_C_PL_RECONN)
    (sender : mess.player = some newP) (payload : payloadString mess 0 = .ok name)
    (found : Server.getPlayerByName s name = some oldP) (lost : (s.player oldP).lost = true)
    (playing : GameManager.getGameByPlayer (takeOverName s newP oldP) oldP = some game)
    (turn : ((handedOver s newP oldP game).game game).playerOnTurn = some onTurn)
    (against : GameManager.getPlayersOponent (handedOver s newP oldP game) newP = some oponent)
    (distinct : oponent ≠ newP) :
    Views.Become views (Views.handle s mess views) newP oponent
      (.playing (View.boardOf ((handedOver s newP oldP game).game game).getGameString)
        (((handedOver s newP oldP game).player onTurn).name !=
          ((handedOver s newP oldP game).player oponent).name))
      (.playing (View.boardOf ((handedOver s newP oldP game).game game).getGameString)
        (((handedOver s newP oldP game).player onTurn).name !=
          ((handedOver s newP oldP game).player newP).name)) := by
  rw [Views.handle, told_of_reconnected header sender payload found lost playing turn against,
    Views.say_of_other (by rw [header]; decide) (by rw [header]; decide)]
  exact Views.become_of_two distinct (by rw [Sender.compose_eq]) (by rw [Sender.compose_eq])
    View.hear_con View.hear_con

theorem handle_started {asking asked : PlayerRef} (header : mess.header = H_C_ACCEPT_JOIN)
    (sender : mess.player = some asked)
    (askedBy : (s.player asked).askedForJoiningBy = some asking) (distinct : asking ≠ asked)
    (waiting : (s.player asking).joiningPlayer.isSome = true) :
    Views.Become views (Views.handle s mess views) asking asked
      (.playing Board.empty ((s.player asking).name != (s.player asked).name))
      (.playing Board.empty ((s.player asking).name != (s.player asking).name)) := by
  rw [Views.handle, told_of_started header sender askedBy distinct waiting,
    Views.say_of_other (by rw [header]; decide) (by rw [header]; decide)]
  exact Views.become_of_two distinct.symm (by rw [Sender.compose_eq])
    (by rw [Sender.compose_eq]) View.hear_start View.hear_start

/-- A move that does not win. -/
theorem handle_passed {p oponent : PlayerRef} {game : GameRef} {m : Move}
    (header : mess.header = H_C_GAME_MOVE) (sender : mess.player = some p)
    (hm : mess.move = some m) (playing : GameManager.getGameByPlayer s p = some game)
    (against : oponent = GameManager.otherSeat s game p) (distinct : oponent ≠ p)
    (stays : isGameWon (m.boardIn s game) m.cell = false) :
    Views.Become views (Views.handle s mess views) p oponent ((views p).play m false)
      ((views oponent).play m true) := by
  have htold : told s mess = [.compose H_S_GAME_MOVE m.data (some oponent)] := by
    rw [told_move header sender hm]
    simp only [toldOnMove, playing]
    rw [if_neg (by rw [stays]; exact Bool.false_ne_true), against]
  rw [Views.handle, htold]
  exact Views.become_of_one distinct sender (by rw [Sender.compose_eq])
    (Views.say_move header hm sender) View.hear_move

/-- A move that wins. -/
theorem handle_won {p oponent : PlayerRef} {game : GameRef} {m : Move}
    (header : mess.header = H_C_GAME_MOVE) (sender : mess.player = some p)
    (hm : mess.move = some m) (playing : GameManager.getGameByPlayer s p = some game)
    (against : oponent = GameManager.otherSeat s game p) (distinct : oponent ≠ p)
    (closes : isGameWon (m.boardIn s game) m.cell = true) :
    Views.Become views (Views.handle s mess views) p oponent .free .free := by
  have htold : told s mess = [
      .compose H_S_GAME_WON (.str (s.player p).name :: m.data) (some p),
      .compose H_S_GAME_WON (.str (s.player p).name :: m.data) (some oponent)] := by
    rw [told_move header sender hm]
    simp only [toldOnMove, playing]
    rw [if_pos closes, against]
  rw [Views.handle, htold]
  refine Views.Become.of_say ?_ sender
  exact Views.become_of_two distinct (by rw [Sender.compose_eq]) (by rw [Sender.compose_eq])
    View.hear_won View.hear_won

/-- A player leaves its game. -/
theorem handle_ended {p oponent : PlayerRef} {game : GameRef}
    (header : mess.header = H_C_PL_LOGOUT) (sender : mess.player = some p)
    (inGame : (s.player p).inGame = true)
    (playing : GameManager.getGameByPlayer s p = some game)
    (against : oponent = GameManager.otherSeat s game p) (distinct : oponent ≠ p)
    (present : (s.player oponent).lost = false) :
    Views.Become views (Views.handle s mess views) p oponent .free .free := by
  have htold : told s mess = [.compose H_S_GAME_ENDED [] (some oponent)] := by
    rw [told_logout header sender]
    simp only [toldOnLogout, playing, ← against]
    rw [inGame, present]
    rfl
  rw [Views.handle, htold]
  exact Views.become_of_one distinct sender (by rw [Sender.compose_eq])
    (Views.say_logout header sender) View.hear_ended

/-- A player leaves and nobody is told. -/
theorem handle_left {p : PlayerRef} (header : mess.header = H_C_PL_LOGOUT)
    (sender : mess.player = some p)
    (alone : ∀ game, GameManager.getGameByPlayer s p = some game →
      (s.player p).inGame = true → (s.player (GameManager.otherSeat s game p)).lost = true) :
    Views.handle s mess views p = .free ∧
      ∀ q, q ≠ p → Views.handle s mess views q = views q := by
  have htold : told s mess = [] := by
    rw [told_logout header sender, toldOnLogout]
    split
    · rfl
    · rename_i game hgame
      refine if_neg fun h => ?_
      obtain ⟨hflag, hpresent⟩ := (Bool.and_eq_true_iff).mp h
      rw [alone game hgame hflag] at hpresent
      cases hpresent
  rw [Views.handle, htold]
  refine ⟨Views.say_logout header sender, fun q hq => Views.say_of_ne fun heq => ?_⟩
  exact hq (Option.some.inj (heq.symm.trans sender))

end Handled

end UpsServer
