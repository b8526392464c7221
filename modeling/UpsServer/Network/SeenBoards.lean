import UpsServer.Network.ClientViews

/-!
# The boards that clients see

What a client concludes from its own commands and from the messages it is sent is what the server
knows: whether it plays, and the board. The proof goes step by step through an orderly run; a step
changes the views of two clients at most, the two players of one game.
-/

namespace UpsServer

open Framework CommandManager

/-! ## Seats after a handover -/

/-- The state `u` after the handover: only the queue and the list have changed further. -/
structure HandsOver (s u : State) (newP oldP : PlayerRef) (game : GameRef)
    (players : List PlayerRef) : Prop where
  games : u.games = s.games
  object : ∀ g, u.game g = (handedOver s newP oldP game).game g
  player : ∀ p, u.player p = (handedOver s newP oldP game).player p
  players : u.players = players
  next : u.playerHeap.next = s.playerHeap.next

theorem handsOver (s : State) (newP oldP : PlayerRef) (game : GameRef) (first second : OutPacket)
    (players : List PlayerRef) :
    HandsOver s ((((handedOver s newP oldP game).pushOut first).pushOut second).withPlayers
      players) newP oldP game players where
  games := by
    rw [State.withPlayers_games, State.pushOut_games, State.pushOut_games, handedOver_games]
  object g := by rw [State.game_withPlayers, State.game_pushOut, State.game_pushOut]
  player p := by rw [State.player_withPlayers, State.player_pushOut, State.player_pushOut]
  players := rfl
  next := by simp [handedOver, takeOverName]

/-- The newcomer holds a seat of the game that is handed over. -/
theorem seats_handedOver {s : State} {newP oldP : PlayerRef} {game : GameRef} :
    ((handedOver s newP oldP game).game game).Seats newP := by
  rw [handedOver, takeOverSeat]
  split
  · exact Or.inl (by simp)
  · exact Or.inr (by simp)

/-- Whoever sat there besides the lost player still does. -/
theorem Tidy.seats_handedOver_of_ne {s : State} (h : Tidy s) (sound : Sound s)
    {newP oldP p : PlayerRef} {game : GameRef} (before : s.ListedBefore oldP newP)
    (free : (s.player newP).inGame = false)
    (playing : GameManager.getGameByPlayer (takeOverName s newP oldP) oldP = some game)
    (seat : (s.game game).Seats p) (hne : p ≠ oldP) :
    ((handedOver s newP oldP game).game game).Seats p := by
  obtain ⟨hold, -, -⟩ := listed_of_before sound before
  obtain ⟨hg, holdSeat⟩ := h.seats_of_takeOver sound before free playing
  rw [handedOver, takeOverSeat, name_takeOverName _ _ _ newP, if_pos rfl]
  -- the seat that is taken is the one of the shared name, which is the lost player's
  split
  · rename_i hfirst
    have hlost := h.eq_of_shared_name sound hold free hg (Or.inl rfl) hfirst
    have hsecond : (s.game game).p2 = p := seat.resolve_left fun heq => hne (heq ▸ hlost)
    exact Or.inr (by simpa using hsecond)
  · rename_i hsecond
    have hkept : (s.game game).p1 ≠ oldP := by
      intro heq
      rw [game_takeOverName, heq, name_takeOverName_oldP] at hsecond
      exact hsecond rfl
    have hlost := holdSeat.resolve_left hkept
    have hfirst : (s.game game).p1 = p := seat.resolve_right fun heq => hne (heq ▸ hlost)
    exact Or.inl (by simpa using hfirst)

/-- The look-ups read the games, their seats and the names. -/
theorem GameManager.getPlayersOponent_congr {s t : State} (games : t.games = s.games)
    (game : ∀ g, t.game g = s.game g) (player : ∀ p, t.player p = s.player p) (p : PlayerRef) :
    GameManager.getPlayersOponent t p = GameManager.getPlayersOponent s p := by
  have hseats : GameManager.seatsName t = GameManager.seatsName s := by
    funext name g
    rw [GameManager.seatsName, GameManager.seatsName, game, player, player]
  rw [GameManager.getPlayersOponent, GameManager.getPlayersOponent, GameManager.getGameByPlayer,
    GameManager.getGameByPlayer, hseats, games, player]
  split
  · rfl
  · rw [GameManager.otherSeat, GameManager.otherSeat, game, player, player]

/-- The opponent that the look-up by name finds sits on the other seat. -/
theorem Tidy.opponent_found {s : State} (h : Tidy s) (sound : Sound s) {p oponent : PlayerRef}
    {game : GameRef} (hg : game ∈ s.games) (seat : (s.game game).Seats p)
    (against : GameManager.getPlayersOponent s p = some oponent) :
    oponent ≠ p ∧ ∀ q, (s.game game).Seats q ↔ q = p ∨ q = oponent := by
  rw [GameManager.getPlayersOponent, h.lookup_of_seats sound.names hg seat] at against
  rw [← Option.some.inj against]
  exact h.otherSeat_of_seats sound.names hg seat

/-- After a handover the two seats are those of the newcomer and of the opponent that is told. -/
theorem Tidy.opponent_handedOver {s u : State} (h : Tidy s) (sound : Sound s)
    {newP oldP oponent : PlayerRef} {game : GameRef} {players : List PlayerRef}
    (handover : HandsOver s u newP oldP game players) (tidy' : Tidy u) (sound' : Sound u)
    (before : s.ListedBefore oldP newP) (free : (s.player newP).inGame = false)
    (playing : GameManager.getGameByPlayer (takeOverName s newP oldP) oldP = some game)
    (against : GameManager.getPlayersOponent (handedOver s newP oldP game) newP = some oponent) :
    oponent ≠ newP ∧ ∀ q, (u.game game).Seats q ↔ q = newP ∨ q = oponent := by
  obtain ⟨hg, -⟩ := h.seats_of_takeOver sound before free playing
  have hgames : u.games = (handedOver s newP oldP game).games := by
    rw [handover.games, handedOver_games]
  -- the messages and the erased entry change nothing about the look-ups
  rw [← GameManager.getPlayersOponent_congr hgames handover.object handover.player] at against
  refine tidy'.opponent_found sound' (handover.games ▸ hg) ?_ against
  rw [handover.object]
  exact seats_handedOver

/-! ## Views that fit the state -/

/-- What `p` sees is what the server has: the board of the game that seats it, or no game. -/
structure View.Fits (v : View) (s : State) (p : PlayerRef) : Prop where
  seated : ∀ g ∈ s.games, (s.game g).Seats p → v.Shows (s.game g).field
  free : p ∈ s.players → (s.player p).inGame = false → v = .free
  unmade : ¬ s.Made p → v = .free

namespace View.Fits

variable {s t : State} {v : View} {p : PlayerRef}

/-- Nothing that concerns `p` changes. -/
theorem keep (h : v.Fits s p)
    (seats : ∀ g ∈ t.games, (t.game g).Seats p →
      g ∈ s.games ∧ (s.game g).Seats p ∧ (t.game g).field = (s.game g).field)
    (listed : p ∈ t.players → p ∈ s.players ∨ ¬ s.Made p)
    (inGame : p ∈ s.players → (t.player p).inGame = false → (s.player p).inGame = false)
    (next : s.playerHeap.next ≤ t.playerHeap.next) : v.Fits t p := by
  refine ⟨fun g hg hseat => ?_, fun hp hfree => ?_, fun hunmade => ?_⟩
  · obtain ⟨hg', hseat', hfield⟩ := seats g hg hseat
    rw [hfield]
    exact h.seated g hg' hseat'
  · rcases listed hp with hlisted | hunmade
    · exact h.free hlisted (inGame hlisted hfree)
    · exact h.unmade hunmade
  · exact h.unmade fun hmade => hunmade (lt_of_lt_of_le hmade next)

/-- A player who sits in a game and sees its board. -/
theorem plays (tidy : Tidy t) (sound : Sound t) {g : GameRef} (hg : g ∈ t.games)
    (seat : (t.game g).Seats p) (shows_ : v.Shows (t.game g).field) : v.Fits t p := by
  have hlisted := tidy.seatsListed g hg p seat
  refine ⟨fun x hx hseat => ?_, fun _ hfree => ?_, fun hunmade => ?_⟩
  · rw [tidy.oneGame x hx g hg p hseat seat]
    exact shows_
  · rw [(tidy.flag p hlisted).mpr ⟨g, hg, seat⟩] at hfree
    cases hfree
  · exact absurd (sound.registry.playersAllocated p hlisted) hunmade

/-- A player who sees no game and is in none. -/
theorem idle (tidy : Tidy t) (inGame : p ∈ t.players → (t.player p).inGame = false) :
    View.free.Fits t p := by
  refine ⟨fun g hg hseat => ?_, fun _ _ => rfl, fun _ => rfl⟩
  have hlisted := tidy.seatsListed g hg p hseat
  have hfree := inGame hlisted
  rw [(tidy.flag p hlisted).mpr ⟨g, hg, hseat⟩] at hfree
  cases hfree

end View.Fits

/-- The views of all clients fit. -/
def Views.Fit (views : Views) (s : State) : Prop := ∀ p, (views p).Fits s p

namespace Views.Fit

variable {s t : State} {views : Views} {mess : Message}

/-- Boards and seats of registered games stay, and so do the flags of the players listed. -/
theorem keep (h : views.Fit s) (games : ∀ g ∈ t.games, g ∈ s.games)
    (p1 : ∀ g, (t.game g).p1 = (s.game g).p1) (p2 : ∀ g, (t.game g).p2 = (s.game g).p2)
    (field : ∀ g, (t.game g).field = (s.game g).field)
    (listed : ∀ p ∈ t.players, p ∈ s.players ∨ ¬ s.Made p)
    (inGame : ∀ p ∈ t.players, p ∈ s.players →
      (t.player p).inGame = false → (s.player p).inGame = false)
    (next : s.playerHeap.next ≤ t.playerHeap.next) : views.Fit t := by
  intro p
  have hseats : ∀ g ∈ t.games, (t.game g).Seats p →
      g ∈ s.games ∧ (s.game g).Seats p ∧ (t.game g).field = (s.game g).field := by
    intro g hg hseat
    rw [Game.Seats, p1, p2] at hseat
    exact ⟨games g hg, hseat, field g⟩
  refine ⟨fun g hg hseat => ?_, fun hlisted hfree => ?_, fun hunmade => ?_⟩
  · obtain ⟨hg', hseat', hfield⟩ := hseats g hg hseat
    rw [hfield]
    exact (h p).seated g hg' hseat'
  · rcases listed p hlisted with hold | hnew
    · exact (h p).free hold (inGame p hlisted hold hfree)
    · exact (h p).unmade hnew
  · exact (h p).unmade fun hmade => hunmade (lt_of_lt_of_le hmade next)

theorem sameWorld (h : views.Fit s) (same : SameWorld s t) : views.Fit t :=
  h.keep (fun g hg => same.games ▸ hg) (fun g => by rw [same.game]) (fun g => by rw [same.game])
    (fun g => by rw [same.game]) (fun p hp => Or.inl (same.players ▸ hp))
    (fun p _ _ hfree => by rwa [same.inGame] at hfree) (by rw [same.nextPlayer])

theorem addPlayer (h : views.Fit s) (sound : Sound s) (fd : Int) (nameSet : Bool) :
    views.Fit (Server.addPlayer s fd nameSet) := by
  refine h.keep (fun _ hg => hg) (fun _ => rfl) (fun _ => rfl) (fun _ => rfl) (fun p hp => ?_)
    (fun p _ hold hfree => ?_) (Nat.le_succ _)
  · rcases List.mem_append.mp hp with hold | hnew
    · exact Or.inl hold
    · rw [List.mem_singleton.mp hnew]
      exact Or.inr (lt_irrefl _)
  · -- the new object overwrites no listed player
    have hne : p ≠ s.playerHeap.next := Nat.ne_of_lt (sound.registry.playersAllocated p hold)
    rwa [Server.player_addPlayer, if_neg hne] at hfree

theorem disconnected {fd : Int} (h : views.Fit s) (closed : Disconnection s fd t) :
    views.Fit t := by
  cases closed with
  | left =>
    exact h.keep (fun _ hg => hg) (fun _ => rfl) (fun _ => rfl) (fun _ => rfl)
      (fun p hp => Or.inl (List.eraseP_sublist.subset hp)) (fun p _ _ hfree => by simpa using hfree)
      le_rfl
  | stays =>
    exact h.keep (fun _ hg => hg) (fun _ => rfl) (fun _ => rfl) (fun _ => rfl)
      (fun p hp => Or.inl hp) (fun p _ _ hfree => by simpa using hfree) le_rfl

/-- A step that concerns two players only. -/
theorem pair (h : views.Fit s) {views' : Views} {p oponent : PlayerRef}
    (first : (views' p).Fits t p) (second : (views' oponent).Fits t oponent)
    (views_ : ∀ q, q ≠ p → q ≠ oponent → views' q = views q)
    (seats : ∀ q, q ≠ p → q ≠ oponent → ∀ g ∈ t.games, (t.game g).Seats q →
      g ∈ s.games ∧ (s.game g).Seats q ∧ (t.game g).field = (s.game g).field)
    (listed : ∀ q ∈ t.players, q ∈ s.players)
    (inGame : ∀ q, q ≠ p → q ≠ oponent → (t.player q).inGame = (s.player q).inGame)
    (next : s.playerHeap.next ≤ t.playerHeap.next) : views'.Fit t := by
  intro q
  by_cases hp : q = p
  · rw [hp]
    exact first
  by_cases hoponent : q = oponent
  · rw [hoponent]
    exact second
  rw [views_ q hp hoponent]
  exact (h q).keep (seats q hp hoponent) (fun hq => Or.inl (listed q hq))
    (fun _ hfree => by rwa [inGame q hp hoponent] at hfree) next

/-! ### Handling a command -/

/-- A move, whether it wins or not. -/
theorem moved (h : views.Fit s) (tidy : Tidy s) (sound : Sound s) (tidy' : Tidy t)
    (sound' : Sound t) {p : PlayerRef} {game : GameRef} {m : Move}
    (header : mess.header = H_C_GAME_MOVE) (sender : mess.player = some p)
    (listed : p ∈ s.players) (hm : mess.move = some m)
    (playing : GameManager.getGameByPlayer s p = some game) (effect : MoveEffect s p game m t) :
    (Views.handle s mess views).Fit t := by
  obtain ⟨hg, hdistinct, hseats⟩ := tidy.lookup sound listed playing
  have hp : (s.game game).Seats p := (hseats p).mpr (Or.inl rfl)
  have hoponent := (hseats _).mpr (Or.inr rfl)
  -- whoever is neither of the two sits in another game, if in any
  have helse : ∀ q, q ≠ p → q ≠ GameManager.otherSeat s game p → ∀ g, (s.game g).Seats q →
      g ≠ game := by
    rintro q hqp hqo g hseat rfl
    exact ((hseats q).mp hseat).elim hqp hqo
  have hfield := effect.field
  have hother := fun g (hne : g ≠ game) => effect.game_of_ne hne
  cases effect with
  | won closes =>
    have hbecome := handle_won views header sender hm playing rfl hdistinct closes
    refine h.pair (hbecome.first ▸ .idle tidy' fun _ => by simp)
      (hbecome.second ▸ .idle tidy' fun _ => by simp) hbecome.others
      (fun q hqp hqo g hgames hseat => ?_) (fun q hq => hq) (fun q hqp hqo => ?_) le_rfl
    · have hseat' : (s.game g).Seats q := by simpa [Game.Seats, freeBoth] using hseat
      rw [hother g (helse q hqp hqo g hseat')]
      exact ⟨List.eraseP_sublist.subset hgames, hseat', rfl⟩
    · simp [hqp, hqo]
  | passed stays =>
    have hbecome := handle_passed views header sender hm playing rfl hdistinct stays
    have hshows : ∀ q onTurn, (s.game game).Seats q →
        ((views q).play m onTurn).Shows (m.boardIn s game) := fun q onTurn hq =>
      ((h q).seated game hg hq).play m onTurn
    refine h.pair ?_ ?_ hbecome.others (fun q hqp hqo g hgames hseat => ?_) (fun q hq => hq)
      (fun q hqp hqo => by simp) le_rfl
    · rw [hbecome.first]
      refine .plays tidy' sound' hg (by simpa [Game.Seats] using hp) ?_
      rw [hfield]
      exact hshows p _ hp
    · rw [hbecome.second]
      refine .plays tidy' sound' hg (by simpa [Game.Seats] using hoponent) ?_
      rw [hfield]
      exact hshows _ _ hoponent
    · have hseat' : (s.game g).Seats q := by simpa [Game.Seats] using hseat
      rw [hother g (helse q hqp hqo g hseat')]
      exact ⟨hgames, hseat', rfl⟩

/-- A seat is handed over. -/
theorem reconnected (h : views.Fit s) (tidy : Tidy s) (sound : Sound s) (tidy' : Tidy t)
    (sound' : Sound t) {newP oldP oponent : PlayerRef} {game : GameRef} {onTurn oponentTurn : Bool}
    {players : List PlayerRef} {views' : Views}
    (handover : HandsOver s t newP oldP game players) (before : s.ListedBefore oldP newP)
    (free : (s.player newP).inGame = false)
    (playing : GameManager.getGameByPlayer (takeOverName s newP oldP) oldP = some game)
    (erased : ErasesPlayer (handedOver s newP oldP game) oldP players)
    (seats : ∀ q, (t.game game).Seats q ↔ q = newP ∨ q = oponent)
    (become : views.Become views' newP oponent
      (.playing (View.boardOf (t.game game).getGameString) onTurn)
      (.playing (View.boardOf (t.game game).getGameString) oponentTurn)) : views'.Fit t := by
  obtain ⟨hg, -⟩ := tidy.seats_of_takeOver sound before free playing
  have hplayers := tidy.mem_erasedOld_iff sound before free playing erased
  have hgame : game ∈ t.games := handover.games ▸ hg
  have hshows : ∀ turn, (View.playing (View.boardOf (t.game game).getGameString) turn).Shows
      (t.game game).field := fun turn =>
    ⟨_, turn, rfl, fun c hc => View.boardOf_getGameString _ hc⟩
  refine h.pair ?_ ?_ become.others (fun q hqnew hqo g hgames hseat => ?_)
    (fun q hq => ((hplayers q).mp (handover.players ▸ hq)).1) (fun q hqnew _ => ?_) handover.next.ge
  · rw [become.first]
    exact .plays tidy' sound' hgame ((seats newP).mpr (Or.inl rfl)) (hshows _)
  · rw [become.second]
    exact .plays tidy' sound' hgame ((seats oponent).mpr (Or.inr rfl)) (hshows _)
  · -- the other games are as they were
    have hne : g ≠ game := by
      rintro rfl
      exact ((seats q).mp hseat).elim hqnew hqo
    rw [handover.object, game_handedOver_of_ne s newP oldP game g hne] at hseat ⊢
    exact ⟨handover.games ▸ hgames, hseat, rfl⟩
  · rw [handover.player, inGame_handedOver, if_neg hqnew]

/-- A game starts. -/
theorem started (h : views.Fit s) {asking asked : PlayerRef} {first second : OutPacket}
    {askingTurn askedTurn : Bool} {views' : Views}
    (tidy' : Tidy (((gameStarted s asking asked).pushOut first).pushOut second))
    (sound' : Sound (((gameStarted s asking asked).pushOut first).pushOut second))
    (become : views.Become views' asking asked (.playing Board.empty askingTurn)
      (.playing Board.empty askedTurn)) :
    views'.Fit (((gameStarted s asking asked).pushOut first).pushOut second) := by
  have hnew : s.gameHeap.next ∈ s.games ++ [s.gameHeap.next] := by simp
  have hempty : ∀ turn, (View.playing Board.empty turn).Shows
      ((gameStarted s asking asked).game s.gameHeap.next).field := fun turn => by
    rw [game_gameStarted, if_pos rfl]
    exact ⟨_, turn, rfl, fun _ _ => rfl⟩
  have hseats : ∀ q, ((gameStarted s asking asked).game s.gameHeap.next).Seats q →
      q = asking ∨ q = asked := fun q hseat => by
    rw [Game.Seats, p1_gameStarted, p2_gameStarted, if_pos rfl, if_pos rfl] at hseat
    exact hseat.imp Eq.symm Eq.symm
  refine h.pair ?_ ?_ become.others (fun q hqp hqo g hgames hseat => ?_) (fun q hq => hq)
    (fun q hqp hqo => ?_) le_rfl
  · rw [become.first]
    exact .plays tidy' sound' hnew (Or.inl (by simp)) (hempty _)
  · rw [become.second]
    exact .plays tidy' sound' hnew (Or.inr (by simp)) (hempty _)
  · have hne : g ≠ s.gameHeap.next := by
      rintro rfl
      exact (hseats q hseat).elim hqp hqo
    have hsame : (gameStarted s asking asked).game g = s.game g := by
      rw [game_gameStarted, if_neg hne]
    simp only [State.game_pushOut, hsame] at hseat ⊢
    exact ⟨(List.mem_append.mp hgames).resolve_right fun hmem =>
      hne (List.mem_singleton.mp hmem), hseat, trivial⟩
  · simp only [State.player_pushOut, inGame_gameStarted, hqp, hqo, or_self, if_false]

/-- A player leaves its game, and the other one is told. -/
theorem ended (h : views.Fit s) (tidy : Tidy s) (sound : Sound s) {p oponent : PlayerRef}
    {game : GameRef} {info : OutPacket}
    (tidy' : Tidy (((freeBoth s p oponent).pushOut info).withGames
      (s.games.eraseP (sameId s game))))
    (header : mess.header = H_C_PL_LOGOUT) (sender : mess.player = some p) (listed : p ∈ s.players)
    (inGame : (s.player p).inGame = true)
    (playing : GameManager.getGameByPlayer s p = some game)
    (against : oponent = GameManager.otherSeat s game p)
    (present : (s.player oponent).lost = false) :
    (Views.handle s mess views).Fit (((freeBoth s p oponent).pushOut info).withGames
      (s.games.eraseP (sameId s game))) := by
  obtain ⟨-, hdistinct, -⟩ := tidy.lookup sound listed playing
  rw [← against] at hdistinct
  have hbecome := handle_ended views header sender inGame playing against hdistinct present
  refine h.pair (hbecome.first ▸ .idle tidy' fun _ => by simp)
    (hbecome.second ▸ .idle tidy' fun _ => by simp) hbecome.others
    (fun q _ _ g hgames hseat => ?_) (fun q hq => hq) (fun q hqp hqo => by simp [hqp, hqo]) le_rfl
  exact ⟨List.eraseP_sublist.subset hgames, hseat, rfl⟩

/-- A player leaves its game or the server, and nobody is told. -/
theorem left (h : views.Fit s) (tidy' : Tidy t) {p : PlayerRef} {views' : Views}
    (own : views' p = .free) (others : ∀ q, q ≠ p → views' q = views q)
    (inGame : p ∈ t.players → (t.player p).inGame = false)
    (games : ∀ g ∈ t.games, g ∈ s.games) (game : ∀ g, t.game g = s.game g)
    (listed : ∀ q ∈ t.players, q ∈ s.players)
    (inGame' : ∀ q, q ≠ p → (t.player q).inGame = (s.player q).inGame)
    (next : t.playerHeap.next = s.playerHeap.next) : views'.Fit t := by
  intro q
  by_cases hq : q = p
  · rw [hq, own]
    exact .idle tidy' inGame
  · rw [others q hq]
    refine (h q).keep (fun g hg hseat => ?_) (fun hlisted => Or.inl (listed q hlisted))
      (fun _ hfree => by rwa [inGame' q hq] at hfree) (by rw [next])
    rw [game] at hseat ⊢
    exact ⟨games g hg, hseat, rfl⟩

/-- Handling a command keeps the views right. -/
theorem handled (h : views.Fit s) (tidy : Tidy s) (sound : Sound s) (tidy' : Tidy t)
    (sound' : Sound t) (fits : ∀ p ∈ mess.player, FitsSender s mess p)
    (lostSender : mess.header = INTERNAL_PL_LOST → ∀ p ∈ mess.player, p ∈ s.players)
    (exec : dispatch s mess = .ok t) : (Views.handle s mess views).Fit t := by
  have htells := dispatch_tells exec
  cases dispatch_effect exec with
  | ignored header =>
    rw [handle_of_ignored views header]
    exact h
  | @answered p answer header sender sent =>
    rw [handle_of_answered views header sender htells]
    exact h.keep (fun _ hg => hg) (fun _ => rfl) (fun _ => rfl) (fun _ => rfl)
      (fun _ hp => Or.inl hp) (fun _ _ _ hfree => hfree) le_rfl
  | named header =>
    rw [handle_of_other views (by rw [header]; decide)]
    exact h.keep (fun _ hg => hg) (fun _ => rfl) (fun _ => rfl) (fun _ => rfl)
      (fun _ hp => Or.inl hp) (fun p _ _ hfree => by simpa using hfree) le_rfl
  | asked header =>
    rw [handle_of_other views (by rw [header]; decide)]
    exact h.keep (fun _ hg => hg) (fun _ => rfl) (fun _ => rfl) (fun _ => rfl)
      (fun _ hp => Or.inl hp) (fun p _ _ hfree => by simpa using hfree) le_rfl
  | declined header =>
    rw [handle_of_other views (by rw [header]; decide)]
    exact h.keep (fun _ hg => hg) (fun _ => rfl) (fun _ => rfl) (fun _ => rfl)
      (fun _ hp => Or.inl hp) (fun p _ _ hfree => by simpa [clearRequest] using hfree) le_rfl
  | missed header =>
    rw [handle_of_other views (by rw [header]; decide)]
    exact h.keep (fun _ hg => hg) (fun _ => rfl) (fun _ => rfl) (fun _ => rfl)
      (fun _ hp => Or.inl hp) (fun p _ _ hfree => by simpa using hfree) le_rfl
  | @gone asking asked answers header sender askedBy sent =>
    rw [handle_of_gone views header sender askedBy sent rfl htells]
    exact h.keep (fun _ hg => hg) (fun _ => rfl) (fun _ => rfl) (fun _ => rfl)
      (fun _ hp => Or.inl hp) (fun p _ _ hfree => by simpa [clearRequest] using hfree) le_rfl
  | moved header sender | won header sender =>
    rw [dispatch_move header] at exec
    obtain ⟨q, game, m, hq, hplaying, hm, -, heffect⟩ := processGameMove_moveEffect exec
    exact h.moved tidy sound tidy' sound' header hq ((fits q hq).move header) hm hplaying heffect
  | @reconnected newP oldP oponent onTurn game name first second players header sender payload
      found lost playing turn against _ _ erased =>
    obtain ⟨before, hfree⟩ := (fits newP sender).reconnect header name
      (payloadString_eq_ok_iff.mp payload) oldP found lost
    have hover := handsOver s newP oldP game first second players
    obtain ⟨hdistinct, hseats⟩ := tidy.opponent_handedOver sound hover tidy' sound' before hfree
      playing against
    have hbecome := handle_reconnected views header sender payload found lost playing turn against
      hdistinct
    rw [← hover.object] at hbecome
    exact h.reconnected tidy sound tidy' sound' hover before hfree playing erased hseats hbecome
  | @started asking asked first second header sender askedBy distinct waiting =>
    exact h.started tidy' sound' (handle_started views header sender askedBy distinct waiting)
  | @ended p oponent game info header sender inGame playing against present =>
    exact h.ended tidy sound tidy' header sender ((fits p sender).logout header inGame) inGame
      playing against present
  | @endedLost p oponent game players header sender inGame playing against absent erased =>
    have halone : ∀ game', GameManager.getGameByPlayer s p = some game' →
        (s.player p).inGame = true →
          (s.player (GameManager.otherSeat s game' p)).lost = true := by
      intro game' hgame' _
      obtain rfl : game = game' := Option.some.inj (playing.symm.trans hgame')
      rw [← against]
      exact absent
    obtain ⟨hown, hothers⟩ := handle_left views header sender halone
    exact h.left tidy' hown hothers (fun _ => by simp)
      (fun g hg => List.eraseP_sublist.subset hg) (fun _ => rfl)
      (fun q hq => erased.sublist.subset hq) (fun q hq => by simp [hq]) rfl
  | @disconnected p _ header sender free closed =>
    obtain ⟨hown, hothers⟩ := handle_left views header sender fun game _ hflag => by
      rw [free] at hflag
      cases hflag
    have hflags : ∀ q, (t.player q).inGame = (s.player q).inGame := by
      cases closed <;> simp
    cases closed with
    | left =>
      exact h.left tidy' hown hothers (fun _ => (hflags p).trans free) (fun _ hg => hg)
        (fun _ => rfl) (fun q hq => List.eraseP_sublist.subset hq) (fun q _ => hflags q) rfl
    | stays =>
      exact h.left tidy' hown hothers (fun _ => (hflags p).trans free) (fun _ hg => hg)
        (fun _ => rfl) (fun q hq => hq) (fun q _ => hflags q) rfl
  | @bothLost p oponent game players players' header sender playing against absent erased
      erased' =>
    rw [handle_of_other views (by rw [header]; decide)]
    have hp := lostSender header p sender
    obtain ⟨-, -, hseats⟩ := tidy.lookup sound hp playing
    rw [← against] at hseats
    have hplayers := tidy.mem_erasedBoth_iff sound hp playing against erased erased'
    refine h.keep (fun g hg => List.eraseP_sublist.subset hg) (fun _ => rfl) (fun _ => rfl)
      (fun _ => rfl) (fun q hq => Or.inl ((hplayers q).mp hq).1) (fun q hq _ hfree => ?_) le_rfl
    -- whoever stays in the list is neither of the two
    have hnone := ((hplayers q).mp hq).2
    rw [hseats, not_or] at hnone
    simpa [hnone] using hfree

end Views.Fit

/-! ## Every orderly run -/

/-- The server and the views of its clients. -/
abbrev System.watched : Machine (State × Views) Action Fault :=
  System.machine.recorded (fun _ => .free) Views.watch

instance (y : State × Views) (a : Action) : Decidable (System.watched.Enabled y a) :=
  inferInstanceAs (Decidable (System.Enabled y.1 a))

/-- The state and the views after a list of steps that are all orderly. -/
abbrev System.afterWatched (as : List Action) : State × Views :=
  System.watched.after (fun y => Orderly y.1) as

theorem Views.watch_of_ne {s : State} {a : Action} {views : Views} (h : a ≠ .runCommand) :
    Views.watch s a views = views := by
  unfold Views.watch
  split
  · exact absurd rfl h
  · rfl

theorem Views.watch_runCommand {s : State} {command : Command} {rest : List Command}
    (queue : s.commandQueue = command :: rest) (views : Views) :
    Views.watch s .runCommand views
      = Views.handle (s.withCommands rest) command.message views := by
  simp only [Views.watch, queue]

/-- Every step of an orderly run keeps the views right. -/
theorem Views.Fit.exec {s t : State} {a : Action} {views : Views} (h : views.Fit s)
    (before : System.ReachableUnder Orderly s) (enabled : System.Enabled s a)
    (orderly : Orderly s a) (exec : System.exec s a = .ok t) : (Views.watch s a views).Fit t := by
  have hsound := sound_of_reachable before.reachable
  have hstep := exec_step (stageFromPacket_of_reachable before.reachable) enabled exec
  by_cases ha : a = .runCommand
  · subst ha
    obtain ⟨command, rest, hqueue⟩ := List.exists_cons_of_ne_nil enabled
    have htidy := tidy_of_orderly before
    have hafter : System.ReachableUnder Orderly t :=
      Machine.ReachableFrom.step (a := .runCommand) before enabled orderly exec
    rw [exec_runCommand hqueue] at exec
    rw [Views.watch_runCommand hqueue]
    have hpopped : views.Fit (s.withCommands rest) := h.sameWorld (sameWorld_withCommands s rest)
    exact hpopped.handled (htidy.pop hqueue) (hsound.pop hqueue) (tidy_of_orderly hafter)
      (sound_of_reachable hafter.reachable) (fits_of_orderly orderly hqueue)
      (fun hheader p hp => htidy.listed_of_internal hqueue hheader hp) exec
  · rw [Views.watch_of_ne ha]
    cases hstep with
    | quiet hquiet => exact h.sameWorld hquiet.toSameWorld
    | accepted => exact h.addPlayer hsound _ _
    | closed hquiet hclosed => exact (h.sameWorld hquiet.toSameWorld).disconnected hclosed
    | handled => exact absurd rfl ha

theorem views_fit {y : State × Views}
    (h : System.watched.ReachableUnder (fun y => Orderly y.1) y) : y.2.Fit y.1 := by
  refine Machine.ReachableFrom.invariant (I := fun y : State × Views => y.2.Fit y.1) h ?_ ?_
  · exact fun p => ⟨fun g hg => absurd hg List.not_mem_nil, fun _ _ => rfl, fun _ => rfl⟩
  intro y y' a hreach hfit henabled hguard hexec
  obtain ⟨hstep, hviews⟩ := Machine.exec_recorded_eq_ok hexec
  rw [hviews]
  exact hfit.exec (Machine.reachable_of_recorded hreach) henabled hguard hstep

/-- `A` moves. -/
def putOneCard : List Action := System.playTwo ++ System.makeMove 5 3 0 0

end UpsServer
