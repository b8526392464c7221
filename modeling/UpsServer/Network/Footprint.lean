import UpsServer.Network.Outbox

/-!
# Whom a step concerns

`concerned` names the players that a step looks up: the sender of the command, the player it
names, the one who asked, the two seats of the game that is found. A player whom no step of a run
concerns is left alone by the whole run, whatever the other clients send: its object, its games
and what it was told stay as they are.
-/

namespace UpsServer

open Framework CommandManager

/-! ## Whom a step looks up -/

/-- The seats of the game that is found for a player. -/
def seatsFor (s : State) (p : PlayerRef) : List PlayerRef :=
  match GameManager.getGameByPlayer s p with
  | none => []
  | some game => [(s.game game).p1, (s.game game).p2]

/-- A reconnection concerns both seats of the lost player's game and the opponent who is told. -/
def concernedByReconnection (s : State) (newP : PlayerRef) (name : ByteString) :
    List PlayerRef :=
  match Server.getPlayerByName s name with
  | none => []
  | some oldP =>
    match GameManager.getGameByPlayer (takeOverName s newP oldP) oldP with
    | none => []
    | some game =>
      [(s.game game).p1, (s.game game).p2] ++
        (GameManager.getPlayersOponent (handedOver s newP oldP game) newP).toList

/-- Whom a command concerns. -/
def concernedBy (s : State) (mess : Message) : List PlayerRef :=
  match mess.player with
  | none => []
  | some p =>
    p ::
      if mess.header = H_C_PL_RECONN then concernedByReconnection s p (mess.firstName.getD [])
      else if mess.header = H_C_JOIN_PLAYER then
        (Server.getPlayerByName s (mess.firstName.getD [])).toList
      else if mess.header = H_C_DECLIN_JOIN ∨ mess.header = H_C_ACCEPT_JOIN then
        (s.player p).askedForJoiningBy.toList
      else if mess.header = H_C_PL_LOGOUT then
        (Server.getPlayerBySocket s (s.player p).socket).toList ++ seatsFor s p
      else if mess.header = H_C_GAME_MOVE ∨ mess.header = INTERNAL_PL_LOST then seatsFor s p
      else []

section Cases

variable {s : State} {mess : Message} {p : PlayerRef}

theorem concernedBy_reconnection (header : mess.header = H_C_PL_RECONN)
    (sender : mess.player = some p) :
    concernedBy s mess = p :: concernedByReconnection s p (mess.firstName.getD []) := by
  simp [concernedBy, sender, header]

theorem concernedBy_join (header : mess.header = H_C_JOIN_PLAYER)
    (sender : mess.player = some p) :
    concernedBy s mess = p :: (Server.getPlayerByName s (mess.firstName.getD [])).toList := by
  simp [concernedBy, sender, header, H_C_PL_RECONN, H_C_JOIN_PLAYER]

theorem concernedBy_answer (header : mess.header = H_C_DECLIN_JOIN ∨ mess.header = H_C_ACCEPT_JOIN)
    (sender : mess.player = some p) :
    concernedBy s mess = p :: (s.player p).askedForJoiningBy.toList := by
  rcases header with header | header <;>
    simp [concernedBy, sender, header, H_C_PL_RECONN, H_C_JOIN_PLAYER, H_C_DECLIN_JOIN,
      H_C_ACCEPT_JOIN]

theorem concernedBy_logout (header : mess.header = H_C_PL_LOGOUT)
    (sender : mess.player = some p) :
    concernedBy s mess
      = p :: ((Server.getPlayerBySocket s (s.player p).socket).toList ++ seatsFor s p) := by
  simp [concernedBy, sender, header, H_C_PL_RECONN, H_C_JOIN_PLAYER, H_C_DECLIN_JOIN,
    H_C_ACCEPT_JOIN, H_C_PL_LOGOUT]

theorem concernedBy_game (header : mess.header = H_C_GAME_MOVE ∨ mess.header = INTERNAL_PL_LOST)
    (sender : mess.player = some p) : concernedBy s mess = p :: seatsFor s p := by
  rcases header with header | header <;>
    simp [concernedBy, sender, header, H_C_PL_RECONN, H_C_JOIN_PLAYER, H_C_DECLIN_JOIN,
      H_C_ACCEPT_JOIN, H_C_PL_LOGOUT, H_C_GAME_MOVE, INTERNAL_PL_LOST]

end Cases

/-- Whom a step concerns. -/
def concerned (s : State) : Action → List PlayerRef
  | .accept _ _ => [s.playerHeap.next]
  | .peerClosed fd => (Server.getPlayerBySocket s fd).toList
  | .resolvePacket =>
    match s.packetStage with
    | .popped packet => (Server.getPlayerBySocket s packet.socket).toList
    | _ => []
  | .runCommand =>
    match s.commandQueue with
    | [] => []
    | command :: rest => concernedBy (s.withCommands rest) command.message
  | _ => []

/-- The step does not concern the player. -/
def PassesBy (q : PlayerRef) (s : State) (a : Action) : Prop := q ∉ concerned s a

instance (q : PlayerRef) (s : State) (a : Action) : Decidable (PassesBy q s a) :=
  inferInstanceAs (Decidable (q ∉ concerned s a))

/-! ## What is left alone -/

/-- The player's object is the same, and it sits at the same registered games, which are the same
    as well. -/
structure Untouched (q : PlayerRef) (s t : State) : Prop where
  player : t.player q = s.player q
  seat : ∀ g, (g ∈ t.games ∧ (t.game g).Seats q) ↔ (g ∈ s.games ∧ (s.game g).Seats q)
  game : ∀ g ∈ s.games, (s.game g).Seats q → t.game g = s.game g

namespace Untouched

variable {q p : PlayerRef} {s t u : State} {g : GameRef}

theorem refl (q : PlayerRef) (s : State) : Untouched q s s :=
  ⟨rfl, fun _ => Iff.rfl, fun _ _ _ => rfl⟩

theorem trans (h : Untouched q s t) (h' : Untouched q t u) : Untouched q s u where
  player := h'.player.trans h.player
  seat g := (h'.seat g).trans (h.seat g)
  game g hg hseat := by
    obtain ⟨hg', hseat'⟩ := (h.seat g).mpr ⟨hg, hseat⟩
    exact (h'.game g hg' hseat').trans (h.game g hg hseat)

/-- Nothing but queues, logs, lists of players and connections differs. -/
theorem other (h : Untouched q s t) (players : u.playerHeap = t.playerHeap)
    (gameHeap : u.gameHeap = t.gameHeap) (games : u.games = t.games) : Untouched q s u := by
  have hgame : ∀ g, u.game g = t.game g := fun g => by rw [State.game, gameHeap]; rfl
  refine h.trans ⟨by rw [State.player, players]; rfl, fun g => ?_, fun g _ _ => hgame g⟩
  rw [games, hgame]

theorem modifyPlayer (h : Untouched q s t) (ne : q ≠ p) (f : Player → Player) :
    Untouched q s (t.modifyPlayer p f) :=
  h.trans ⟨State.player_modifyPlayer_of_ne t f ne, fun _ => Iff.rfl, fun _ _ _ => rfl⟩

theorem pushOut (h : Untouched q s t) (packet : OutPacket) : Untouched q s (t.pushOut packet) :=
  h.other rfl rfl rfl

/-- A game changes at which the player does not sit, neither before nor afterwards. -/
theorem modifyGame (h : Untouched q s t) (f : Game → Game) (before : ¬ (t.game g).Seats q)
    (after : ¬ (f (t.game g)).Seats q) : Untouched q s (t.modifyGame g f) := by
  have hother : ∀ x, (t.game x).Seats q → (t.modifyGame g f).game x = t.game x := by
    intro x hx
    exact State.game_modifyGame_of_ne t f fun heq => before (heq ▸ hx)
  refine h.trans ⟨rfl, fun x => ?_, fun x _ hx => hother x hx⟩
  by_cases heq : x = g
  · subst heq
    rw [State.game_modifyGame_self]
    exact ⟨fun hx => absurd hx.2 after, fun hx => absurd hx.2 before⟩
  · rw [State.game_modifyGame_of_ne t f heq]
    exact Iff.rfl

/-- A game is registered that does not seat the player. -/
theorem addGame (h : Untouched q s t) (allocated : ∀ x ∈ t.games, x < t.gameHeap.next)
    {p1 p2 : PlayerRef} (ne : q ≠ p1) (ne' : q ≠ p2) :
    Untouched q s (GameManager.addGame t p1 p2) := by
  have hold : ∀ x ∈ t.games, (GameManager.addGame t p1 p2).game x = t.game x := by
    intro x hx
    rw [GameManager.game_addGame, if_neg (Nat.ne_of_lt (allocated x hx))]
  refine h.trans ⟨rfl, fun x => ?_, fun x hx _ => hold x hx⟩
  constructor
  · rintro ⟨hx, hseat⟩
    rcases List.mem_append.mp hx with hx | hx
    · exact ⟨hx, hold x hx ▸ hseat⟩
    · -- the new game seats the other two
      rw [List.mem_singleton.mp hx, GameManager.game_addGame, if_pos rfl] at hseat
      rcases hseat with heq | heq
      · exact absurd heq.symm ne
      · exact absurd heq.symm ne'
  · rintro ⟨hx, hseat⟩
    exact ⟨List.mem_append_left _ hx, by rw [hold x hx]; exact hseat⟩

/-- A registered game is deleted that does not seat the player. -/
theorem deleteGame (h : Untouched q s t) (hreg : Registry s) (games : t.games = s.games)
    (registered : g ∈ s.games) (away : ¬ (t.game g).Seats q) :
    Untouched q s (t.withGames (s.games.eraseP (sameId s g))) := by
  refine h.trans ⟨rfl, fun x => ?_, fun _ _ _ => rfl⟩
  show (x ∈ s.games.eraseP (sameId s g) ∧ (t.game x).Seats q) ↔ _
  rw [hreg.mem_deleted_iff registered, games]
  constructor
  · rintro ⟨⟨hx, _⟩, hseat⟩
    exact ⟨hx, hseat⟩
  · rintro ⟨hx, hseat⟩
    exact ⟨⟨hx, fun heq => away (heq ▸ hseat)⟩, hseat⟩

theorem of_disconnection {fd : Int} (closed : Disconnection s fd t)
    (away : q ∉ (Server.getPlayerBySocket s fd).toList) : Untouched q s t := by
  have hclosed : Untouched q s (s.closeSocket fd) := (refl q s).other rfl rfl rfl
  cases closed with
  | @left pl found =>
    have hne : q ≠ pl := fun heq => away (by simp [found, heq])
    exact (hclosed.modifyPlayer hne fun p => { p.removeSocket with joiningPlayer := none }).other
      rfl rfl rfl
  | @stays pl found =>
    have hne : q ≠ pl := fun heq => away (by simp [found, heq])
    exact (hclosed.modifyPlayer hne Player.removeSocket).other rfl rfl rfl

theorem freeBoth (h : Untouched q s t) {oponent : PlayerRef} (ne : q ≠ p) (ne' : q ≠ oponent) :
    Untouched q s (UpsServer.freeBoth t p oponent) :=
  (((h.modifyPlayer ne _).modifyPlayer ne' _).modifyPlayer ne _).modifyPlayer ne' _

theorem clearRequest (h : Untouched q s t) (ne : q ≠ p) :
    Untouched q s (CommandManager.clearRequest t p) :=
  h.modifyPlayer ne _

/-- A game of two others starts. -/
theorem gameStarted (hreg : Registry s) {asking asked : PlayerRef} (ne : q ≠ asking)
    (ne' : q ≠ asked) : Untouched q s (UpsServer.gameStarted s asking asked) := by
  have hfree := (((refl q s).clearRequest ne').modifyPlayer ne
    (Player.setAvailible false)).modifyPlayer ne' (Player.setAvailible false)
  have hstarted := ((hfree.addGame hreg.gamesAllocated ne ne').modifyPlayer ne
    (Player.setInGame true)).modifyPlayer ne' (Player.setInGame true)
  have hnew : (GameManager.addGame (((CommandManager.clearRequest s asked).modifyPlayer asking
      (Player.setAvailible false)).modifyPlayer asked (Player.setAvailible false)) asking
        asked).game s.gameHeap.next = Game.new s.maxGameId asking asked :=
    (GameManager.game_addGame _ _ _ _).trans (if_pos rfl)
  have hseat : ¬ (Game.new s.maxGameId asking asked).Seats q := by
    rintro (hq | hq)
    · exact ne hq.symm
    · exact ne' hq.symm
  exact hstarted.modifyGame (Game.setPlayerOnTurn asking) (fun h => hseat (hnew ▸ h))
    fun h => hseat (hnew ▸ h)

/-- A newcomer takes a seat at a game that seats neither it nor the player. -/
theorem handedOver {newP : PlayerRef} (ne : q ≠ newP) (oldP : PlayerRef)
    (away : ¬ (s.game g).Seats q) : Untouched q s (UpsServer.handedOver s newP oldP g) := by
  have hnamed : Untouched q s (takeOverName s newP oldP) :=
    (((refl q s).modifyPlayer ne _).modifyPlayer ne _).modifyPlayer ne _
  obtain ⟨f, hf, hseat⟩ := takeOverSeat_eq (takeOverName s newP oldP) newP g
  rw [UpsServer.handedOver, hf]
  apply hnamed.modifyGame f away
  rcases hseat with rfl | rfl
  · rintro (hp | hp)
    · exact ne hp.symm
    · exact away (Or.inr hp)
  · rintro (hp | hp)
    · exact away (Or.inl hp)
    · exact ne hp.symm

end Untouched

/-! ## Handling a command -/

section Commands

variable {q p : PlayerRef} {s t : State} {mess : Message} {g : GameRef}

/-- Whoever has no seat at the game that is found is neither of its players. -/
theorem away_of_seatsFor (playing : GameManager.getGameByPlayer s p = some g)
    (away : q ∉ seatsFor s p) : ¬ (s.game g).Seats q ∧ q ≠ GameManager.otherSeat s g p := by
  simp only [seatsFor, playing, List.mem_cons, List.not_mem_nil, or_false, not_or] at away
  obtain ⟨hp1, hp2⟩ := away
  refine ⟨fun hseat => hseat.elim (fun h => hp1 h.symm) fun h => hp2 h.symm, ?_⟩
  unfold GameManager.otherSeat
  split
  · exact hp2
  · exact hp1

/-- What is handled concerns its sender. -/
theorem ne_sender (sender : mess.player = some p) (away : q ∉ concernedBy s mess) : q ≠ p := by
  rintro rfl
  simp [concernedBy, sender] at away

/-- **The footprint of a command**: it leaves alone whom it does not concern. -/
theorem Effect.untouched (effect : Effect s mess t) (hreg : Registry s)
    (away : q ∉ concernedBy s mess) : Untouched q s t := by
  have hsame := Untouched.refl q s
  cases effect with
  | ignored => exact hsame
  | answered => exact hsame.other rfl rfl rfl
  | named header sender =>
    have hp := ne_sender sender away
    exact ((hsame.modifyPlayer hp _).modifyPlayer hp _).other rfl rfl rfl
  | @reconnected newP oldP oponent _ game _ _ _ _ header sender payload found _ playing =>
    have hnew := ne_sender sender away
    rw [concernedBy_reconnection header sender, Message.firstName_getD payload] at away
    have hseat : ¬ (s.game game).Seats q := by
      rintro (hp | hp) <;>
        exact away (List.mem_cons_of_mem _ (by simp [concernedByReconnection, found, playing, hp]))
    exact (Untouched.handedOver hnew oldP hseat).other rfl rfl rfl
  | @asked requesting oponent _ ack request header sender payload found =>
    have hrequesting := ne_sender sender away
    rw [concernedBy_join header sender, Message.firstName_getD payload, found] at away
    have hoponent : q ≠ oponent := fun heq => away (by simp [heq])
    have h₁ := (hsame.pushOut ack).modifyPlayer hrequesting (Player.setAvailible false)
    have h₂ := h₁.modifyPlayer hrequesting fun p => { p with joiningPlayer := some oponent }
    have h₃ := (h₂.pushOut request).modifyPlayer hoponent
      fun p => { p with askedForJoiningBy := some requesting }
    exact (h₃.modifyPlayer hrequesting _).modifyPlayer hoponent _
  | @started asking asked _ _ header sender askedBy =>
    have hasked := ne_sender sender away
    rw [concernedBy_answer (Or.inr header) sender, askedBy] at away
    have hasking : q ≠ asking := fun heq => away (by simp [heq])
    exact ((Untouched.gameStarted hreg hasking hasked).pushOut _).pushOut _
  | @gone asking asked answers header sender askedBy =>
    have hasked := ne_sender sender away
    rw [concernedBy_answer (Or.inr header) sender, askedBy] at away
    have hasking : q ≠ asking := fun heq => away (by simp [heq])
    have h₁ := ((hsame.clearRequest hasked).modifyPlayer hasking
      (Player.setAvailible false)).modifyPlayer hasked (Player.setAvailible false)
    exact h₁.other rfl rfl rfl
  | @declined asking asked answers header sender askedBy =>
    have hasked := ne_sender sender away
    rw [concernedBy_answer (Or.inl header) sender, askedBy] at away
    have hasking : q ≠ asking := fun heq => away (by simp [heq])
    have h₁ := ((hsame.clearRequest hasked).modifyPlayer hasking
      (Player.setAvailible true)).modifyPlayer hasked (Player.setAvailible true)
    exact h₁.other rfl rfl rfl
  | @moved p oponent game cell cardType info header sender playing against =>
    rw [concernedBy_game (Or.inl header) sender] at away
    obtain ⟨hseat, _⟩ := away_of_seatsFor playing fun h => away (List.mem_cons_of_mem _ h)
    have h₁ := hsame.modifyGame (Game.putCard cell cardType) hseat hseat
    have h₂ := h₁.modifyGame (g := game) (Game.setPlayerOnTurn oponent)
      (by rw [State.game_modifyGame_self]; exact hseat)
      (by rw [State.game_modifyGame_self]; exact hseat)
    exact h₂.other rfl rfl rfl
  | @won p oponent game cell cardType first second header sender playing against =>
    have hp := ne_sender sender away
    rw [concernedBy_game (Or.inl header) sender] at away
    obtain ⟨hseat, ho⟩ := away_of_seatsFor playing fun h => away (List.mem_cons_of_mem _ h)
    have h₁ := hsame.modifyGame (Game.putCard cell cardType) hseat hseat
    have h₂ := ((h₁.pushOut first).pushOut second).freeBoth hp (against ▸ ho)
    have hput : ¬ ((s.modifyGame game (Game.putCard cell cardType)).game game).Seats q := by
      rw [State.game_modifyGame_self]
      exact hseat
    exact h₂.deleteGame hreg rfl (GameManager.getGameByPlayer_eq_some playing).1 hput
  | @ended p oponent game info header sender _ playing against =>
    have hp := ne_sender sender away
    rw [concernedBy_logout header sender] at away
    obtain ⟨hseat, ho⟩ := away_of_seatsFor playing fun h =>
      away (List.mem_cons_of_mem _ (List.mem_append_right _ h))
    have h₁ := (hsame.freeBoth hp (against ▸ ho)).pushOut info
    exact h₁.deleteGame hreg rfl (GameManager.getGameByPlayer_eq_some playing).1 hseat
  | @endedLost p oponent game players header sender _ playing =>
    have hp := ne_sender sender away
    rw [concernedBy_logout header sender] at away
    obtain ⟨hseat, _⟩ := away_of_seatsFor playing fun h =>
      away (List.mem_cons_of_mem _ (List.mem_append_right _ h))
    have h₁ : Untouched q s (s.withPlayers players) := hsame.other rfl rfl rfl
    have h₂ := (h₁.modifyPlayer hp (Player.setAvailible true)).modifyPlayer hp
      (Player.setInGame false)
    exact h₂.deleteGame hreg rfl (GameManager.getGameByPlayer_eq_some playing).1 hseat
  | disconnected header sender free closed =>
    rw [concernedBy_logout header sender] at away
    exact .of_disconnection closed fun h => away (by simp [h])
  | @missed lost oponent game info header sender =>
    have hlost := ne_sender sender away
    exact (hsame.modifyPlayer hlost fun p => { p with lost := true }).other rfl rfl rfl
  | @bothLost lost oponent game players players' header sender playing against =>
    have hlost := ne_sender sender away
    rw [concernedBy_game (Or.inr header) sender] at away
    obtain ⟨hseat, ho⟩ := away_of_seatsFor playing fun h => away (List.mem_cons_of_mem _ h)
    have h₁ := hsame.modifyPlayer hlost fun p => { p with lost := true }
    have h₂ := h₁.deleteGame hreg rfl (GameManager.getGameByPlayer_eq_some playing).1 hseat
    have h₃ := (h₂.modifyPlayer (against ▸ ho) (Player.setInGame false)).modifyPlayer hlost
      (Player.setInGame false)
    exact h₃.other rfl rfl rfl

/-! ### What is told -/

/-- Every message in the list is for somebody in the other list. -/
def AddressedTo (players : List PlayerRef) (messages : List Message) : Prop :=
  ∀ m ∈ messages, ∀ q, m.player = some q → q ∈ players

theorem AddressedTo.nil (players : List PlayerRef) : AddressedTo players [] := by
  intro m hm
  cases hm

theorem AddressedTo.cons {players : List PlayerRef} {header : UInt32} {payload : List Datum}
    {messages : List Message} (mem : p ∈ players) (h : AddressedTo players messages) :
    AddressedTo players (.compose header payload (some p) :: messages) := by
  intro m hm q hq
  rcases List.mem_cons.mp hm with rfl | hm
  · obtain rfl : p = q := Option.some.inj hq
    exact mem
  · exact h m hm q hq

theorem otherSeat_mem_seatsFor (playing : GameManager.getGameByPlayer s p = some g) :
    GameManager.otherSeat s g p ∈ seatsFor s p := by
  simp only [seatsFor, playing]
  unfold GameManager.otherSeat
  split
  · exact List.mem_cons_of_mem _ List.mem_cons_self
  · exact List.mem_cons_self

theorem AddressedTo.mono {players players' : List PlayerRef} {messages : List Message}
    (h : AddressedTo players messages) (more : ∀ q ∈ players, q ∈ players') :
    AddressedTo players' messages :=
  fun m hm q hq => more q (h m hm q hq)

theorem addressedTo_handover (oldP : PlayerRef) (game : GameRef) :
    AddressedTo
      (p :: (GameManager.getPlayersOponent (handedOver s p oldP game) p).toList)
      (toldOnHandover s p oldP game) := by
  unfold toldOnHandover
  dsimp only
  cases ((handedOver s p oldP game).game game).playerOnTurn with
  | none => exact .nil _
  | some onTurn =>
    cases GameManager.getPlayersOponent (handedOver s p oldP game) p with
    | none => exact .nil _
    | some oponent =>
      have hoponent : oponent ∈ p :: (some oponent).toList := by simp
      exact .cons List.mem_cons_self (.cons hoponent (.nil _))

theorem addressedTo_reconnection (name : ByteString) :
    AddressedTo (p :: concernedByReconnection s p name) (toldOnReconnection s p name) := by
  unfold toldOnReconnection concernedByReconnection
  cases Server.getPlayerByName s name with
  | none => exact .cons List.mem_cons_self (.nil _)
  | some oldP =>
    dsimp only
    by_cases hlost : (s.player oldP).lost = true
    · rw [if_pos hlost]
      cases GameManager.getGameByPlayer (takeOverName s p oldP) oldP with
      | none => exact .nil _
      | some game =>
        refine (addressedTo_handover oldP game).mono fun q hq => ?_
        rcases List.mem_cons.mp hq with rfl | hq
        · exact List.mem_cons_self
        · exact List.mem_cons_of_mem _ (List.mem_append_right _ hq)
    · rw [if_neg hlost]
      exact .cons List.mem_cons_self (.nil _)

theorem addressedTo_joining (name : ByteString) :
    AddressedTo (p :: (Server.getPlayerByName s name).toList) (toldOnJoining s p name) := by
  unfold toldOnJoining
  cases hfound : Server.getPlayerByName s name with
  | none => exact .cons List.mem_cons_self (.nil _)
  | some oponent =>
    dsimp only
    split
    · exact .cons List.mem_cons_self (.cons (by simp) (.nil _))
    · exact .cons List.mem_cons_self (.nil _)

theorem addressedTo_decline :
    AddressedTo (p :: (s.player p).askedForJoiningBy.toList) (toldOnDecline s p) := by
  unfold toldOnDecline
  cases (s.player p).askedForJoiningBy with
  | none => exact .nil _
  | some asking =>
    dsimp only
    split
    · exact .cons (by simp) (.nil _)
    · exact .nil _

theorem addressedTo_accept :
    AddressedTo (p :: (s.player p).askedForJoiningBy.toList) (toldOnAccept s p) := by
  unfold toldOnAccept
  cases (s.player p).askedForJoiningBy with
  | none => exact .nil _
  | some asking =>
    dsimp only
    split
    · exact .cons (by simp) (.cons List.mem_cons_self (.nil _))
    · split
      · exact .cons List.mem_cons_self (.nil _)
      · exact .nil _

theorem addressedTo_move (m : Move) : AddressedTo (p :: seatsFor s p) (toldOnMove s p m) := by
  unfold toldOnMove
  cases hplaying : GameManager.getGameByPlayer s p with
  | none => exact .nil _
  | some game =>
    have hother := List.mem_cons_of_mem p (otherSeat_mem_seatsFor hplaying)
    dsimp only
    split
    · exact .cons List.mem_cons_self (.cons hother (.nil _))
    · exact .cons hother (.nil _)

theorem addressedTo_logout : AddressedTo (seatsFor s p) (toldOnLogout s p) := by
  unfold toldOnLogout
  cases hplaying : GameManager.getGameByPlayer s p with
  | none => exact .nil _
  | some game =>
    dsimp only
    split
    · exact .cons (otherSeat_mem_seatsFor hplaying) (.nil _)
    · exact .nil _

theorem addressedTo_loss : AddressedTo (seatsFor s p) (toldOnLoss s p) := by
  unfold toldOnLoss
  cases hplaying : GameManager.getGameByPlayer s p with
  | none => exact .nil _
  | some game =>
    dsimp only
    split
    · exact .nil _
    · exact .cons (otherSeat_mem_seatsFor hplaying) (.nil _)

/-- A command makes the server write to those only whom it concerns. -/
theorem addressedTo_told (s : State) (mess : Message) :
    AddressedTo (concernedBy s mess) (told s mess) := by
  unfold told
  cases hplayer : mess.player with
  | none => exact .nil _
  | some p =>
    dsimp only
    have hsender : p ∈ concernedBy s mess := by
      simp [concernedBy, hplayer]
    split_ifs with h₁ h₂ h₃ h₄ h₅ h₆ h₇ h₈ h₉
    · unfold toldOnRegistration
      split
      · exact .cons hsender (.nil _)
      · exact .cons hsender (.nil _)
    · rw [concernedBy_reconnection h₂ hplayer]
      exact addressedTo_reconnection _
    · exact .cons hsender (.nil _)
    · rw [concernedBy_logout h₄ hplayer]
      exact addressedTo_logout.mono fun q hq =>
        List.mem_cons_of_mem _ (List.mem_append_right _ hq)
    · rw [concernedBy_join h₅ hplayer]
      exact addressedTo_joining _
    · rw [concernedBy_answer (Or.inl h₆) hplayer]
      exact addressedTo_decline
    · rw [concernedBy_answer (Or.inr h₇) hplayer]
      exact addressedTo_accept
    · rw [concernedBy_game (Or.inl h₈) hplayer]
      cases mess.move with
      | none => exact .nil _
      | some m => exact addressedTo_move m
    · rw [concernedBy_game (Or.inr h₉) hplayer]
      exact addressedTo_loss.mono fun q hq => List.mem_cons_of_mem _ hq
    · exact .nil _

end Commands

/-! ## Every step and every run -/

section Steps

variable {q : PlayerRef} {s t : State}

/-- Counting an invalid packet changes nobody's socket. -/
theorem getPlayerBySocket_countOne (s : State) (p : PlayerRef) (fd : Int) :
    Server.getPlayerBySocket (countOne s p) fd = Server.getPlayerBySocket s fd := by
  unfold Server.getPlayerBySocket
  congr 1
  funext x
  simp [countOne, Player.hasSocket]

/-- An invalid packet concerns the player behind its descriptor. -/
theorem untouched_countInvalid {packet : Packet}
    (h : PacketManager.countInvalid s packet = .ok t)
    (away : q ∉ (Server.getPlayerBySocket s packet.socket).toList) : Untouched q s t := by
  unfold PacketManager.countInvalid at h
  cases hfound : Server.getPlayerBySocket s packet.socket with
  | none =>
    simp only [hfound] at h
    rw [← Except.ok.inj h]
    exact .refl q s
  | some p =>
    simp only [hfound] at h
    have hp : q ≠ p := fun heq => away (by simp [hfound, heq])
    have hcounted := (Untouched.refl q s).modifyPlayer hp
      fun x => { x with bullshitMessages := x.bullshitMessages + 1 }
    split at h
    · refine hcounted.trans (.of_disconnection (Server.disconnection_effect h) ?_)
      rw [← countOne, getPlayerBySocket_countOne]
      exact away
    · rw [← Except.ok.inj h]
      exact hcounted

/-- **The footprint of a step**: it leaves alone whom it does not concern. -/
theorem untouched_exec {a : Action} (hreg : Registry s) (enabled : System.Enabled s a)
    (exec : System.exec s a = .ok t) (leaves : PassesBy q s a) : Untouched q s t := by
  have hsame := Untouched.refl q s
  cases a with
  | accept fd nameSet =>
    simp only [System.exec, Server.acceptConnection] at exec
    split at exec
    · cases exec
    · obtain rfl := Except.ok.inj exec
      have hne : q ≠ s.playerHeap.next := fun heq => leaves (by simp [concerned, heq])
      refine ⟨?_, fun _ => Iff.rfl, fun _ _ _ => rfl⟩
      rw [Server.player_addPlayer, if_neg hne]
  | receive fd data =>
    obtain ⟨_, _, exec⟩ := bind_eq_ok_iff.mp exec
    obtain rfl := Except.ok.inj exec
    exact hsame.other rfl rfl rfl
  | peerClosed fd => exact .of_disconnection (Server.disconnection_effect exec) leaves
  | popPacket =>
    obtain rfl := Except.ok.inj exec
    unfold PacketManager.popPacket
    split <;> exact hsame.other rfl rfl rfl
  | resolvePacket =>
    simp only [System.exec] at exec
    cases hstage : s.packetStage with
    | idle | resolved =>
      simp only [hstage] at exec
      obtain rfl := Except.ok.inj exec
      exact hsame
    | popped packet =>
      simp only [hstage] at exec
      have haway : q ∉ (Server.getPlayerBySocket s packet.socket).toList := by
        simpa only [PassesBy, concerned, hstage] using leaves
      rcases resolvePacket_eq_ok exec with ⟨mess, _, rfl⟩ | ⟨_, hinvalid⟩
      · exact hsame.other rfl rfl rfl
      · have hidle : Untouched q s { s with packetStage := .idle } := hsame.other rfl rfl rfl
        exact hidle.trans (untouched_countInvalid hinvalid haway)
  | registerResolved =>
    simp only [System.exec] at exec
    split at exec <;> obtain rfl := Except.ok.inj exec <;> exact hsame.other rfl rfl rfl
  | runCommand =>
    obtain ⟨command, rest, hqueue⟩ := List.exists_cons_of_ne_nil enabled
    rw [exec_runCommand hqueue] at exec
    have haway : q ∉ concernedBy (s.withCommands rest) command.message := by
      simpa only [PassesBy, concerned, hqueue] using leaves
    have hpop : Untouched q s (s.withCommands rest) := hsame.other rfl rfl rfl
    have hreg' := hreg.same (sameWorld_withCommands s rest)
    exact hpop.trans ((dispatch_effect exec).untouched hreg' haway)
  | popOutgoing =>
    obtain rfl := Except.ok.inj exec
    unfold Sender.popOutgoing
    split <;> exact hsame.other rfl rfl rfl
  | sendOutgoing =>
    obtain rfl := Except.ok.inj exec
    unfold Sender.sendOutgoing
    split <;> exact hsame.other rfl rfl rfl

/-- What a player was told, in order, whether it is sent already or not. -/
def State.toldTo (s : State) (q : PlayerRef) : List Message :=
  (s.outbox.map OutPacket.message).filter fun m => m.player = some q

/-- A step writes to those only whom it concerns. -/
theorem toldTo_exec {a : Action} (enabled : System.Enabled s a) (exec : System.exec s a = .ok t)
    (leaves : PassesBy q s a) : t.toldTo q = s.toldTo q := by
  obtain ⟨packets, houtbox, hmessages, -⟩ := (appends_exec enabled exec).outbox
  have hnone : (toldBy s a).filter (fun m => m.player = some q) = [] := by
    rw [List.filter_eq_nil_iff]
    intro m hm hq
    cases a with
    | runCommand =>
      obtain ⟨command, rest, hqueue⟩ := List.exists_cons_of_ne_nil enabled
      simp only [toldBy, hqueue] at hm
      simp only [PassesBy, concerned, hqueue] at leaves
      exact leaves (addressedTo_told _ _ m hm q (of_decide_eq_true hq))
    | _ => cases hm
  rw [State.toldTo, State.toldTo, houtbox, List.map_append, List.filter_append, hmessages, hnone,
    List.append_nil]

end Steps

/-- **Noninterference**: as long as no step concerns a player, its object stays as it is, it sits
    at the same registered games, these stay as they are, and nothing is written to it. -/
theorem others_leave_alone (q : PlayerRef) (s t : State) (h : System.Reachable s)
    (run : System.machine.ReachableFrom (PassesBy q) s t) :
    Untouched q s t ∧ t.toldTo q = s.toldTo q := by
  have hreach : ∀ u, System.machine.ReachableFrom (PassesBy q) s u → System.Reachable u :=
    fun u hu => h.trans (hu.mono fun _ _ _ => trivial)
  refine run.invariant (I := fun u => Untouched q s u ∧ u.toldTo q = s.toldTo q)
    ⟨.refl q s, rfl⟩ ?_
  rintro u v a hu ⟨huntouched, htold⟩ henabled hleaves hexec
  have hreg := registry_of_reachable (hreach u hu)
  exact ⟨huntouched.trans (untouched_exec hreg henabled hexec hleaves),
    (toldTo_exec henabled hexec hleaves).trans htold⟩

/-- `A` asks `B` for a game, `B` accepts, and nothing of this concerns `C`. -/
def playWithoutThird : State :=
  System.machine.afterFrom (PassesBy 2) (System.after System.registerThree)
    (System.deliver 5 H_C_JOIN_PLAYER [.str [66]] ++ System.deliver 6 H_C_ACCEPT_JOIN [])

/-- A game has started, and `C` is as it was. -/
theorem others_leave_alone_playing :
    playWithoutThird.games = [0] ∧
      Untouched 2 (System.after System.registerThree) playWithoutThird ∧
      playWithoutThird.toldTo 2 = (System.after System.registerThree).toldTo 2 := by
  have hgames : playWithoutThird.games = [0] := by decide +kernel
  exact ⟨hgames, others_leave_alone 2 (System.after System.registerThree) playWithoutThird
    (System.reachable_after System.registerThree) (Machine.reachableFrom_afterFrom _ _)⟩

end UpsServer
