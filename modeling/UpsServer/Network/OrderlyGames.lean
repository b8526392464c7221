import UpsServer.Network.Tidy

/-!
# Games in orderly runs

Who is in which game, and which game a move or a logout touches. The handlers find the game of
their sender by name, so they touch no other game exactly when that name leads to the sender's own
game. Both properties fail in some run of the server, and both hold in every orderly one.
-/

namespace UpsServer

open Framework CommandManager

/-! ## Membership -/

/-- Every registered game seats two players, nobody sits in two games, and a listed player is
    flagged exactly when it sits in one. -/
def GameMembership (s : State) : Prop :=
  (∀ g ∈ s.games, (s.game g).p1 ≠ (s.game g).p2) ∧
    (∀ p, ∀ g ∈ s.games, ∀ h ∈ s.games, (s.game g).Seats p → (s.game h).Seats p → g = h) ∧
      ∀ p ∈ s.players, (s.player p).inGame = true ↔ s.Seated p

/-- **Game membership** holds in every orderly run. -/
theorem game_membership (s : State) (h : System.ReachableUnder Orderly s) : GameMembership s :=
  have htidy := tidy_of_orderly h
  ⟨htidy.seatsDistinct, fun p g hg g' hg' hp hp' => htidy.oneGame g hg g' hg' p hp hp',
    htidy.flag⟩

theorem game_membership_playing :
    (System.machine.after Orderly System.playTwo).games = [0] ∧
      GameMembership (System.machine.after Orderly System.playTwo) :=
  ⟨by decide +kernel, game_membership _ (Machine.reachableUnder_after _)⟩

/-- `A` asks `B` and `C`, and both accept. -/
def askTwice : List Action :=
  System.registerTwo ++ [.accept 7 false] ++ System.deliver 7 H_C_NEW_PL [.str [67]] ++
    System.deliver 5 H_C_JOIN_PLAYER [.str [66]] ++
    System.deliver 5 H_C_JOIN_PLAYER [.str [67]] ++
    System.deliver 6 H_C_ACCEPT_JOIN [] ++ System.deliver 7 H_C_ACCEPT_JOIN []

/-- In some run one player sits in two games. -/
theorem game_membership_fails : ¬ ∀ s, System.Reachable s → GameMembership s := by
  intro h
  -- `A` is player 0 and asked for both games
  have hone := (h _ (System.reachable_after askTwice)).2.1 0
  have hgames : (System.after askTwice).games = [0, 1] := by decide +kernel
  have hfirst : ((System.after askTwice).game 0).Seats 0 := by decide +kernel
  have hsecond : ((System.after askTwice).game 1).Seats 0 := by decide +kernel
  have heq := hone 0 (by simp [hgames]) 1 (by simp [hgames]) hfirst hsecond
  cases heq

/-! ## Isolation -/

/-- From `s` to `t` only one game changed, which seats `p` and is the one the look-ups by name
    find, and only its two players changed or were sent a message. -/
def Isolated (s t : State) (p : PlayerRef) : Prop :=
  ∃ g ∈ s.games, (s.game g).Seats p ∧
    GameManager.getGameByPlayer s p = some g ∧
    (GameManager.otherSeat s g p ≠ p ∧ (s.game g).Seats (GameManager.otherSeat s g p)) ∧
    (∀ x ≠ g, t.game x = s.game x ∧ (x ∈ t.games ↔ x ∈ s.games)) ∧
    (∀ q, ¬ (s.game g).Seats q → t.player q = s.player q) ∧
    ∃ sent, t.pQueue = s.pQueue ++ sent ∧
      ∀ packet ∈ sent, ∃ q, (s.game g).Seats q ∧ packet.For s q

/-- The name of `p` leads to its own game: the last registered game that seats anybody of this
    name seats `p` itself, and no first player of that name hides it there. A logout of a player
    whose flag is not set finds a connection to close, and it is one of this game. -/
def OwnGameFound (s : State) (mess : Message) (p : PlayerRef) : Prop :=
  ∃ before g after, s.games = before ++ g :: after ∧
    (((s.game g).p1 = p ∧ (s.game g).p2 ≠ p) ∨
      ((s.game g).p2 = p ∧ (s.player (s.game g).p1).name ≠ (s.player p).name)) ∧
    (∀ x ∈ after, ∀ q, (s.game x).Seats q → (s.player q).name ≠ (s.player p).name) ∧
    (mess.header = H_C_PL_LOGOUT → (s.player p).inGame = false →
      ∃ pl ∈ Server.getPlayerBySocket s (s.player p).socket, (s.game g).Seats pl)

section Lookups

variable {s : State} {p : PlayerRef} {g : GameRef}

theorem seatsName_eq_false_iff {name : ByteString} :
    GameManager.seatsName s name g = false ↔
      ∀ q, (s.game g).Seats q → (s.player q).name ≠ name := by
  simp only [GameManager.seatsName, Bool.or_eq_false_iff, beq_eq_false_iff_ne]
  constructor
  · rintro ⟨h1, h2⟩ q (rfl | rfl)
    · exact h1
    · exact h2
  · exact fun h => ⟨h _ (Or.inl rfl), h _ (Or.inr rfl)⟩

theorem seatsName_of_seats (hseat : (s.game g).Seats p) :
    GameManager.seatsName s (s.player p).name g = true := by
  by_contra hfalse
  exact seatsName_eq_false_iff.mp (Bool.eq_false_of_not_eq_true hfalse) p hseat rfl

/-- A game that seats the player is found when no later one has anybody of its name. -/
theorem getGameByPlayer_eq_some_iff_of_seats (hseat : (s.game g).Seats p) :
    GameManager.getGameByPlayer s p = some g ↔
      ∃ before after, s.games = before ++ g :: after ∧
        ∀ x ∈ after, ∀ q, (s.game x).Seats q → (s.player q).name ≠ (s.player p).name := by
  rw [GameManager.getGameByPlayer, lastMatch_eq_some_iff]
  simp only [seatsName_eq_false_iff, seatsName_of_seats hseat, true_and]

theorem seats_otherSeat : (s.game g).Seats (GameManager.otherSeat s g p) := by
  unfold GameManager.otherSeat
  split
  · exact Or.inr rfl
  · exact Or.inl rfl

/-- The opponent found is the other player unless the first seat has the sender's name. -/
theorem otherSeat_ne_iff (hseat : (s.game g).Seats p) :
    GameManager.otherSeat s g p ≠ p ↔
      ((s.game g).p1 = p ∧ (s.game g).p2 ≠ p) ∨
        ((s.game g).p2 = p ∧ (s.player (s.game g).p1).name ≠ (s.player p).name) := by
  unfold GameManager.otherSeat
  split
  · rename_i hname
    constructor
    · exact fun hne => Or.inl ⟨hseat.resolve_right hne, hne⟩
    · rintro (⟨-, hne⟩ | ⟨-, hother⟩)
      · exact hne
      · exact absurd hname hother
  · rename_i hname
    have hne : (s.game g).p1 ≠ p := fun heq => hname (by rw [heq])
    exact iff_of_true hne (Or.inr ⟨hseat.resolve_left hne, hname⟩)

end Lookups

/-- A lost connection changes its player, and nobody else. -/
theorem Disconnection.player_eq_iff {s t : State} {fd : Int} {pl : PlayerRef}
    (h : Disconnection s fd t) (found : Server.getPlayerBySocket s fd = some pl)
    (q : PlayerRef) : t.player q = s.player q ↔ q ≠ pl := by
  have hopen : (s.player pl).socketSet = true :=
    (Bool.and_eq_true_iff.mp (Server.getPlayerBySocket_eq_some found).2).1
  have hchanged : ∀ {f : Player → Player}, (∀ x, (f x).socketSet = false) →
      (((s.closeSocket fd).modifyPlayer pl f).player q = s.player q ↔ q ≠ pl) := by
    intro f hf
    constructor
    · rintro heq rfl
      -- the socket was set before and is not any more
      rw [State.player_modifyPlayer_self, State.player_closeSocket] at heq
      rw [← heq, hf] at hopen
      cases hopen
    · exact fun hne => State.player_modifyPlayer_of_ne _ _ hne
  cases h with
  | left found' =>
    obtain rfl := Option.some.inj (found'.symm.trans found)
    rw [State.player_withPlayers]
    exact hchanged fun _ => rfl
  | stays found' =>
    obtain rfl := Option.some.inj (found'.symm.trans found)
    rw [State.player_registerCommand]
    exact hchanged fun _ => rfl

section Sender

variable {s t : State} {p : PlayerRef} {mess : Message}

/-- A move or a logout whose look-ups end at the sender's own game concerns this game only. -/
theorem isolated_of_ownGameFound (hreg : Registry s) (sender : mess.player = some p)
    (kind : mess.header = H_C_GAME_MOVE ∨ mess.header = H_C_PL_LOGOUT)
    (effect : Effect s mess t) (own : OwnGameFound s mess p) : Isolated s t p := by
  obtain ⟨before, g, after, hsplit, hseats, hafter, hlogout⟩ := own
  have hg : g ∈ s.games := by simp [hsplit]
  have hseat : (s.game g).Seats p := hseats.imp And.left And.left
  have hlookup := (getGameByPlayer_eq_some_iff_of_seats hseat).mpr ⟨before, after, hsplit, hafter⟩
  have hother : (s.game g).Seats (GameManager.otherSeat s g p) := seats_otherSeat
  -- the look-ups of the handlers end at this game and at this sender
  have hgame : ∀ {game}, GameManager.getGameByPlayer s p = some game → game = g :=
    fun hfound => Option.some.inj (hfound.symm.trans hlookup)
  have hsender : ∀ {q}, mess.player = some q → q = p := fun hq =>
    Option.some.inj (hq.symm.trans sender)
  -- who does not sit in the game is neither the sender nor its opponent
  have helse : ∀ r, ¬ (s.game g).Seats r → r ≠ p ∧ r ≠ GameManager.otherSeat s g p :=
    fun r hr => ⟨fun heq => hr (heq ▸ hseat), fun heq => hr (heq ▸ hother)⟩
  refine ⟨g, hg, hseat, hlookup, ⟨(otherSeat_ne_iff hseat).mpr hseats, hother⟩, ?_⟩
  cases effect with
  | @moved q oponent game _ _ info _ hq playing against _ _ sent =>
    obtain rfl := hsender hq
    obtain rfl := hgame playing
    refine ⟨fun x hx => ⟨?_, Iff.rfl⟩, fun _ _ => rfl, [info], rfl, fun packet hpacket => ?_⟩
    · rw [State.game_pushOut, State.game_modifyGame_of_ne _ _ hx,
        State.game_modifyGame_of_ne _ _ hx]
    · rw [List.mem_singleton.mp hpacket]
      exact ⟨oponent, against ▸ hother, sent⟩
  | @won q oponent game _ _ first second _ hq playing against _ sentFirst sentSecond =>
    obtain rfl := hsender hq
    obtain rfl := hgame playing
    refine ⟨fun x hx => ⟨?_, ?_⟩, fun r hr => ?_, [first, second], ?_, fun packet hpacket => ?_⟩
    · rw [State.game_withGames, game_freeBoth, State.game_pushOut, State.game_pushOut,
        State.game_modifyGame_of_ne _ _ hx]
    · exact (hreg.mem_deleted_iff hg x).trans (and_iff_left hx)
    · rw [State.player_withGames, player_freeBoth_of_ne (helse r hr).1 (against ▸ (helse r hr).2)]
      rfl
    · simp [freeBoth]
    · rcases List.mem_pair.mp hpacket with rfl | rfl
      · exact ⟨q, hseat, sentFirst⟩
      · exact ⟨oponent, against ▸ hother, sentSecond⟩
  | @ended q oponent game info _ hq _ playing against _ sent =>
    obtain rfl := hsender hq
    obtain rfl := hgame playing
    refine ⟨fun x hx => ⟨rfl, ?_⟩, fun r hr => ?_, [info], rfl, fun packet hpacket => ?_⟩
    · exact (hreg.mem_deleted_iff hg x).trans (and_iff_left hx)
    · rw [State.player_withGames, State.player_pushOut,
        player_freeBoth_of_ne (helse r hr).1 (against ▸ (helse r hr).2)]
    · rw [List.mem_singleton.mp hpacket]
      exact ⟨oponent, against ▸ hother, sent⟩
  | @endedLost q oponent game players _ hq _ playing against _ erased =>
    obtain rfl := hsender hq
    obtain rfl := hgame playing
    -- nobody is told anything
    refine ⟨fun x hx => ⟨rfl, ?_⟩, fun r hr => ?_, [], by simp, by simp⟩
    · exact (hreg.mem_deleted_iff hg x).trans (and_iff_left hx)
    · rw [State.player_withGames, State.player_modifyPlayer_of_ne _ _ (helse r hr).1,
        State.player_modifyPlayer_of_ne _ _ (helse r hr).1, State.player_withPlayers]
  | @disconnected q _ header hq free closed =>
    obtain rfl := hsender hq
    -- the connection that is closed belongs to a player of the game
    have hplayers : ∀ {pl}, Server.getPlayerBySocket s (s.player q).socket = some pl →
        ∀ r, ¬ (s.game g).Seats r → t.player r = s.player r := fun {pl} found r hr => by
      obtain ⟨pl', found', hseat'⟩ := hlogout header free
      obtain rfl := Option.some.inj (found'.symm.trans found)
      exact (closed.player_eq_iff found r).mpr fun heq => hr (heq ▸ hseat')
    cases closed with
    | left found | stays found =>
      exact ⟨fun _ _ => ⟨rfl, Iff.rfl⟩, hplayers found, [], by simp, by simp⟩
  -- the other effects belong to other headers
  | ignored header =>
    rcases kind with kind | kind <;> rw [kind] at header <;> exact absurd (by decide) header
  | answered header =>
    rcases kind with kind | kind <;> rw [kind] at header <;> exact absurd header (by decide)
  | named header | reconnected header | asked header | started header | gone header
  | declined header | missed header | bothLost header =>
    rcases kind with kind | kind <;> rw [kind] at header <;> exact absurd header (by decide)

/-- An isolated move or logout found the sender's own game. -/
theorem ownGameFound_of_isolated (sender : mess.player = some p) (effect : Effect s mess t)
    (isolated : Isolated s t p) : OwnGameFound s mess p := by
  obtain ⟨g, hg, hseat, hlookup, ⟨hne, -⟩, -, hplayers, -⟩ := isolated
  obtain ⟨before, after, hsplit, hafter⟩ :=
    (getGameByPlayer_eq_some_iff_of_seats hseat).mp hlookup
  refine ⟨before, g, after, hsplit, (otherSeat_ne_iff hseat).mp hne, hafter, ?_⟩
  intro header free
  -- a logout in no game closes a connection
  have hclosed : Disconnection s (s.player p).socket t := by
    cases effect with
    | @disconnected q _ _ hq _ closed =>
      obtain rfl : q = p := Option.some.inj (hq.symm.trans sender)
      exact closed
    | @ended q _ _ _ _ hq inGame | @endedLost q _ _ _ _ hq inGame =>
      obtain rfl : q = p := Option.some.inj (hq.symm.trans sender)
      rw [free] at inGame
      cases inGame
    | ignored hother => exact absurd (by rw [header]; decide) hother
    | answered hother => exact absurd hother (by rw [header]; decide)
    | named hother | reconnected hother | asked hother | started hother | gone hother
    | declined hother | moved hother | won hother | missed hother | bothLost hother =>
      exact absurd (header.symm.trans hother) (by decide)
  have hchanges : ∀ {pl}, Server.getPlayerBySocket s (s.player p).socket = some pl →
      ∃ pl ∈ Server.getPlayerBySocket s (s.player p).socket, (s.game g).Seats pl := by
    intro pl found
    refine ⟨pl, found, ?_⟩
    by_contra hpl
    -- and changes the player that it belongs to
    exact (hclosed.player_eq_iff found pl).mp (hplayers pl hpl) rfl
  cases hclosed with
  | left found | stays found => exact hchanges found

/-- In a tidy state the name of a seated player leads to its own game. -/
theorem Tidy.ownGameFound (h : Tidy s) (sound : Sound s) (seated : s.Seated p) :
    OwnGameFound s mess p := by
  obtain ⟨g, hg, hseat⟩ := seated
  have hlisted := h.seatsListed g hg p hseat
  obtain ⟨before, after, hsplit, hafter⟩ := (getGameByPlayer_eq_some_iff_of_seats hseat).mp
    (h.lookup_of_seats sound.names hg hseat)
  refine ⟨before, g, after, hsplit,
    (otherSeat_ne_iff hseat).mp (h.otherSeat_of_seats sound.names hg hseat).1, hafter, ?_⟩
  -- a seated player is flagged, so its logout ends the game instead
  intro _ free
  rw [(h.flag p hlisted).mpr ⟨g, hg, hseat⟩] at free
  cases free

/-- In a tidy state nobody else leaves the list either. -/
theorem Tidy.keeps_others (h : Tidy s) (sound : Sound s) (seated : s.Seated p)
    (sender : mess.player = some p)
    (kind : mess.header = H_C_GAME_MOVE ∨ mess.header = H_C_PL_LOGOUT)
    (effect : Effect s mess t) {r : PlayerRef}
    (apart : ∀ g ∈ s.games, (s.game g).Seats p → ¬ (s.game g).Seats r) :
    r ∈ t.players ↔ r ∈ s.players := by
  obtain ⟨g, hg, hseat⟩ := seated
  have hlisted := h.seatsListed g hg p hseat
  have hlookup := h.lookup_of_seats sound.names hg hseat
  have hsender : ∀ {q}, mess.player = some q → q = p := fun hq =>
    Option.some.inj (hq.symm.trans sender)
  cases effect with
  | moved | won | ended => exact Iff.rfl
  | @endedLost q oponent game players _ hq _ playing against _ erased =>
    obtain rfl := hsender hq
    obtain rfl : game = g := Option.some.inj (playing.symm.trans hlookup)
    -- the entry that goes is the opponent's
    have hother : (s.game game).Seats oponent := against ▸ seats_otherSeat
    have hplayers := Tidy.mem_erased_iff sound erased (h.seatsListed game hg _ hother)
      (h.seatsNamed game hg _ hother)
    have hr : r ≠ oponent := fun heq => apart game hg hseat (heq ▸ hother)
    exact (hplayers r).trans (and_iff_left hr)
  | disconnected _ hq free =>
    obtain rfl := hsender hq
    rw [(h.flag _ hlisted).mpr ⟨g, hg, hseat⟩] at free
    cases free
  | ignored | answered | asked | named | gone | declined | missed => exact Iff.rfl
  | reconnected header | started header | bothLost header =>
    rcases kind with kind | kind <;> rw [kind] at header <;> exact absurd header (by decide)

end Sender

/-- **Isolation between games**: a move or a logout of a seated player concerns the game that
    seats this very player, and nobody else, exactly when its name leads there. In every orderly
    run it does, and nobody else leaves the player list either. -/
theorem moves_and_logouts_are_isolated (s : State) (h : System.Reachable s) (p : PlayerRef)
    (seated : s.Seated p) (mess : Message) (sender : mess.player = some p)
    (kind : mess.header = H_C_GAME_MOVE ∨ mess.header = H_C_PL_LOGOUT) (t : State)
    (handled : dispatch s mess = .ok t) :
    (Isolated s t p ↔ OwnGameFound s mess p) ∧
      (System.ReachableUnder Orderly s → OwnGameFound s mess p ∧
        ∀ r, (∀ g ∈ s.games, (s.game g).Seats p → ¬ (s.game g).Seats r) →
          (r ∈ t.players ↔ r ∈ s.players)) := by
  have heffect := dispatch_effect handled
  have hsound := sound_of_reachable h
  refine ⟨⟨ownGameFound_of_isolated sender heffect,
    isolated_of_ownGameFound hsound.registry sender kind heffect⟩, fun horderly => ?_⟩
  have htidy := tidy_of_orderly horderly
  exact ⟨htidy.ownGameFound hsound seated,
    fun r hapart => htidy.keeps_others hsound seated sender kind heffect hapart⟩

/-- The state after handling a message, or the same state after a fault. -/
def handledOr (s : State) (mess : Message) : State := resultOr (dispatch s mess) s

/-- `A` logs out, and only its own game is gone. -/
theorem moves_and_logouts_are_isolated_logout :
    (System.machine.after Orderly System.playFour).games = [0, 1] ∧
      (handledOr (System.machine.after Orderly System.playFour)
        ⟨H_C_PL_LOGOUT, [], [], some 0⟩).games = [1] ∧
      Isolated (System.machine.after Orderly System.playFour)
        (handledOr (System.machine.after Orderly System.playFour)
          ⟨H_C_PL_LOGOUT, [], [], some 0⟩) 0 :=
  have hreach := Machine.reachableUnder_after (M := System.machine) System.playFour
  have hisolated := moves_and_logouts_are_isolated _
    (Machine.ReachableUnder.reachable hreach) 0 (by decide +kernel)
    ⟨H_C_PL_LOGOUT, [], [], some 0⟩ rfl (Or.inr rfl) _ (eq_ok_resultOr (by decide +kernel) _)
  ⟨by decide +kernel, by decide +kernel, hisolated.1.mpr (hisolated.2 hreach).1⟩

/-- Two unregistered clients, on the descriptors 5 and 7, get a game each. -/
def unnamedGames : List Action :=
  [.accept 5 false, .accept 6 false, .accept 7 false, .accept 8 false] ++
    System.deliver 6 H_C_NEW_PL [.str [66]] ++ System.deliver 8 H_C_NEW_PL [.str [67]] ++
    System.deliver 5 H_C_JOIN_PLAYER [.str [66]] ++ System.deliver 6 H_C_ACCEPT_JOIN [] ++
    System.deliver 7 H_C_JOIN_PLAYER [.str [67]] ++ System.deliver 8 H_C_ACCEPT_JOIN []

/-- In some run a logout ends somebody else's game. -/
theorem logout_ends_another_game :
    ¬ ∀ s, System.Reachable s → ∀ p, s.Seated p → ∀ mess : Message, mess.player = some p →
      mess.header = H_C_GAME_MOVE ∨ mess.header = H_C_PL_LOGOUT →
      ∀ t, dispatch s mess = .ok t → Isolated s t p := by
  intro h
  obtain ⟨g, hg, hseat, -, -, hgames, -⟩ := h _ (System.reachable_after unnamedGames) 0
    (by decide +kernel) ⟨H_C_PL_LOGOUT, [], [], some 0⟩ rfl (Or.inr rfl) _
    (eq_ok_resultOr (by decide +kernel) (System.after unnamedGames))
  have hregistered : (System.after unnamedGames).games = [0, 1] := by decide +kernel
  have hleft : (handledOr (System.after unnamedGames) ⟨H_C_PL_LOGOUT, [], [], some 0⟩).games
      = [0] := by decide +kernel
  have hown : ¬ ((System.after unnamedGames).game 1).Seats 0 := by decide +kernel
  -- the game of the player is the first one, and the second one was deleted
  have hne : (1 : GameRef) ≠ g := fun heq => hown (heq ▸ hseat)
  have hkept : 1 ∈ (handledOr (System.after unnamedGames) ⟨H_C_PL_LOGOUT, [], [], some 0⟩).games ↔
      1 ∈ (System.after unnamedGames).games := (hgames 1 hne).2
  rw [hleft, hregistered] at hkept
  simp at hkept

end UpsServer
