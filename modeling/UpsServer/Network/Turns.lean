import UpsServer.Network.SeenBoards

/-!
# Who is on turn

The server keeps the player on turn as a pointer. A handover does not change it, so afterwards it
may lead to a player that has left the list; what still identifies the player is the name. As long
as nobody in a game takes another name, exactly one of the two clients of a game believes to be on
turn, the one whose name that is.
-/

namespace UpsServer

open Framework CommandManager

/-- The client believes to be on turn. -/
def View.onTurn : View → Bool
  | .free => false
  | .playing _ turn => turn

/-- A card does not change whether there is a game. -/
theorem View.Shows.onTurn_play {v : View} {board : Board} (h : v.Shows board) (m : Move)
    (turn : Bool) : (v.play m turn).onTurn = turn := by
  obtain ⟨seen, was, rfl, -⟩ := h
  rfl

/-- Nobody in a game takes another name. -/
def KeepsName (s : State) (a : Action) : Prop :=
  a = .runCommand → ∀ command ∈ s.commandQueue.head?, command.message.header = H_C_NEW_PL →
    ∀ p ∈ command.message.player, (s.player p).inGame = false

instance (s : State) (a : Action) : Decidable (KeepsName s a) :=
  inferInstanceAs (Decidable (_ → ∀ command ∈ s.commandQueue.head?, _ →
    ∀ p ∈ command.message.player, _))

/-- The commands fit the state, and nobody in a game takes another name. -/
def OrderlyNamed (s : State) (a : Action) : Prop := Orderly s a ∧ KeepsName s a

instance (s : State) (a : Action) : Decidable (OrderlyNamed s a) :=
  inferInstanceAs (Decidable (_ ∧ _))

/-! ## The invariant -/

/-- The player on turn is known by name, and each of the two clients knows whether it has that
    name. The player itself holds a seat or has left the list. -/
def TurnKnown (s : State) (views : Views) (g : GameRef) : Prop :=
  ∃ x, (s.game g).playerOnTurn = some x ∧ (s.player x).inGame = true ∧
    ((s.game g).Seats x ∨ x ∉ s.players) ∧
    (∃ p, (s.game g).Seats p ∧ (s.player p).name = (s.player x).name) ∧
    ∀ p, (s.game g).Seats p → (views p).onTurn = ((s.player p).name == (s.player x).name)

section TurnKnown

variable {s t : State} {views views' : Views} {g : GameRef}

/-- A step that does not concern the game. -/
theorem TurnKnown.keep (h : TurnKnown s views g) (tidy : Tidy s) (sound : Sound s)
    (pointers : Pointers s) (hg : g ∈ s.games)
    (seats : ∀ p, (t.game g).Seats p ↔ (s.game g).Seats p)
    (turn : (t.game g).playerOnTurn = (s.game g).playerOnTurn)
    (name : ∀ p, s.Made p → (s.player p).inGame = true → (t.player p).name = (s.player p).name)
    (inGame : ∀ p, s.Made p → (s.player p).inGame = true →
      (s.game g).Seats p ∨ p ∉ s.players → (t.player p).inGame = true)
    (listed : ∀ p ∈ t.players, p ∈ s.players ∨ ¬ s.Made p)
    (views_ : ∀ p, (s.game g).Seats p → (views' p).onTurn = (views p).onTurn) :
    TurnKnown t views' g := by
  obtain ⟨x, hturn, hx, hplace, ⟨p, hp, hname⟩, hviews⟩ := h
  have hmade : s.Made x := pointers.turn g x hturn
  -- whoever sits in the game is in a game, so its name stays
  have hseated : ∀ q, (s.game g).Seats q → (t.player q).name = (s.player q).name := by
    intro q hq
    have hlisted := tidy.seatsListed g hg q hq
    exact name q (sound.registry.playersAllocated q hlisted)
      ((tidy.flag q hlisted).mpr ⟨g, hg, hq⟩)
  refine ⟨x, turn.trans hturn, inGame x hmade hx hplace, ?_, ⟨p, (seats p).mpr hp, ?_⟩,
    fun q hq => ?_⟩
  · rw [seats]
    refine hplace.imp_right fun habsent hlisted => ?_
    exact (listed x hlisted).elim habsent fun hunmade => hunmade hmade
  · rw [hseated p hp, name x hmade hx, hname]
  · have hq' := (seats q).mp hq
    rw [views_ q hq', hviews q hq', hseated q hq', name x hmade hx]

/-- Two players with different names, one of whom is on turn. -/
theorem TurnKnown.of_seats {p q x : PlayerRef} (seats : ∀ r, (t.game g).Seats r ↔ r = p ∨ r = q)
    (turn : (t.game g).playerOnTurn = some x) (inGame : (t.player x).inGame = true)
    (place : (t.game g).Seats x ∨ x ∉ t.players) (name : (t.player p).name = (t.player x).name)
    (other : (t.player q).name ≠ (t.player x).name) (first : (views' p).onTurn = true)
    (second : (views' q).onTurn = false) : TurnKnown t views' g := by
  refine ⟨x, turn, inGame, place, ⟨p, (seats p).mpr (Or.inl rfl), name⟩, fun r hr => ?_⟩
  rcases (seats r).mp hr with rfl | rfl
  · rw [first, name, beq_self_eq_true]
  · rw [second]
    exact (beq_eq_false_iff_ne.mpr other).symm

end TurnKnown

/-- In every registered game the turn is known. -/
def TurnsKnown (s : State) (views : Views) : Prop := ∀ g ∈ s.games, TurnKnown s views g

/-- The two players of a game have different names. -/
theorem Tidy.seat_names_ne {s : State} (h : Tidy s) (sound : Sound s) {g : GameRef}
    {p q : PlayerRef} (hg : g ∈ s.games) (hp : (s.game g).Seats p) (hq : (s.game g).Seats q)
    (hne : p ≠ q) : (s.player p).name ≠ (s.player q).name := fun hname =>
  hne (sound.names.eq_of_name (h.seatsListed g hg p hp) (h.seatsListed g hg q hq) hname
    (h.seatsNamed g hg p hp))

namespace TurnsKnown

variable {s t : State} {views views' : Views} {mess : Message}

/-- A step that leaves the seats, the turns, the flags and the names of players in games alone. -/
theorem keep (h : TurnsKnown s views) (tidy : Tidy s) (sound : Sound s) (pointers : Pointers s)
    (games : ∀ g ∈ t.games, g ∈ s.games) (p1 : ∀ g, (t.game g).p1 = (s.game g).p1)
    (p2 : ∀ g, (t.game g).p2 = (s.game g).p2)
    (turn : ∀ g, (t.game g).playerOnTurn = (s.game g).playerOnTurn)
    (name : ∀ p, s.Made p → (s.player p).inGame = true → (t.player p).name = (s.player p).name)
    (inGame : ∀ p, s.Made p → (s.player p).inGame = true → (t.player p).inGame = true)
    (listed : ∀ p ∈ t.players, p ∈ s.players ∨ ¬ s.Made p) : TurnsKnown t views := by
  intro g hg
  refine (h g (games g hg)).keep tidy sound pointers (games g hg) (fun p => ?_) (turn g) name
    (fun p hmade hp _ => inGame p hmade hp) listed fun _ _ => rfl
  rw [Game.Seats, Game.Seats, p1, p2]

theorem sameWorld (h : TurnsKnown s views) (tidy : Tidy s) (sound : Sound s)
    (pointers : Pointers s) (same : SameWorld s t) : TurnsKnown t views :=
  h.keep tidy sound pointers (fun g hg => same.games ▸ hg) (fun g => by rw [same.game])
    (fun g => by rw [same.game]) (fun g => by rw [same.game]) (fun p _ _ => same.name p)
    (fun p _ hp => by rw [same.inGame, hp]) fun p hp => Or.inl (same.players ▸ hp)

theorem addPlayer (h : TurnsKnown s views) (tidy : Tidy s) (sound : Sound s)
    (pointers : Pointers s) (fd : Int) (nameSet : Bool) :
    TurnsKnown (Server.addPlayer s fd nameSet) views := by
  have hold : ∀ p, s.Made p → (Server.addPlayer s fd nameSet).player p = s.player p := by
    intro p hmade
    rw [Server.player_addPlayer, if_neg (Nat.ne_of_lt hmade)]
  refine h.keep tidy sound pointers (fun _ hg => hg) (fun _ => rfl) (fun _ => rfl) (fun _ => rfl)
    (fun p hmade _ => by rw [hold p hmade]) (fun p hmade hp => by rw [hold p hmade, hp])
    fun p hp => ?_
  rcases List.mem_append.mp hp with hlisted | hnew
  · exact Or.inl hlisted
  · rw [List.mem_singleton.mp hnew]
    exact Or.inr (lt_irrefl _)

theorem disconnected {fd : Int} (h : TurnsKnown s views) (tidy : Tidy s) (sound : Sound s)
    (pointers : Pointers s) (closed : Disconnection s fd t) : TurnsKnown t views := by
  cases closed with
  | left =>
    exact h.keep tidy sound pointers (fun _ hg => hg) (fun _ => rfl) (fun _ => rfl) (fun _ => rfl)
      (by simp) (by simp) fun p hp => Or.inl (List.eraseP_sublist.subset hp)
  | stays =>
    exact h.keep tidy sound pointers (fun _ hg => hg) (fun _ => rfl) (fun _ => rfl) (fun _ => rfl)
      (by simp) (by simp) fun p hp => Or.inl hp

/-- A game ends, and nothing changes about anybody who was not in it. -/
theorem finish (h : TurnsKnown s views) (tidy : Tidy s) (sound : Sound s)
    (pointers : Pointers s) {game : GameRef} (hgame : game ∈ s.games)
    (games : ∀ g ∈ t.games, g ∈ s.games ∧ g ≠ game)
    (p1 : ∀ g ≠ game, (t.game g).p1 = (s.game g).p1)
    (p2 : ∀ g ≠ game, (t.game g).p2 = (s.game g).p2)
    (turn : ∀ g ≠ game, (t.game g).playerOnTurn = (s.game g).playerOnTurn)
    (name : ∀ p, (t.player p).name = (s.player p).name)
    (inGame : ∀ p, ¬ (s.game game).Seats p → (t.player p).inGame = (s.player p).inGame)
    (listed : ∀ p ∈ t.players, p ∈ s.players)
    (views_ : ∀ p, ¬ (s.game game).Seats p → views' p = views p) : TurnsKnown t views' := by
  intro g hg
  obtain ⟨hg, hne⟩ := games g hg
  -- whoever sits in another game or is not listed does not sit in the game that ends
  have helse : ∀ p, (s.game g).Seats p ∨ p ∉ s.players → ¬ (s.game game).Seats p := by
    rintro p (hp | hp) hseat
    · exact hne (tidy.oneGame g hg game hgame p hp hseat)
    · exact hp (tidy.seatsListed game hgame p hseat)
  refine (h g hg).keep tidy sound pointers hg (fun p => ?_) (turn g hne) (fun p _ _ => name p)
    (fun p _ hp hplace => ?_) (fun p hp => Or.inl (listed p hp)) fun p hp => ?_
  · rw [Game.Seats, Game.Seats, p1 g hne, p2 g hne]
  · rw [inGame p (helse p hplace), hp]
  · rw [views_ p (helse p (Or.inl hp))]

/-- Only the views of seated players count. -/
theorem congr (h : TurnsKnown s views) (views_ : ∀ p, s.Seated p → views' p = views p) :
    TurnsKnown s views' := by
  intro g hg
  obtain ⟨x, hturn, hx, hplace, hname, hviews⟩ := h g hg
  exact ⟨x, hturn, hx, hplace, hname, fun q hq => by rw [views_ q ⟨g, hg, hq⟩, hviews q hq]⟩

/-! ### Handling a command -/

/-- After a move the opponent is on turn, and both clients know. -/
theorem moved (h : TurnsKnown s views) (fit : views.Fit s) (tidy : Tidy s) (sound : Sound s)
    (pointers : Pointers s) {p : PlayerRef} {game : GameRef} {m : Move}
    (header : mess.header = H_C_GAME_MOVE) (sender : mess.player = some p)
    (listed : p ∈ s.players) (hm : mess.move = some m)
    (playing : GameManager.getGameByPlayer s p = some game) (effect : MoveEffect s p game m t) :
    TurnsKnown t (Views.handle s mess views) := by
  obtain ⟨hgame, hdistinct, hseats⟩ := tidy.lookup sound listed playing
  have hp : (s.game game).Seats p := (hseats p).mpr (Or.inl rfl)
  have hoponent := (hseats _).mpr (Or.inr rfl)
  have helse : ∀ q, ¬ (s.game game).Seats q → q ≠ p ∧ q ≠ GameManager.otherSeat s game p :=
    fun q hq => not_or.mp fun hor => hq ((hseats q).mpr hor)
  have hother := fun g (hne : g ≠ game) => effect.game_of_ne hne
  cases effect with
  | won closes =>
    have hbecome := handle_won views header sender hm playing rfl hdistinct closes
    refine h.finish tidy sound pointers hgame
      (fun g hg => (sound.registry.mem_deleted_iff hgame g).mp hg)
      (fun g hne => by rw [hother g hne]) (fun g hne => by rw [hother g hne])
      (fun g hne => by rw [hother g hne]) (by simp)
      (fun q hq => by simp [helse q hq]) (fun q hq => hq)
      fun q hq => hbecome.others q (helse q hq).1 (helse q hq).2
  | passed stays =>
    have hbecome := handle_passed views header sender hm playing rfl hdistinct stays
    intro g hg
    by_cases hne : g = game
    · rw [hne]
      refine TurnKnown.of_seats (p := GameManager.otherSeat s game p) (q := p)
        (x := GameManager.otherSeat s game p) (fun r => ?_) (by simp) ?_ (Or.inl ?_) rfl ?_ ?_ ?_
      · rw [Or.comm, ← hseats]
        simp [Game.Seats]
      · exact (tidy.flag _ (tidy.seatsListed game hgame _ hoponent)).mpr ⟨game, hgame, hoponent⟩
      · simpa [Game.Seats] using hoponent
      · exact tidy.seat_names_ne sound hgame hp hoponent hdistinct.symm
      · rw [hbecome.second]
        exact ((fit _).seated game hgame hoponent).onTurn_play m true
      · rw [hbecome.first]
        exact ((fit p).seated game hgame hp).onTurn_play m false
    · have hsame := hother g hne
      refine (h g hg).keep tidy sound pointers hg (fun q => by rw [hsame]) (by rw [hsame])
        (fun _ _ _ => rfl) (fun _ _ hflag _ => hflag) (fun _ hlisted => Or.inl hlisted)
        fun q hq => ?_
      have hnone : ¬ (s.game game).Seats q := fun hseat =>
        hne (tidy.oneGame g hg game hgame q hq hseat)
      rw [hbecome.others q (helse q hnone).1 (helse q hnone).2]

/-- The player who asked for a game is on turn first. -/
theorem started (h : TurnsKnown s views) (tidy : Tidy s) (sound : Sound s) (pointers : Pointers s)
    {asking asked : PlayerRef} {first second : OutPacket}
    (tidy' : Tidy (((gameStarted s asking asked).pushOut first).pushOut second))
    (sound' : Sound (((gameStarted s asking asked).pushOut first).pushOut second))
    (free : (s.player asking).inGame = false) (free' : (s.player asked).inGame = false)
    (distinct : asking ≠ asked)
    (become : views.Become views' asking asked
      (.playing Board.empty ((s.player asking).name != (s.player asked).name))
      (.playing Board.empty ((s.player asking).name != (s.player asking).name))) :
    TurnsKnown (((gameStarted s asking asked).pushOut first).pushOut second) views' := by
  intro g hg
  have hseats : ∀ q, ((gameStarted s asking asked).game s.gameHeap.next).Seats q ↔
      q = asking ∨ q = asked := fun q => by
    rw [Game.Seats, p1_gameStarted, p2_gameStarted, if_pos rfl, if_pos rfl, eq_comm,
      @eq_comm _ asked]
  have hnames : (s.player asking).name ≠ (s.player asked).name := by
    have hne := tidy'.seat_names_ne sound' (g := s.gameHeap.next) (by simp [gameStarted,
      clearRequest]) ((hseats asking).mpr (Or.inl rfl)) ((hseats asked).mpr (Or.inr rfl)) distinct
    simpa using hne
  by_cases hne : g = s.gameHeap.next
  · rw [hne]
    refine TurnKnown.of_seats (x := asking) hseats ?_ ?_ (Or.inl ((hseats asking).mpr (Or.inl rfl)))
      rfl ?_ ?_ ?_
    · rw [State.game_pushOut, State.game_pushOut, game_gameStarted, if_pos rfl]
      rfl
    · simp
    · simpa using hnames.symm
    · rw [become.first]
      exact bne_iff_ne.mpr hnames
    · rw [become.second]
      exact bne_self_eq_false _
  · have hold : g ∈ s.games :=
      (List.mem_append.mp hg).resolve_right fun hmem => hne (List.mem_singleton.mp hmem)
    have hsame : (gameStarted s asking asked).game g = s.game g := by
      rw [game_gameStarted, if_neg hne]
    refine (h g hold).keep tidy sound pointers hold (fun q => by simp [hsame]) (by simp [hsame])
      (by simp) (fun q _ hflag _ => by simp [hflag]) (fun q hq => Or.inl hq) fun q hq => ?_
    -- the two free players do not sit in the other game
    have hflag := (tidy.flag q (tidy.seatsListed g hold q hq)).mpr ⟨g, hold, hq⟩
    rw [become.others q (fun heq => by rw [heq, free] at hflag; cases hflag)
      (fun heq => by rw [heq, free'] at hflag; cases hflag)]

/-- After a handover the name of the player on turn is still that of one of the two. -/
theorem reconnected (h : TurnsKnown s views) (tidy : Tidy s) (sound : Sound s)
    (pointers : Pointers s) (tidy' : Tidy t) (sound' : Sound t)
    {newP oldP oponent onTurn : PlayerRef} {game : GameRef} {players : List PlayerRef}
    {gameString : ByteString} (handover : HandsOver s t newP oldP game players)
    (before : s.ListedBefore oldP newP) (free : (s.player newP).inGame = false)
    (playing : GameManager.getGameByPlayer (takeOverName s newP oldP) oldP = some game)
    (turn : (t.game game).playerOnTurn = some onTurn)
    (erased : ErasesPlayer (handedOver s newP oldP game) oldP players)
    (seats : ∀ q, (t.game game).Seats q ↔ q = newP ∨ q = oponent) (distinct : oponent ≠ newP)
    (become : views.Become views' newP oponent
      (.playing (View.boardOf gameString) ((t.player onTurn).name != (t.player oponent).name))
      (.playing (View.boardOf gameString) ((t.player onTurn).name != (t.player newP).name))) :
    TurnsKnown t views' := by
  obtain ⟨hgame, -⟩ := tidy.seats_of_takeOver sound before free playing
  have hplayers := tidy.mem_erasedOld_iff sound before free playing erased
  have hname : ∀ q, (t.player q).name = if q = newP then (s.player oldP).name
      else (s.player q).name := fun q => by rw [handover.player, name_handedOver]
  have hflag : ∀ q, (t.player q).inGame = if q = newP then true else (s.player q).inGame :=
    fun q => by rw [handover.player, inGame_handedOver]
  have hlisted : ∀ q, q ∈ t.players ↔ q ∈ s.players ∧ q ≠ oldP := fun q => by
    rw [handover.players]
    exact hplayers q
  -- nobody in a game is renamed
  have hnew : ∀ q, (s.player q).inGame = true → q ≠ newP := by
    rintro q hq rfl
    rw [free] at hq
    cases hq
  have hgames := handover.games
  intro g hg
  rw [hgames] at hg
  by_cases hne : g = game
  · rw [hne]
    obtain ⟨x, hturn, hx, hplace, ⟨p, hp, hpname⟩, -⟩ := h game hgame
    have hkept : (t.game game).playerOnTurn = some x := by
      rw [handover.object, handedOver, playerOnTurn_takeOverSeat, game_takeOverName, hturn]
    obtain rfl : onTurn = x := Option.some.inj (turn.symm.trans hkept)
    have hnames := tidy'.seat_names_ne sound' (hgames ▸ hgame) ((seats newP).mpr (Or.inl rfl))
      ((seats oponent).mpr (Or.inr rfl)) distinct.symm
    have hxflag : (t.player onTurn).inGame = true := by rw [hflag, if_neg (hnew onTurn hx), hx]
    have hstays : ∀ q, (s.game game).Seats q → q ≠ oldP → (t.game game).Seats q := by
      intro q hq hqold
      rw [handover.object]
      exact tidy.seats_handedOver_of_ne sound before free playing hq hqold
    have hxplace : (t.game game).Seats onTurn ∨ onTurn ∉ t.players := by
      by_cases hgone : onTurn = oldP
      · exact Or.inr fun hmem => ((hlisted onTurn).mp hmem).2 hgone
      · exact hplace.imp (fun hq => hstays onTurn hq hgone) fun habsent hmem =>
          habsent ((hlisted onTurn).mp hmem).1
    -- the name on turn is the one that was taken over, or the opponent's
    by_cases hold : p = oldP
    · have hon : (t.player newP).name = (t.player onTurn).name := by
        rw [hname newP, if_pos rfl, hname onTurn, if_neg (hnew onTurn hx), ← hpname, hold]
      refine TurnKnown.of_seats seats hkept hxflag hxplace hon (hon ▸ hnames.symm) ?_ ?_
      · rw [become.first, ← hon]
        exact bne_iff_ne.mpr hnames
      · rw [become.second, ← hon]
        exact bne_self_eq_false _
    · have hpflag := (tidy.flag p (tidy.seatsListed game hgame p hp)).mpr ⟨game, hgame, hp⟩
      have hpo : p = oponent :=
        ((seats p).mp (hstays p hp hold)).resolve_left (hnew p hpflag)
      have hon : (t.player oponent).name = (t.player onTurn).name := by
        rw [hname oponent, if_neg distinct, hname onTurn, if_neg (hnew onTurn hx), ← hpname, hpo]
      refine TurnKnown.of_seats (fun r => (seats r).trans Or.comm) hkept hxflag hxplace hon
        (hon ▸ hnames) ?_ ?_
      · rw [become.second, ← hon]
        exact bne_iff_ne.mpr hnames.symm
      · rw [become.first, ← hon]
        exact bne_self_eq_false _
  · have hsame : t.game g = s.game g := by
      rw [handover.object, game_handedOver_of_ne s newP oldP game g hne]
    refine (h g hg).keep tidy sound pointers hg (fun q => by rw [hsame]) (by rw [hsame])
      (fun q _ hq => by rw [hname, if_neg (hnew q hq)])
      (fun q _ hq _ => by rw [hflag, if_neg (hnew q hq), hq])
      (fun q hq => Or.inl ((hlisted q).mp hq).1) fun q hq => ?_
    have hqflag := (tidy.flag q (tidy.seatsListed g hg q hq)).mpr ⟨g, hg, hq⟩
    -- the opponent sits in the game that is handed over, and in no other
    have hqo : q ≠ oponent := by
      rintro rfl
      exact hne (tidy'.oneGame g (hgames ▸ hg) game (hgames ▸ hgame) q (hsame ▸ hq)
        ((seats q).mpr (Or.inr rfl)))
    rw [become.others q (hnew q hqflag) hqo]

/-- Handling a command keeps the turns known. -/
theorem handled (h : TurnsKnown s views) (fit : views.Fit s) (tidy : Tidy s) (sound : Sound s)
    (pointers : Pointers s) (tidy' : Tidy t) (sound' : Sound t)
    (fits : ∀ p ∈ mess.player, FitsSender s mess p)
    (named : mess.header = H_C_NEW_PL → ∀ p ∈ mess.player, (s.player p).inGame = false)
    (lostSender : mess.header = INTERNAL_PL_LOST → ∀ p ∈ mess.player, p ∈ s.players)
    (exec : dispatch s mess = .ok t) : TurnsKnown t (Views.handle s mess views) := by
  have htells := dispatch_tells exec
  cases dispatch_effect exec with
  | ignored header =>
    rw [handle_of_ignored views header]
    exact h
  | answered header sender =>
    rw [handle_of_answered views header sender htells]
    exact h.keep tidy sound pointers (fun _ hg => hg) (fun _ => rfl) (fun _ => rfl) (fun _ => rfl)
      (fun _ _ _ => rfl) (fun _ _ hp => hp) fun _ hp => Or.inl hp
  | @named p username _ header sender =>
    rw [handle_of_other views (by rw [header]; decide)]
    have hfree := named header p sender
    refine h.keep tidy sound pointers (fun _ hg => hg) (fun _ => rfl) (fun _ => rfl) (fun _ => rfl)
      (fun q _ hq => ?_) (by simp) fun _ hp => Or.inl hp
    -- the sender is in no game
    have hne : q ≠ p := by
      rintro rfl
      rw [hfree] at hq
      cases hq
    simp [hne]
  | asked header =>
    rw [handle_of_other views (by rw [header]; decide)]
    exact h.keep tidy sound pointers (fun _ hg => hg) (fun _ => rfl) (fun _ => rfl) (fun _ => rfl)
      (by simp) (by simp) fun _ hp => Or.inl hp
  | declined header =>
    rw [handle_of_other views (by rw [header]; decide)]
    exact h.keep tidy sound pointers (fun _ hg => hg) (fun _ => rfl) (fun _ => rfl) (fun _ => rfl)
      (by simp [clearRequest]) (by simp [clearRequest]) fun _ hp => Or.inl hp
  | missed header =>
    rw [handle_of_other views (by rw [header]; decide)]
    exact h.keep tidy sound pointers (fun _ hg => hg) (fun _ => rfl) (fun _ => rfl) (fun _ => rfl)
      (by simp) (by simp) fun _ hp => Or.inl hp
  | gone header sender askedBy sent =>
    rw [handle_of_gone views header sender askedBy sent rfl htells]
    exact h.keep tidy sound pointers (fun _ hg => hg) (fun _ => rfl) (fun _ => rfl) (fun _ => rfl)
      (by simp [clearRequest]) (by simp [clearRequest]) fun _ hp => Or.inl hp
  | moved header sender | won header sender =>
    rw [dispatch_move header] at exec
    obtain ⟨q, game, m, hq, hplaying, hm, -, heffect⟩ := processGameMove_moveEffect exec
    exact h.moved fit tidy sound pointers header hq ((fits q hq).move header) hm hplaying heffect
  | @reconnected newP oldP oponent onTurn game name first second players header sender payload
      found lost playing turn against _ _ erased =>
    obtain ⟨before, hfree⟩ := (fits newP sender).reconnect header name
      (payloadString_eq_ok_iff.mp payload) oldP found lost
    have hover := handsOver s newP oldP game first second players
    obtain ⟨hdistinct, hseats⟩ := tidy.opponent_handedOver sound hover tidy' sound' before hfree
      playing against
    have hbecome := handle_reconnected views header sender payload found lost playing turn against
      hdistinct
    rw [← hover.player, ← hover.player, ← hover.player] at hbecome
    rw [← hover.object] at turn
    exact h.reconnected tidy sound pointers tidy' sound' hover before hfree playing turn erased
      hseats hdistinct hbecome
  | @started asking asked first second header sender askedBy distinct waiting =>
    obtain ⟨hfree, hfree'⟩ := (fits asked sender).free header asking askedBy distinct waiting
    exact h.started tidy sound pointers tidy' sound' hfree.2.2 hfree'.2.2 distinct
      (handle_started views header sender askedBy distinct waiting)
  | @ended p oponent game info header sender inGame playing against present =>
    obtain ⟨hgame, hdistinct, hseats⟩ := tidy.lookup sound ((fits p sender).logout header inGame)
      playing
    rw [← against] at hdistinct hseats
    have hbecome := handle_ended views header sender inGame playing against hdistinct present
    have helse : ∀ q, ¬ (s.game game).Seats q → q ≠ p ∧ q ≠ oponent :=
      fun q hq => not_or.mp fun hor => hq ((hseats q).mpr hor)
    exact h.finish tidy sound pointers hgame
      (fun g hg => (sound.registry.mem_deleted_iff hgame g).mp hg) (fun _ _ => rfl)
      (fun _ _ => rfl) (fun _ _ => rfl) (by simp) (fun q hq => by simp [helse q hq])
      (fun _ hq => hq) fun q hq => hbecome.others q (helse q hq).1 (helse q hq).2
  | @endedLost p oponent game players header sender inGame playing against absent erased =>
    obtain ⟨hgame, -, hseats⟩ := tidy.lookup sound ((fits p sender).logout header inGame) playing
    have hp : (s.game game).Seats p := (hseats p).mpr (Or.inl rfl)
    have hne : ∀ q, ¬ (s.game game).Seats q → q ≠ p := fun q hq heq => hq (heq ▸ hp)
    have halone : ∀ game', GameManager.getGameByPlayer s p = some game' →
        (s.player p).inGame = true →
          (s.player (GameManager.otherSeat s game' p)).lost = true := by
      intro game' hgame' _
      obtain rfl : game = game' := Option.some.inj (playing.symm.trans hgame')
      rw [← against]
      exact absent
    obtain ⟨-, hothers⟩ := handle_left views header sender halone
    exact h.finish tidy sound pointers hgame
      (fun g hg => (sound.registry.mem_deleted_iff hgame g).mp hg) (fun _ _ => rfl)
      (fun _ _ => rfl) (fun _ _ => rfl) (by simp) (fun q hq => by simp [hne q hq])
      (fun _ hq => erased.sublist.subset hq) fun q hq => hothers q (hne q hq)
  | @disconnected p _ header sender free closed =>
    obtain ⟨-, hothers⟩ := handle_left views header sender fun game _ hflag => by
      rw [free] at hflag
      cases hflag
    refine (h.disconnected tidy sound pointers closed).congr fun q hseated => hothers q ?_
    -- whoever sits in a game is not the sender, which is in none
    rintro rfl
    obtain ⟨g, hg, hseat⟩ := hseated
    have hflag := (tidy'.flag q (tidy'.seatsListed g hg q hseat)).mpr ⟨g, hg, hseat⟩
    have hkept : (t.player q).inGame = (s.player q).inGame := by
      cases closed <;> simp
    rw [hkept, free] at hflag
    cases hflag
  | @bothLost p oponent game players players' header sender playing against absent erased
      erased' =>
    rw [handle_of_other views (by rw [header]; decide)]
    obtain ⟨hgame, -, hseats⟩ := tidy.lookup sound (lostSender header p sender) playing
    rw [← against] at hseats
    have helse : ∀ q, ¬ (s.game game).Seats q → q ≠ p ∧ q ≠ oponent :=
      fun q hq => not_or.mp fun hor => hq ((hseats q).mpr hor)
    exact h.finish tidy sound pointers hgame
      (fun g hg => (sound.registry.mem_deleted_iff hgame g).mp hg) (fun _ _ => rfl)
      (fun _ _ => rfl) (fun _ _ => rfl) (by simp) (fun q hq => by simp [helse q hq])
      (fun _ hq => erased.sublist.subset (erased'.sublist.subset hq)) fun _ _ => rfl

/-- Every step of a run in which nobody in a game takes another name. -/
theorem exec {a : Action} (h : TurnsKnown s views) (fit : views.Fit s)
    (before : System.ReachableUnder Orderly s) (enabled : System.Enabled s a)
    (guard : OrderlyNamed s a) (exec : System.exec s a = .ok t) :
    TurnsKnown t (Views.watch s a views) := by
  have hsound := sound_of_reachable before.reachable
  have htidy := tidy_of_orderly before
  have hpointers := (references_of_reachable before.reachable).pointers
  have hstep := exec_step (stageFromPacket_of_reachable before.reachable) enabled exec
  by_cases ha : a = .runCommand
  · subst ha
    obtain ⟨command, rest, hqueue⟩ := List.exists_cons_of_ne_nil enabled
    have hafter : System.ReachableUnder Orderly t :=
      Machine.ReachableFrom.step (a := .runCommand) before enabled guard.1 exec
    rw [exec_runCommand hqueue] at exec
    rw [Views.watch_runCommand hqueue]
    have hsame := sameWorld_withCommands s rest
    have hpopped := h.sameWorld htidy hsound hpointers hsame
    refine hpopped.handled (fit.sameWorld hsame) (htidy.pop hqueue) (hsound.pop hqueue)
      (hpointers.sameWorld hsame) (tidy_of_orderly hafter) (sound_of_reachable hafter.reachable)
      (fits_of_orderly guard.1 hqueue) (fun hheader p hp => ?_)
      (fun hheader p hp => htidy.listed_of_internal hqueue hheader hp) exec
    exact guard.2 rfl command (by rw [hqueue]; rfl) hheader p hp
  · rw [Views.watch_of_ne ha]
    cases hstep with
    | quiet hquiet => exact h.sameWorld htidy hsound hpointers hquiet.toSameWorld
    | accepted => exact h.addPlayer htidy hsound hpointers _ _
    | closed hquiet hclosed =>
      have hsame := hquiet.toSameWorld
      exact (h.sameWorld htidy hsound hpointers hsame).disconnected (htidy.quiet hquiet)
        (hsound.quiet hquiet) (hpointers.sameWorld hsame) hclosed
    | handled => exact absurd rfl ha

end TurnsKnown

/-! ## Every orderly run -/

theorem turns_known {y : State × Views}
    (h : System.watched.ReachableUnder (fun y => OrderlyNamed y.1) y) : TurnsKnown y.1 y.2 := by
  refine Machine.ReachableFrom.invariant (I := fun y : State × Views => TurnsKnown y.1 y.2) h
    (fun g hg => absurd hg List.not_mem_nil) ?_
  intro y y' a hreach hturns henabled hguard hexec
  have horderly := hreach.mono fun _ _ hboth => hboth.1
  have hbefore : System.ReachableUnder Orderly y.1 := Machine.reachable_of_recorded horderly
  obtain ⟨hstep, hviews⟩ := Machine.exec_recorded_eq_ok hexec
  rw [hviews]
  exact hturns.exec (views_fit horderly) hbefore henabled hguard hstep

/-- The state and the views after a list of steps that all meet the condition. -/
abbrev System.afterNamed (as : List Action) : State × Views :=
  System.watched.after (fun y => OrderlyNamed y.1) as

/-- `A` is lost on its turn and comes back on the descriptor 7. -/
def comeBackOnTurn : List Action :=
  System.loseOne ++ [.accept 7 false] ++ System.deliver 7 H_C_PL_RECONN [.str [65]]

/-- `A` comes back, takes the name `Z`, is lost and comes back once more. -/
def renameOnTurn : List Action :=
  comeBackOnTurn ++ System.deliver 7 H_C_NEW_PL [.str [90]] ++
    [.peerClosed 7, .runCommand, .accept 8 false] ++ System.deliver 8 H_C_PL_RECONN [.str [90]]

/-- In some orderly run both clients of a game believe to be on turn. -/
theorem both_believe_to_be_on_turn :
    (System.afterWatched renameOnTurn).1.games = [0] ∧
      ((System.afterWatched renameOnTurn).1.game 0).Seats 3 ∧
        ((System.afterWatched renameOnTurn).1.game 0).Seats 1 ∧
          ((System.afterWatched renameOnTurn).2 3).onTurn = true ∧
            ((System.afterWatched renameOnTurn).2 1).onTurn = true := by
  decide +kernel

end UpsServer
