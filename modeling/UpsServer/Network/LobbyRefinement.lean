import UpsServer.Framework.Lobby
import UpsServer.Network.Disconnections
import UpsServer.Network.Moves

/-!
# The server as a lobby

What the server is for, seen from far away: players come and go, take names, and play in pairs.
In an orderly run the two registries of the server show a lobby at any moment, and every step of
every thread changes this lobby in the way that `lobbyChanges` reads off the state: not at all,
or by a few of the changes that a lobby allows.
-/

namespace UpsServer

open Framework Sender CommandManager

/-! ## The lobby that a state shows -/

/-- Two players sit at the same registered game. -/
def State.Opponents (s : State) (p q : PlayerRef) : Prop :=
  p ≠ q ∧ ∃ g ∈ s.games, (s.game g).Seats p ∧ (s.game g).Seats q

instance (s : State) (p q : PlayerRef) : Decidable (s.Opponents p q) :=
  inferInstanceAs (Decidable (_ ∧ _))

/-- The listed players, those of them who have a name, and the games. -/
def State.lobby (s : State) (tidy : Tidy s) (names : UniqueNames s) :
    Lobby PlayerRef ByteString where
  Member p := p ∈ s.players
  Named p n := p ∈ s.players ∧ (s.player p).name = n ∧ n ≠ []
  Paired := s.Opponents
  member_of_named h := h.1
  name_unique h h' := h.2.1.symm.trans h'.2.1
  owner_unique h h' := by
    obtain ⟨hp, rfl, hne⟩ := h
    exact names.eq_of_name hp h'.1 h'.2.1.symm hne
  named_of_paired h := by
    obtain ⟨_, g, hg, hseat, _⟩ := h
    exact ⟨_, tidy.seatsListed g hg _ hseat, rfl, tidy.seatsNamed g hg _ hseat⟩
  paired_symm h := by
    obtain ⟨hne, g, hg, hp, hq⟩ := h
    exact ⟨hne.symm, g, hg, hq, hp⟩
  paired_irrefl p h := h.1 rfl
  partner_unique h h' := by
    obtain ⟨hne, g, hg, hp, hq⟩ := h
    obtain ⟨hne', g', hg', hp', hr⟩ := h'
    obtain rfl := tidy.oneGame g hg g' hg' _ hp hp'
    unfold Game.Seats at hp hq hr
    grind

/-- What the end of the connection on a socket changes: a player in a game stays listed. -/
def disconnectionChanges (s : State) (fd : Int) : List (Change PlayerRef ByteString) :=
  match Server.getPlayerBySocket s fd with
  | none => []
  | some pl => if (s.player pl).inGame then [] else [.leave pl]

/-- What a registration changes. The empty name is no name. -/
def registrationChanges (s : State) (p : PlayerRef) (name : ByteString) :
    List (Change PlayerRef ByteString) :=
  if isUsernameAvailible s name ∧ p ∈ s.players then
    if name = [] then [.unname p] else [.call p name]
  else []

/-- What a reconnection changes. -/
def reconnectionChanges (s : State) (newP : PlayerRef) (name : ByteString) :
    List (Change PlayerRef ByteString) :=
  match Server.getPlayerByName s name with
  | none => []
  | some oldP => if (s.player oldP).lost then [.replace oldP newP] else []

/-- What an acceptance changes. -/
def acceptChanges (s : State) (asked : PlayerRef) : List (Change PlayerRef ByteString) :=
  match (s.player asked).askedForJoiningBy with
  | none => []
  | some asking =>
    if asking ≠ asked ∧ (s.player asking).joiningPlayer.isSome then [.pair asking asked] else []

/-- What a move changes. -/
def moveChanges (s : State) (p : PlayerRef) (m : Move) : List (Change PlayerRef ByteString) :=
  match GameManager.getGameByPlayer s p with
  | none => []
  | some game =>
    if isGameWon (m.boardIn s game) m.cell then [.part p (GameManager.otherSeat s game p)] else []

/-- What a logout changes: the game ends and a lost opponent leaves, or the sender itself does. -/
def logoutChanges (s : State) (p : PlayerRef) : List (Change PlayerRef ByteString) :=
  if (s.player p).inGame then
    match GameManager.getGameByPlayer s p with
    | none => []
    | some game =>
      let oponent := GameManager.otherSeat s game p
      if (s.player oponent).lost then [.part p oponent, .leave oponent] else [.part p oponent]
  else disconnectionChanges s (s.player p).socket

/-- What the mark of a lost player changes: when both are lost, the game ends and both leave. -/
def lossChanges (s : State) (p : PlayerRef) : List (Change PlayerRef ByteString) :=
  match GameManager.getGameByPlayer s p with
  | none => []
  | some game =>
    let oponent := GameManager.otherSeat s game p
    if (s.player oponent).lost then [.part p oponent, .leave oponent, .leave p] else []

/-- What handling a command changes. -/
def commandChanges (s : State) (mess : Message) : List (Change PlayerRef ByteString) :=
  match mess.player with
  | none => []
  | some p =>
    if mess.header = H_C_NEW_PL then registrationChanges s p (mess.firstName.getD [])
    else if mess.header = H_C_PL_RECONN then reconnectionChanges s p (mess.firstName.getD [])
    else if mess.header = H_C_PL_LIST_REQ then []
    else if mess.header = H_C_PL_LOGOUT then logoutChanges s p
    else if mess.header = H_C_JOIN_PLAYER then []
    else if mess.header = H_C_DECLIN_JOIN then []
    else if mess.header = H_C_ACCEPT_JOIN then acceptChanges s p
    else if mess.header = H_C_GAME_MOVE then
      match mess.move with
      | some m => moveChanges s p m
      | none => []
    else if mess.header = INTERNAL_PL_LOST then lossChanges s p
    else []

/-- How a step changes the lobby. -/
def lobbyChanges (s : State) : Action → List (Change PlayerRef ByteString)
  | .accept _ _ => [.enter s.playerHeap.next]
  | .runCommand =>
    match s.commandQueue with
    | [] => []
    | command :: rest => commandChanges (s.withCommands rest) command.message
  | a =>
    match disconnects s a with
    | some (u, fd) => disconnectionChanges u fd
    | none => []

/-! ## Who plays whom -/

section Opponents

variable {s t : State}

/-- Opponents depend on the registered games and their seats only. -/
theorem opponents_same (games : t.games = s.games)
    (seats : ∀ g ∈ s.games, ∀ p, (t.game g).Seats p ↔ (s.game g).Seats p) (p q : PlayerRef) :
    t.Opponents p q ↔ s.Opponents p q := by
  unfold State.Opponents
  rw [games]
  refine and_congr_right fun _ => exists_congr fun g => and_congr_right fun hg => ?_
  rw [seats g hg, seats g hg]

/-- A player in no game has no seat. -/
theorem Tidy.ne_of_free (tidy : Tidy s) {g : GameRef} {p q : PlayerRef} (hg : g ∈ s.games)
    (seat : (s.game g).Seats q) (free : (s.player p).inGame = false) : q ≠ p := by
  rintro rfl
  have hflag := (tidy.flag q (tidy.seatsListed g hg q seat)).mpr ⟨g, hg, seat⟩
  rw [free] at hflag
  cases hflag

/-- The game of `p` and `o` is removed. -/
theorem Tidy.opponents_finish (tidy : Tidy s) {g : GameRef} {p o : PlayerRef} (hg : g ∈ s.games)
    (seats : ∀ q, (s.game g).Seats q ↔ q = p ∨ q = o)
    (games : ∀ x, x ∈ t.games ↔ x ∈ s.games ∧ x ≠ g)
    (p1 : ∀ x, (t.game x).p1 = (s.game x).p1) (p2 : ∀ x, (t.game x).p2 = (s.game x).p2)
    (a b : PlayerRef) : t.Opponents a b ↔ s.Opponents a b ∧ a ≠ p ∧ a ≠ o := by
  have hseats : ∀ x q, (t.game x).Seats q ↔ (s.game x).Seats q := fun x q => by
    rw [Game.Seats, Game.Seats, p1, p2]
  constructor
  · rintro ⟨hab, x, hx, ha, hb⟩
    obtain ⟨hx, hne⟩ := (games x).mp hx
    rw [hseats] at ha hb
    refine ⟨⟨hab, x, hx, ha, hb⟩, ?_⟩
    -- whoever sits in `g` sits nowhere else
    rw [← not_or, ← seats]
    exact fun h => hne (tidy.oneGame x hx g hg a ha h)
  · rintro ⟨⟨hab, x, hx, ha, hb⟩, hnot⟩
    rw [← not_or, ← seats] at hnot
    have hne : x ≠ g := fun heq => hnot (heq ▸ ha)
    exact ⟨hab, x, (games x).mpr ⟨hx, hne⟩, (hseats x a).mpr ha, (hseats x b).mpr hb⟩

/-- The seat of `oldP` goes to `newP`. -/
theorem Tidy.opponents_replace (tidy : Tidy s) {g : GameRef} {newP oldP : PlayerRef}
    (hg : g ∈ s.games) (seat : (s.game g).Seats oldP)
    (free : (s.player newP).inGame = false) (games : t.games = s.games)
    (seats : ∀ q, (t.game g).Seats q ↔ q = newP ∨ ((s.game g).Seats q ∧ q ≠ oldP))
    (others : ∀ x ≠ g, t.game x = s.game x) (p q : PlayerRef) :
    t.Opponents p q ↔ (p = newP ∧ s.Opponents oldP q) ∨ (q = newP ∧ s.Opponents p oldP) ∨
      (s.Opponents p q ∧ p ≠ oldP ∧ q ≠ oldP) := by
  have once : ∀ x ∈ s.games, (s.game x).Seats oldP → x = g := fun x hx h =>
    tidy.oneGame x hx g hg oldP h seat
  have hseats : ∀ x ∈ s.games, ∀ q, (t.game x).Seats q
      ↔ (q = newP ∧ x = g) ∨ ((s.game x).Seats q ∧ q ≠ oldP) := fun x hx q => by
    by_cases hxg : x = g
    · rw [hxg, seats]
      simp
    · rw [others x hxg]
      simp only [hxg, and_false, false_or, iff_self_and]
      exact fun h heq => hxg (once x hx (heq ▸ h))
  constructor
  · rintro ⟨hpq, x, hx, hp, hq⟩
    rw [games] at hx
    rw [hseats x hx] at hp hq
    rcases hp with ⟨rfl, rfl⟩ | ⟨hp, hpold⟩ <;> rcases hq with ⟨rfl, hqx⟩ | ⟨hq, hqold⟩
    · exact absurd rfl hpq
    · exact Or.inl ⟨rfl, hqold.symm, x, hx, seat, hq⟩
    · exact Or.inr (Or.inl ⟨rfl, hpold, x, hx, hp, hqx ▸ seat⟩)
    · exact Or.inr (Or.inr ⟨⟨hpq, x, hx, hp, hq⟩, hpold, hqold⟩)
  · rintro (⟨rfl, hne, x, hx, hold, hq⟩ | ⟨rfl, hne, x, hx, hp, hold⟩ |
      ⟨⟨hpq, x, hx, hp, hq⟩, hpold, hqold⟩)
    · exact ⟨(tidy.ne_of_free hx hq free).symm, x, games ▸ hx,
        (hseats x hx _).mpr (Or.inl ⟨rfl, once x hx hold⟩),
        (hseats x hx _).mpr (Or.inr ⟨hq, hne.symm⟩)⟩
    · exact ⟨tidy.ne_of_free hx hp free, x, games ▸ hx,
        (hseats x hx _).mpr (Or.inr ⟨hp, hne⟩),
        (hseats x hx _).mpr (Or.inl ⟨rfl, once x hx hold⟩)⟩
    · exact ⟨hpq, x, games ▸ hx, (hseats x hx _).mpr (Or.inr ⟨hp, hpold⟩),
        (hseats x hx _).mpr (Or.inr ⟨hq, hqold⟩)⟩

/-- The seats of a game that is handed over. -/
theorem Tidy.seats_handedOver_iff (tidy : Tidy s) (sound : Sound s) {newP oldP : PlayerRef}
    {game : GameRef} (before : s.ListedBefore oldP newP)
    (free : (s.player newP).inGame = false)
    (playing : GameManager.getGameByPlayer (takeOverName s newP oldP) oldP = some game)
    (q : PlayerRef) : ((handedOver s newP oldP game).game game).Seats q
      ↔ q = newP ∨ ((s.game game).Seats q ∧ q ≠ oldP) := by
  obtain ⟨hold, -, -⟩ := Tidy.listed_of_before sound before
  obtain ⟨hg, hseat⟩ := tidy.seats_of_takeOver sound before free playing
  have hdistinct := tidy.seatsDistinct game hg
  -- the first seat is taken exactly when it is the lost player's
  simp only [handedOver, takeOverSeat]
  split
  · rename_i hfirst
    rw [name_takeOverName _ _ _ newP, if_pos rfl] at hfirst
    have hp1 := tidy.eq_of_shared_name sound hold free hg (Or.inl rfl) hfirst
    rw [State.game_modifyGame_self]
    simp only [Game.Seats, Game.setPlayer1, game_takeOverName]
    grind
  · rename_i hsecond
    rw [name_takeOverName _ _ _ newP, if_pos rfl] at hsecond
    have hp1 : (s.game game).p1 ≠ oldP := fun heq => hsecond (by simp [heq])
    have hp2 := hseat.resolve_left hp1
    rw [State.game_modifyGame_self]
    simp only [Game.Seats, Game.setPlayer2, game_takeOverName]
    grind

end Opponents

/-! ## One change after the other -/

section Changes

variable {s t : State} (tidy : Tidy s) (names : UniqueNames s) (tidy' : Tidy t)
  (names' : UniqueNames t)

/-- A player in no game plays nobody. -/
theorem single_of_free {p : PlayerRef} (free : (s.player p).inGame = false) :
    (s.lobby tidy names).Single p := by
  rintro q ⟨_, g, hg, hseat, _⟩
  exact tidy.ne_of_free hg hseat free rfl

theorem lobby_same (players : t.players = s.players) (games : t.games = s.games)
    (name : ∀ p ∈ s.players, (t.player p).name = (s.player p).name)
    (seats : ∀ g ∈ s.games, ∀ p, (t.game g).Seats p ↔ (s.game g).Seats p) :
    t.lobby tidy' names' = s.lobby tidy names := by
  refine Lobby.eq_of_iff (fun p => ?_) (fun p n => ?_) (opponents_same games seats)
  · show p ∈ t.players ↔ p ∈ s.players
    rw [players]
  · show p ∈ t.players ∧ _ ∧ _ ↔ p ∈ s.players ∧ _ ∧ _
    rw [players]
    exact and_congr_right fun hp => by rw [name p hp]

theorem lobby_of_sameWorld (same : SameWorld s t) :
    t.lobby tidy' names' = s.lobby tidy names :=
  lobby_same tidy names tidy' names' same.players same.games (fun p _ => same.name p)
    fun g _ p => by rw [same.game]

theorem lobby_addPlayer (hreg : Registry s) (fd : Int) (nameSet : Bool)
    (tidy' : Tidy (Server.addPlayer s fd nameSet))
    (names' : UniqueNames (Server.addPlayer s fd nameSet)) :
    (Server.addPlayer s fd nameSet).lobby tidy' names'
      = (s.lobby tidy names).enter s.playerHeap.next := by
  refine Lobby.eq_of_iff (fun p => ?_) (fun p n => ?_) fun p q => Iff.rfl
  · exact List.mem_append.trans (or_congr_right List.mem_singleton)
  · show p ∈ s.players ++ [s.playerHeap.next] ∧ _ ∧ _ ↔ p ∈ s.players ∧ _ ∧ _
    rw [List.mem_append, List.mem_singleton, Server.player_addPlayer]
    by_cases hp : p = s.playerHeap.next
    · -- the newcomer has no name, and was not listed before
      subst hp
      have hnew : s.playerHeap.next ∉ s.players := fun h =>
        Nat.lt_irrefl _ (hreg.playersAllocated _ h)
      have hnameless : ([] : ByteString) = n → ¬ n ≠ [] := fun h h' => h' h.symm
      rw [if_pos rfl]
      exact ⟨fun h => (hnameless h.2.1 h.2.2).elim, fun h => (hnew h.1).elim⟩
    · rw [if_neg hp]
      simp [hp]

/-- A listed player takes the name `n`. -/
theorem lobby_call {p : PlayerRef} {n : ByteString} (listed : p ∈ s.players) (given : n ≠ [])
    (free : (s.lobby tidy names).Free n) (players : t.players = s.players)
    (games : t.games = s.games) (game : ∀ g, t.game g = s.game g)
    (name : ∀ q, (t.player q).name = if q = p then n else (s.player q).name) :
    t.lobby tidy' names' = (s.lobby tidy names).call p n listed free := by
  refine Lobby.eq_of_iff (fun q => ?_) (fun q k => ?_)
    (opponents_same games fun g _ q => by rw [game])
  · show q ∈ t.players ↔ q ∈ s.players
    rw [players]
  · show q ∈ t.players ∧ _ ∧ _ ↔ (q = p ∧ k = n) ∨ (q ≠ p ∧ q ∈ s.players ∧ _ ∧ _)
    rw [players, name]
    by_cases hq : q = p
    · subst hq
      simp only [listed, if_true, true_and, ne_eq, not_true_eq_false, false_and, or_false]
      constructor
      · rintro ⟨rfl, _⟩
        rfl
      · rintro rfl
        exact ⟨rfl, given⟩
    · simp [hq]

/-- A free player's name becomes the empty one. -/
theorem lobby_unname {p : PlayerRef} (single : (s.lobby tidy names).Single p)
    (players : t.players = s.players) (games : t.games = s.games)
    (game : ∀ g, t.game g = s.game g)
    (name : ∀ q, (t.player q).name = if q = p then [] else (s.player q).name) :
    t.lobby tidy' names' = (s.lobby tidy names).unname p single := by
  refine Lobby.eq_of_iff (fun q => ?_) (fun q k => ?_)
    (opponents_same games fun g _ q => by rw [game])
  · show q ∈ t.players ↔ q ∈ s.players
    rw [players]
  · show q ∈ t.players ∧ _ ∧ _ ↔ q ≠ p ∧ q ∈ s.players ∧ _ ∧ _
    rw [players, name]
    by_cases hq : q = p
    · simp only [hq, if_true, ne_eq, not_true_eq_false, false_and, iff_false, not_and, not_not]
      exact fun _ h => h.symm
    · simp [hq]

/-- A free player's entry is erased. -/
theorem lobby_leave {p : PlayerRef} (single : (s.lobby tidy names).Single p)
    (players : ∀ q, q ∈ t.players ↔ q ∈ s.players ∧ q ≠ p) (games : t.games = s.games)
    (game : ∀ g, t.game g = s.game g) (name : ∀ q, (t.player q).name = (s.player q).name) :
    t.lobby tidy' names' = (s.lobby tidy names).leave p single := by
  refine Lobby.eq_of_iff players (fun q k => ?_) (opponents_same games fun g _ q => by rw [game])
  show q ∈ t.players ∧ _ ∧ _ ↔ q ≠ p ∧ q ∈ s.players ∧ _ ∧ _
  rw [players, name, and_assoc, and_left_comm]

/-- Two free players get a new game. -/
theorem lobby_pair {asking asked : PlayerRef} (hreg : Registry s)
    (ready : (s.lobby tidy names).Ready asking) (ready' : (s.lobby tidy names).Ready asked)
    (distinct : asking ≠ asked) (players : t.players = s.players)
    (games : t.games = s.games ++ [s.gameHeap.next])
    (p1 : ∀ g, (t.game g).p1 = if g = s.gameHeap.next then asking else (s.game g).p1)
    (p2 : ∀ g, (t.game g).p2 = if g = s.gameHeap.next then asked else (s.game g).p2)
    (name : ∀ q, (t.player q).name = (s.player q).name) :
    t.lobby tidy' names' = (s.lobby tidy names).pair asking asked ready ready' distinct := by
  refine Lobby.eq_of_iff (fun q => ?_) (fun q k => ?_) fun p q => ?_
  · show q ∈ t.players ↔ q ∈ s.players
    rw [players]
  · show q ∈ t.players ∧ _ ∧ _ ↔ q ∈ s.players ∧ _ ∧ _
    rw [players, name]
  · have hne : ∀ g ∈ s.games, g ≠ s.gameHeap.next := fun g hg heq =>
      Nat.lt_irrefl _ (heq ▸ hreg.gamesAllocated g hg)
    have hold : ∀ g ∈ s.games, ∀ p, (t.game g).Seats p ↔ (s.game g).Seats p := fun g hg p => by
      rw [Game.Seats, Game.Seats, p1, p2, if_neg (hne g hg), if_neg (hne g hg)]
    have hnew : ∀ p, (t.game s.gameHeap.next).Seats p ↔ p = asking ∨ p = asked := fun p => by
      rw [Game.Seats, p1, p2, if_pos rfl, if_pos rfl, eq_comm, @eq_comm _ asked]
    show t.Opponents p q ↔ s.Opponents p q ∨ (p = asking ∧ q = asked) ∨ (p = asked ∧ q = asking)
    unfold State.Opponents
    constructor
    · rintro ⟨hpq, g, hg, hp, hq⟩
      rw [games, List.mem_append, List.mem_singleton] at hg
      rcases hg with hg | rfl
      · exact Or.inl ⟨hpq, g, hg, (hold g hg p).mp hp, (hold g hg q).mp hq⟩
      · rw [hnew] at hp hq
        grind
    · rintro (⟨hpq, g, hg, hp, hq⟩ | hpair)
      · exact ⟨hpq, g, by rw [games]; exact List.mem_append_left _ hg, (hold g hg p).mpr hp,
          (hold g hg q).mpr hq⟩
      · refine ⟨?_, s.gameHeap.next, by rw [games]; simp, ?_, ?_⟩
        · rcases hpair with ⟨rfl, rfl⟩ | ⟨rfl, rfl⟩
          · exact distinct
          · exact distinct.symm
        · rw [hnew]
          exact hpair.imp And.left And.left
        · rw [hnew]
          exact (hpair.imp And.right And.right).symm

/-- A game ends, and its players stay. -/
theorem lobby_part {p o : PlayerRef} (paired : (s.lobby tidy names).Paired p o)
    (players : t.players = s.players) (name : ∀ q, (t.player q).name = (s.player q).name)
    (opponents : ∀ a b, t.Opponents a b ↔ s.Opponents a b ∧ a ≠ p ∧ a ≠ o) :
    t.lobby tidy' names' = (s.lobby tidy names).part p o paired := by
  refine Lobby.eq_of_iff (fun q => ?_) (fun q k => ?_) opponents
  · show q ∈ t.players ↔ q ∈ s.players
    rw [players]
  · show q ∈ t.players ∧ _ ∧ _ ↔ q ∈ s.players ∧ _ ∧ _
    rw [players, name]

/-- A game ends, and its second player leaves. -/
theorem lobby_partLeave {p o : PlayerRef} (paired : (s.lobby tidy names).Paired p o)
    (players : ∀ q, q ∈ t.players ↔ q ∈ s.players ∧ q ≠ o)
    (name : ∀ q, (t.player q).name = (s.player q).name)
    (opponents : ∀ a b, t.Opponents a b ↔ s.Opponents a b ∧ a ≠ p ∧ a ≠ o) :
    t.lobby tidy' names'
      = ((s.lobby tidy names).part p o paired).leave o (Lobby.single_part_right paired) := by
  refine Lobby.eq_of_iff players (fun q k => ?_) opponents
  show q ∈ t.players ∧ _ ∧ _ ↔ q ≠ o ∧ q ∈ s.players ∧ _ ∧ _
  rw [players, name, and_assoc, and_left_comm]

/-- A game ends, and both players leave. -/
theorem lobby_partBoth {p o : PlayerRef} (paired : (s.lobby tidy names).Paired p o)
    (players : ∀ q, q ∈ t.players ↔ q ∈ s.players ∧ ¬ (q = p ∨ q = o))
    (name : ∀ q, (t.player q).name = (s.player q).name)
    (opponents : ∀ a b, t.Opponents a b ↔ s.Opponents a b ∧ a ≠ p ∧ a ≠ o) :
    t.lobby tidy' names'
      = (((s.lobby tidy names).part p o paired).leave o (Lobby.single_part_right paired)).leave p
        (Lobby.single_part_left paired) := by
  refine Lobby.eq_of_iff (fun q => ?_) (fun q k => ?_) opponents
  · show q ∈ t.players ↔ (q ∈ s.players ∧ q ≠ o) ∧ q ≠ p
    rw [players, not_or, and_assoc, and_comm (a := q ≠ p)]
  · show q ∈ t.players ∧ _ ∧ _ ↔ q ≠ p ∧ q ≠ o ∧ q ∈ s.players ∧ _ ∧ _
    rw [players, name, not_or]
    tauto

/-- The seat of `oldP` goes to `newP`, who gets its name, and `oldP` leaves. -/
theorem lobby_replace {newP oldP : PlayerRef} (hold : oldP ∈ s.players)
    (listed : newP ∈ s.players) (single : (s.lobby tidy names).Single newP)
    (distinct : newP ≠ oldP) (players : ∀ q, q ∈ t.players ↔ q ∈ s.players ∧ q ≠ oldP)
    (name : ∀ q, (t.player q).name
      = if q = newP then (s.player oldP).name else (s.player q).name)
    (opponents : ∀ p q, t.Opponents p q ↔ (p = newP ∧ s.Opponents oldP q) ∨
      (q = newP ∧ s.Opponents p oldP) ∨ (s.Opponents p q ∧ p ≠ oldP ∧ q ≠ oldP)) :
    t.lobby tidy' names' = (s.lobby tidy names).replace oldP newP listed single distinct := by
  refine Lobby.eq_of_iff players (fun q k => ?_) opponents
  show q ∈ t.players ∧ _ ∧ _
    ↔ (q = newP ∧ oldP ∈ s.players ∧ _ ∧ _) ∨ (q ≠ newP ∧ q ≠ oldP ∧ q ∈ s.players ∧ _ ∧ _)
  rw [players, name]
  by_cases hq : q = newP
  · simp [hq, listed, hold, distinct]
  · simp only [hq, if_false, false_and, ne_eq, not_false_eq_true, true_and, false_or]
    tauto

end Changes

/-! ## Handling a command -/

section Handlers

variable {s t : State} {mess : Message} {p : PlayerRef} (tidy : Tidy s) (sound : Sound s)
  (tidy' : Tidy t) (names' : UniqueNames t)

theorem disconnection_refines {fd : Int} (closed : Disconnection s fd t) :
    Lobby.Steps (s.lobby tidy sound.names) (disconnectionChanges s fd) (t.lobby tidy' names') := by
  cases closed with
  | @left pl found free =>
    have hsingle := single_of_free tidy sound.names free
    simp only [disconnectionChanges, found, free, Bool.false_eq_true, if_false]
    rw [lobby_leave tidy sound.names tidy' names' hsingle
      (sound.connections.mem_erasedBySocket_iff sound.registry found) rfl (fun _ => rfl) (by simp)]
    exact (Lobby.Step.leave (Server.getPlayerBySocket_eq_some found).1 hsingle).steps
  | @stays pl found playing =>
    simp only [disconnectionChanges, found, playing, if_true]
    rw [lobby_same tidy sound.names tidy' names' rfl rfl (by simp) fun _ _ _ => Iff.rfl]
    exact .nil

theorem registration_refines (sender : mess.player = some p) (header : mess.header = H_C_NEW_PL)
    (fits : FitsSender s mess p) (h : proceedNewPlayerConnection s mess = .ok t) :
    Lobby.Steps (s.lobby tidy sound.names) (registrationChanges s p (mess.firstName.getD []))
      (t.lobby tidy' names') := by
  unfold proceedNewPlayerConnection at h
  obtain ⟨username, hpayload, h⟩ := bind_eq_ok_iff.mp h
  have hname := payloadString_eq_ok_iff.mp hpayload
  rw [hname, Option.getD_some]
  split at h
  · rename_i hunused
    rw [sender, deref_some, ok_bind] at h
    obtain ⟨answer, hsent, rfl⟩ := registerMessage_compose_eq_ok h
    have hrenamed : ∀ q, ((((s.modifyPlayer p (Player.setName username)).modifyPlayer p
        (Player.setAvailible true)).pushOut answer).player q).name
          = if q = p then username else (s.player q).name := fun q => by simp
    by_cases hlisted : p ∈ s.players
    · rw [registrationChanges, if_pos ⟨hunused, hlisted⟩]
      by_cases hempty : username = []
      · -- a player in a game would not give up its name
        subst hempty
        have hfree : (s.player p).inGame = false :=
          Bool.eq_false_of_not_eq_true fun hplaying => fits.named header hplaying hname
        have hsingle := single_of_free tidy sound.names hfree
        rw [if_pos rfl, lobby_unname tidy sound.names tidy' names' hsingle rfl rfl (fun _ => rfl)
          hrenamed]
        exact (Lobby.Step.unname hlisted hsingle).steps
      · have hfree : (s.lobby tidy sound.names).Free username := by
          rintro q ⟨hq, heq, _⟩
          have hother : ∀ r ∈ s.players, (s.player r).name ≠ username := by
            simpa [isUsernameAvailible] using hunused
          exact hother q hq heq
        rw [if_neg hempty, lobby_call tidy sound.names tidy' names' hlisted hempty hfree rfl rfl
          (fun _ => rfl) hrenamed]
        exact (Lobby.Step.call hlisted hfree).steps
    · -- nobody sees the name of a player who is not listed
      have hkept : ∀ q ∈ s.players, ((((s.modifyPlayer p (Player.setName username)).modifyPlayer p
          (Player.setAvailible true)).pushOut answer).player q).name = (s.player q).name := by
        intro q hq
        have hne : q ≠ p := fun heq => hlisted (heq ▸ hq)
        rw [hrenamed, if_neg hne]
      rw [registrationChanges, if_neg fun h => hlisted h.2,
        lobby_same tidy sound.names tidy' names' rfl rfl hkept fun _ _ _ => Iff.rfl]
      exact .nil
  · rename_i hused
    obtain ⟨_, answer, _, _, rfl⟩ := registerMessage_eq_ok h
    rw [registrationChanges, if_neg fun h => hused h.1]
    exact .nil

theorem reconnection_refines (sender : mess.player = some p) (header : mess.header = H_C_PL_RECONN)
    (fits : FitsSender s mess p) (h : proceedPlayerReconnection s mess = .ok t) :
    Lobby.Steps (s.lobby tidy sound.names) (reconnectionChanges s p (mess.firstName.getD []))
      (t.lobby tidy' names') := by
  unfold proceedPlayerReconnection at h
  obtain ⟨name, hpayload, h⟩ := bind_eq_ok_iff.mp h
  have hname := payloadString_eq_ok_iff.mp hpayload
  rw [hname, Option.getD_some]
  cases hfound : Server.getPlayerByName s name with
  | none =>
    simp only [hfound] at h
    obtain ⟨_, answer, _, _, rfl⟩ := registerMessage_eq_ok h
    simp only [reconnectionChanges, hfound]
    exact .nil
  | some oldP =>
    simp only [hfound] at h
    simp only [reconnectionChanges, hfound]
    split at h
    · rename_i hlost
      rw [sender, deref_some, ok_bind] at h
      obtain ⟨game, onTurn, oponent, first, second, players, hplaying, _, _, _, _, herased, rfl⟩ :=
        reconnect_eq_ok h
      obtain ⟨before, free⟩ := fits.reconnect header name hname oldP hfound hlost
      obtain ⟨hold, hnew, hne⟩ := Tidy.listed_of_before sound before
      obtain ⟨hg, hseat⟩ := tidy.seats_of_takeOver sound before free hplaying
      have hsingle := single_of_free tidy sound.names free
      have hpaired : ∃ q, (s.lobby tidy sound.names).Paired oldP q := by
        have hdistinct := tidy.seatsDistinct game hg
        rcases hseat with hseat | hseat
        · exact ⟨_, fun heq => hdistinct (hseat.trans heq), game, hg, Or.inl hseat, Or.inr rfl⟩
        · exact ⟨_, fun heq => hdistinct (hseat.trans heq).symm, game, hg, Or.inr hseat,
            Or.inl rfl⟩
      obtain ⟨q, hpaired⟩ := hpaired
      rw [if_pos hlost, lobby_replace tidy sound.names tidy' names' hold hnew hsingle hne
        (tidy.mem_erasedOld_iff sound before free hplaying herased) (by simp)
        (tidy.opponents_replace hg hseat free (by simp)
          (tidy.seats_handedOver_iff sound before free hplaying)
          fun x hx => game_handedOver_of_ne s p oldP game x hx)]
      exact (Lobby.Step.replace hpaired hnew hsingle hne).steps
    · rename_i hpresent
      obtain ⟨_, answer, _, _, rfl⟩ := registerMessage_eq_ok h
      rw [if_neg hpresent]
      exact .nil

theorem ready_of_free (free : s.Free p) : (s.lobby tidy sound.names).Ready p :=
  ⟨⟨(s.player p).name, free.1, rfl, free.2.1⟩, single_of_free tidy sound.names free.2.2⟩

theorem acceptance_refines (sender : mess.player = some p) (header : mess.header = H_C_ACCEPT_JOIN)
    (fits : FitsSender s mess p) (h : proceedAcceptJoin s mess = .ok t) :
    Lobby.Steps (s.lobby tidy sound.names) (acceptChanges s p) (t.lobby tidy' names') := by
  unfold proceedAcceptJoin at h
  rw [sender, deref_some, ok_bind] at h
  obtain ⟨asking, hasking, h⟩ := bind_eq_ok_iff.mp h
  have haskedBy := deref_eq_ok_iff.mp hasking
  simp only [acceptChanges, haskedBy]
  dsimp only at h
  -- a player who accepts its own request has just cleared it
  have hwaits : ((((clearRequest s p).modifyPlayer asking (Player.setAvailible false)).modifyPlayer
      p (Player.setAvailible false)).player asking).joiningPlayer.isSome = true ↔
        asking ≠ p ∧ (s.player asking).joiningPlayer.isSome = true := by
    by_cases heq : asking = p
    · simp [clearRequest, heq]
    · simp [clearRequest, heq, State.player_modifyPlayer_of_ne _ _ heq]
  split at h
  · rename_i hwaiting
    have hwaiting := hwaits.mp hwaiting
    obtain ⟨free, free'⟩ := fits.free header asking haskedBy hwaiting.1 hwaiting.2
    have hready := ready_of_free tidy sound free
    have hready' := ready_of_free tidy sound free'
    obtain ⟨first, second, -, -, rfl⟩ := startGame_eq_ok h
    rw [if_pos hwaiting, lobby_pair tidy sound.names tidy' names' sound.registry hready hready'
      hwaiting.1 (by simp [gameStarted, clearRequest]) (by simp [gameStarted, clearRequest])
      (by simp) (by simp) (by simp)]
    exact (Lobby.Step.pair hready hready' hwaiting.1).steps
  · rename_i hgone
    rw [if_neg fun h => hgone (hwaits.mpr h)]
    have hsame : t.players = s.players ∧ t.games = s.games ∧
        (∀ q, (t.player q).name = (s.player q).name) ∧ ∀ g, t.game g = s.game g := by
      split at h
      · obtain ⟨answer, _, rfl⟩ := registerMessage_compose_eq_ok h
        exact ⟨rfl, rfl, by simp [clearRequest], fun _ => rfl⟩
      · rw [← Except.ok.inj h]
        exact ⟨rfl, rfl, by simp [clearRequest], fun _ => rfl⟩
    obtain ⟨players, games, name, game⟩ := hsame
    rw [lobby_same tidy sound.names tidy' names' players games (fun q _ => name q)
      fun g _ q => by rw [game]]
    exact .nil

/-- The two players of the game that is found for a listed player are opponents. -/
theorem paired_of_lookup {game : GameRef} (listed : p ∈ s.players)
    (playing : GameManager.getGameByPlayer s p = some game) :
    (s.lobby tidy sound.names).Paired p (GameManager.otherSeat s game p) := by
  obtain ⟨hg, hne, hseats⟩ := tidy.lookup sound listed playing
  exact ⟨hne.symm, game, hg, (hseats p).mpr (Or.inl rfl), (hseats _).mpr (Or.inr rfl)⟩

theorem move_refines (sender : mess.player = some p) (header : mess.header = H_C_GAME_MOVE)
    (fits : FitsSender s mess p) (h : processGameMove s mess = .ok t) :
    ∃ m, mess.move = some m ∧
      Lobby.Steps (s.lobby tidy sound.names) (moveChanges s p m) (t.lobby tidy' names') := by
  obtain ⟨q, game, m, hq, hplaying, hm, -, heffect⟩ := processGameMove_moveEffect h
  obtain rfl : q = p := Option.some.inj (hq.symm.trans sender)
  have hlisted := fits.move header
  have hpaired := paired_of_lookup tidy sound hlisted hplaying
  obtain ⟨hg, _, hseats⟩ := tidy.lookup sound hlisted hplaying
  refine ⟨m, hm, ?_⟩
  simp only [moveChanges, hplaying]
  cases heffect with
  | won closes =>
    rw [if_pos closes, lobby_part tidy sound.names tidy' names' hpaired rfl (by simp)
      (tidy.opponents_finish hg hseats (sound.registry.mem_deleted_iff hg) (by simp [freeBoth])
        (by simp [freeBoth]))]
    exact (Lobby.Step.part hpaired).steps
  | passed stays =>
    rw [if_neg (by simp [stays]), lobby_same tidy sound.names tidy' names' rfl rfl (by simp)
      fun g _ q => by simp [Game.Seats]]
    exact .nil

theorem logout_refines (sender : mess.player = some p) (header : mess.header = H_C_PL_LOGOUT)
    (fits : FitsSender s mess p) (h : proceedPlayerLogout s mess = .ok t) :
    Lobby.Steps (s.lobby tidy sound.names) (logoutChanges s p) (t.lobby tidy' names') := by
  unfold proceedPlayerLogout at h
  rw [sender, deref_some, ok_bind] at h
  unfold logoutChanges
  split at h
  · rename_i hinGame
    rw [if_pos hinGame]
    unfold proceedGameEnding at h
    rw [sender, deref_some, ok_bind] at h
    obtain ⟨game, hgame, h⟩ := bind_eq_ok_iff.mp h
    have hplaying := deref_eq_ok_iff.mp hgame
    have hlisted := fits.logout header hinGame
    have hpaired := paired_of_lookup tidy sound hlisted hplaying
    obtain ⟨hg, hne, hseats⟩ := tidy.lookup sound hlisted hplaying
    simp only [hplaying]
    dsimp only at h
    split at h
    · -- the lost opponent leaves the list
      rename_i habsent
      obtain ⟨_, herase, h⟩ := bind_eq_ok_iff.mp h
      obtain ⟨players, herased, rfl⟩ := Server.deletePlayer_eq_ok herase
      obtain rfl := GameManager.deleteGame_eq_ok h hg rfl (fun _ => rfl)
      rw [if_pos habsent, lobby_partLeave tidy sound.names tidy' names' hpaired
        (tidy.mem_erasedOponent_iff sound hlisted hplaying rfl herased) (by simp)
        (tidy.opponents_finish hg hseats (sound.registry.mem_deleted_iff hg) (by simp) (by simp))]
      have hmember := tidy.seatsListed game hg _ ((hseats _).mpr (Or.inr rfl))
      exact .cons (.part hpaired) (Lobby.Step.leave hmember _).steps
    · rename_i hpresent
      obtain ⟨_, hinfo, h⟩ := bind_eq_ok_iff.mp h
      obtain ⟨info, hsent, rfl⟩ := registerMessage_compose_eq_ok hinfo
      obtain rfl := GameManager.deleteGame_eq_ok h hg rfl (fun _ => rfl)
      rw [if_neg hpresent, lobby_part tidy sound.names tidy' names' hpaired rfl (by simp)
        (tidy.opponents_finish hg hseats (sound.registry.mem_deleted_iff hg) (by simp) (by simp))]
      exact (Lobby.Step.part hpaired).steps
  · rename_i hfree
    rw [if_neg hfree]
    exact disconnection_refines tidy sound tidy' names' (Server.disconnection_effect h)

theorem loss_refines (sender : mess.player = some p) (listed : p ∈ s.players)
    (h : proceedPlayerLost s mess = .ok t) :
    Lobby.Steps (s.lobby tidy sound.names) (lossChanges s p) (t.lobby tidy' names') := by
  unfold proceedPlayerLost at h
  rw [sender, deref_some, ok_bind] at h
  obtain ⟨game, hgame, h⟩ := bind_eq_ok_iff.mp h
  have hplaying := deref_eq_ok_iff.mp hgame
  have hpaired := paired_of_lookup tidy sound listed hplaying
  obtain ⟨hg, hne, hseats⟩ := tidy.lookup sound listed hplaying
  simp only [lossChanges, hplaying]
  dsimp only at h
  rw [State.player_modifyPlayer_of_ne _ _ hne] at h
  split at h
  · -- both are lost
    rename_i habsent
    obtain ⟨_, hdelete, h⟩ := bind_eq_ok_iff.mp h
    obtain rfl := GameManager.deleteGame_eq_ok hdelete hg rfl (fun _ => rfl)
    obtain ⟨_, herase, h⟩ := bind_eq_ok_iff.mp h
    obtain ⟨players, herased, rfl⟩ := Server.deletePlayer_eq_ok herase
    obtain ⟨players', herased', rfl⟩ := Server.deletePlayer_eq_ok h
    have hplayers := tidy.mem_erasedBoth_iff sound listed hplaying rfl
      (herased.congr rfl (by simp)) (herased'.congr rfl (by simp))
    rw [if_pos habsent, lobby_partBoth tidy sound.names tidy' names' hpaired
      (fun q => by rw [← hseats]; exact hplayers q) (by simp)
      (tidy.opponents_finish hg hseats (sound.registry.mem_deleted_iff hg) (by simp) (by simp))]
    have hmember := tidy.seatsListed game hg _ ((hseats _).mpr (Or.inr rfl))
    exact .cons (.part hpaired) (.cons (.leave hmember _)
      (Lobby.Step.leave (And.intro listed hne.symm) _).steps)
  · rename_i hpresent
    obtain ⟨info, hsent, rfl⟩ := registerMessage_compose_eq_ok h
    rw [if_neg hpresent, lobby_same tidy sound.names tidy' names' rfl rfl (by simp)
      fun _ _ _ => Iff.rfl]
    exact .nil

/-- Requests and refusals concern no name and no seat. -/
theorem lobby_of_request
    (header : mess.header ∈ [H_C_PL_LIST_REQ, H_C_JOIN_PLAYER, H_C_DECLIN_JOIN])
    (effect : Effect s mess t) : t.lobby tidy' names' = s.lobby tidy sound.names := by
  cases effect with
  | ignored | answered => rfl
  | asked | declined =>
    exact lobby_same tidy sound.names tidy' names' rfl rfl (by simp [clearRequest])
      fun _ _ _ => Iff.rfl
  | named given | reconnected given | started given | gone given | moved given | won given
  | ended given | endedLost given | disconnected given | missed given | bothLost given =>
    rw [given] at header
    exact absurd header (by decide)

/-- Handling a command that fits changes the lobby as the table says. -/
theorem dispatch_refines (fits : ∀ p ∈ mess.player, FitsSender s mess p)
    (lostSender : mess.header = INTERNAL_PL_LOST → ∀ p ∈ mess.player, p ∈ s.players)
    (h : dispatch s mess = .ok t) :
    Lobby.Steps (s.lobby tidy sound.names) (commandChanges s mess) (t.lobby tidy' names') := by
  have heffect := dispatch_effect h
  cases hplayer : mess.player with
  | none =>
    -- only an ignored message has no sender
    have hnone : commandChanges s mess = [] := by rw [commandChanges, hplayer]
    rw [hnone]
    cases heffect with
    | ignored => exact .nil
    | answered _ sender | named _ sender | reconnected _ sender | asked _ sender
    | started _ sender | gone _ sender | declined _ sender | moved _ sender | won _ sender
    | ended _ sender | endedLost _ sender | disconnected _ sender | missed _ sender
    | bothLost _ sender =>
      rw [hplayer] at sender
      cases sender
  | some p =>
    have hfits := fits p hplayer
    simp only [commandChanges, hplayer]
    unfold dispatch at h
    split_ifs at h ⊢ with h₁ h₂ h₃ h₄ h₅ h₆ h₇ h₈ h₉
    · exact registration_refines tidy sound tidy' names' hplayer h₁ hfits h
    · exact reconnection_refines tidy sound tidy' names' hplayer h₂ hfits h
    · rw [lobby_of_request tidy sound tidy' names' (by simp [h₃]) heffect]
      exact .nil
    · exact logout_refines tidy sound tidy' names' hplayer h₄ hfits h
    · rw [lobby_of_request tidy sound tidy' names' (by simp [h₅]) heffect]
      exact .nil
    · rw [lobby_of_request tidy sound tidy' names' (by simp [h₆]) heffect]
      exact .nil
    · exact acceptance_refines tidy sound tidy' names' hplayer h₇ hfits h
    · obtain ⟨m, hm, hsteps⟩ := move_refines tidy sound tidy' names' hplayer h₈ hfits h
      rw [hm]
      exact hsteps
    · exact loss_refines tidy sound tidy' names' hplayer (lostSender h₉ p hplayer) h
    · obtain rfl := Except.ok.inj h
      exact .nil

end Handlers

/-! ## Every orderly run -/

/-- The decoding of a packet ends a connection or leaves the lobby alone. -/
theorem resolvePacket_changes {s t : State} (exec : System.exec s .resolvePacket = .ok t) :
    (lobbyChanges s .resolvePacket = [] ∧ SameWorld s t) ∨
      ∃ u fd, Quiet s u ∧ lobbyChanges s .resolvePacket = disconnectionChanges u fd ∧
        Disconnection u fd t := by
  simp only [System.exec] at exec
  cases hstage : s.packetStage with
  | idle | resolved =>
    simp only [hstage] at exec
    obtain rfl := Except.ok.inj exec
    exact Or.inl ⟨by simp [lobbyChanges, disconnects, hstage], .of_eq rfl rfl rfl rfl rfl rfl⟩
  | popped packet =>
    simp only [hstage] at exec
    have hidle : Quiet s { s with packetStage := .idle } := ⟨.of_eq rfl rfl rfl rfl rfl rfl, rfl⟩
    rcases resolvePacket_eq_ok exec with ⟨mess, hdecoded, rfl⟩ | ⟨hdecoded, hinvalid⟩
    · exact Or.inl ⟨by simp [lobbyChanges, disconnects, hstage, hdecoded],
        .of_eq rfl rfl rfl rfl rfl rfl⟩
    · cases hfound : Server.getPlayerBySocket s packet.socket with
      | none =>
        have hidleFound : Server.getPlayerBySocket { s with packetStage := .idle } packet.socket
            = none := hfound
        simp only [PacketManager.countInvalid, hidleFound] at hinvalid
        obtain rfl := Except.ok.inj hinvalid
        exact Or.inl ⟨by simp [lobbyChanges, disconnects, hstage, hdecoded, hfound],
          hidle.toSameWorld⟩
      | some p =>
        have hidleFound : Server.getPlayerBySocket { s with packetStage := .idle } packet.socket
            = some p := hfound
        have hcount : ((countOne { s with packetStage := .idle } p).player p).bullshitMessages
            = (s.player p).bullshitMessages + 1 := by
          rw [countOne, State.player_modifyPlayer_self]
          rfl
        have hquiet := hidle.trans (quiet_countOne { s with packetStage := .idle } p)
        simp only [PacketManager.countInvalid, hidleFound] at hinvalid
        change (if 10 ≤ ((countOne { s with packetStage := .idle } p).player p).bullshitMessages
          then Server.proceedPlayerDisconnection (countOne { s with packetStage := .idle } p)
            packet.socket
          else .ok (countOne { s with packetStage := .idle } p)) = _ at hinvalid
        rw [hcount] at hinvalid
        split at hinvalid
        · rename_i hten
          -- the tenth invalid packet of the connection
          refine Or.inr ⟨_, packet.socket, hquiet, ?_, Server.disconnection_effect hinvalid⟩
          simp [lobbyChanges, disconnects, hstage, hdecoded, hfound, hten]
        · rename_i hfew
          obtain rfl := Except.ok.inj hinvalid
          exact Or.inl ⟨by simp [lobbyChanges, disconnects, hstage, hdecoded, hfound, hfew],
            hquiet.toSameWorld⟩

/-- The lobby of a state that an orderly run reaches. -/
def lobbyOf {s : State} (h : System.ReachableUnder Orderly s) :
    Lobby PlayerRef ByteString :=
  s.lobby (tidy_of_orderly h) (uniqueNames_of_reachable h.reachable)

/-- A step of an orderly run changes the lobby as the table says. -/
theorem exec_refines {s t : State} {a : Action} (h : System.ReachableUnder Orderly s)
    (enabled : System.Enabled s a) (orderly : Orderly s a) (exec : System.exec s a = .ok t)
    (h' : System.ReachableUnder Orderly t) :
    Lobby.Steps (lobbyOf h) (lobbyChanges s a) (lobbyOf h') := by
  have htidy := tidy_of_orderly h
  have hsound := sound_of_reachable h.reachable
  have htidy' := tidy_of_orderly h'
  have hnames' := uniqueNames_of_reachable h'.reachable
  have hsame : SameWorld s t → Lobby.Steps (lobbyOf h) [] (lobbyOf h') := fun hsame => by
    rw [lobbyOf, lobbyOf, lobby_of_sameWorld htidy hsound.names htidy' hnames' hsame]
    exact .nil
  cases a with
  | accept fd nameSet =>
    simp only [System.exec, Server.acceptConnection] at exec
    split at exec
    · cases exec
    · obtain rfl := Except.ok.inj exec
      rw [lobbyOf, lobbyOf, lobby_addPlayer _ _ hsound.registry]
      exact (Lobby.Step.enter fun hmem =>
        Nat.lt_irrefl _ (hsound.registry.playersAllocated _ hmem)).steps
  | receive fd data =>
    obtain ⟨_, _, exec⟩ := bind_eq_ok_iff.mp exec
    obtain rfl := Except.ok.inj exec
    exact hsame (.of_eq rfl rfl rfl rfl rfl rfl)
  | peerClosed fd =>
    exact disconnection_refines htidy hsound htidy' hnames' (Server.disconnection_effect exec)
  | popPacket =>
    obtain rfl := Except.ok.inj exec
    refine hsame ?_
    unfold PacketManager.popPacket
    split <;> exact .of_eq rfl rfl rfl rfl rfl rfl
  | resolvePacket =>
    rcases resolvePacket_changes exec with ⟨hnone, hworld⟩ | ⟨u, fd, hquiet, hchanges, hclosed⟩
    · rw [hnone]
      exact hsame hworld
    · have hview := lobby_of_sameWorld htidy hsound.names (htidy.quiet hquiet)
        (hsound.quiet hquiet).names hquiet.toSameWorld
      rw [hchanges, lobbyOf, ← hview]
      exact disconnection_refines (htidy.quiet hquiet) (hsound.quiet hquiet) htidy' hnames' hclosed
  | registerResolved =>
    simp only [System.exec] at exec
    split at exec <;> obtain rfl := Except.ok.inj exec <;>
      exact hsame (.of_eq rfl rfl rfl rfl rfl rfl)
  | runCommand =>
    obtain ⟨command, rest, hqueue⟩ := List.exists_cons_of_ne_nil enabled
    rw [exec_runCommand hqueue] at exec
    have hpop := htidy.pop hqueue
    have hsteps := dispatch_refines hpop (hsound.pop hqueue) htidy' hnames'
      (fits_of_orderly orderly hqueue)
      (fun hinternal p hp => htidy.listed_of_internal hqueue hinternal hp) exec
    simp only [lobbyChanges, hqueue]
    exact hsteps
  | popOutgoing =>
    obtain rfl := Except.ok.inj exec
    refine hsame ?_
    unfold Sender.popOutgoing
    split <;> exact .of_eq rfl rfl rfl rfl rfl rfl
  | sendOutgoing =>
    obtain rfl := Except.ok.inj exec
    refine hsame ?_
    unfold Sender.sendOutgoing
    split <;> exact .of_eq rfl rfl rfl rfl rfl rfl

/-- The server that also keeps the history of its lobby. -/
abbrev System.chronicled : Machine (State × List (Change PlayerRef ByteString)) Action Fault :=
  System.machine.recorded [] fun s a history => history ++ lobbyChanges s a

instance (y : State × List (Change PlayerRef ByteString)) (a : Action) :
    Decidable (System.chronicled.Enabled y a) := inferInstanceAs (Decidable (System.Enabled y.1 a))

/-- **The server is a lobby**: the history that an orderly run leaves behind is one that a lobby
    allows from the first change to the last, and it ends with the players that are listed, the
    names they have and the games that are registered. -/
theorem server_refines_lobby (s : State) (history : List (Change PlayerRef ByteString))
    (h : System.chronicled.ReachableUnder (fun y => Orderly y.1) (s, history)) :
    ∃ l : Lobby PlayerRef ByteString, Lobby.Steps Lobby.empty history l ∧
      (∀ p, l.Member p ↔ p ∈ s.players) ∧
        (∀ p n, l.Named p n ↔ p ∈ s.players ∧ (s.player p).name = n ∧ n ≠ []) ∧
          ∀ p q, l.Paired p q ↔ s.Opponents p q := by
  have hhistory : ∀ y, System.chronicled.ReachableUnder (fun y => Orderly y.1) y →
      ∃ h : System.ReachableUnder Orderly y.1, Lobby.Steps Lobby.empty y.2 (lobbyOf h) := by
    intro y hy
    refine Machine.ReachableFrom.invariant hy (I := fun y =>
      ∃ h : System.ReachableUnder Orderly y.1, Lobby.Steps Lobby.empty y.2 (lobbyOf h)) ?_ ?_
    · have hempty : Lobby.empty = lobbyOf (s := State.initial) .refl :=
        Lobby.eq_of_iff (fun p => by simp [Lobby.empty, lobbyOf, State.lobby, State.initial])
          (fun p n => by simp [Lobby.empty, lobbyOf, State.lobby, State.initial])
          (fun p q => by simp [Lobby.empty, lobbyOf, State.lobby, State.Opponents, State.initial])
      have hstart : Lobby.Steps Lobby.empty [] (lobbyOf (s := State.initial) .refl) := by
        rw [← hempty]
        exact .nil
      exact ⟨.refl, hstart⟩
    · rintro y y' a _ ⟨hreach, hsteps⟩ henabled horderly hexec
      obtain ⟨hexec, hrecord⟩ := Machine.exec_recorded_eq_ok hexec
      have hreach' : System.ReachableUnder Orderly y'.1 := .step hreach henabled horderly hexec
      refine ⟨hreach', ?_⟩
      rw [hrecord]
      exact hsteps.append (exec_refines hreach henabled horderly hexec hreach')
  obtain ⟨hreach, hsteps⟩ := hhistory _ h
  exact ⟨lobbyOf hreach, hsteps, fun p => Iff.rfl, fun p n => Iff.rfl, fun p q => Iff.rfl⟩

/-- Two connections, two names and a game. -/
theorem server_refines_lobby_playing :
    ∃ l : Lobby PlayerRef ByteString,
      Lobby.Steps Lobby.empty
          [.enter 0, .enter 1, .call 0 [65], .call 1 [66], .pair 0 1] l ∧ l.Paired 0 1 := by
  have hlobby := fun (y : State × List (Change PlayerRef ByteString))
      (hy : System.chronicled.ReachableUnder (fun y => Orderly y.1) y) =>
    server_refines_lobby y.1 y.2 hy
  obtain ⟨l, hsteps, -, -, hpaired⟩ := hlobby
    (System.chronicled.after (fun y => Orderly y.1) System.playTwo)
    (Machine.reachableUnder_after System.playTwo)
  have hrun : (System.chronicled.after (fun y => Orderly y.1) System.playTwo).2
        = [.enter 0, .enter 1, .call 0 [65], .call 1 [66], .pair 0 1] ∧
      (System.chronicled.after (fun y => Orderly y.1) System.playTwo).1.Opponents 0 1 := by
    decide +kernel
  exact ⟨l, hrun.1 ▸ hsteps, (hpaired 0 1).mpr hrun.2⟩

/-! ## Games go on -/

/-- Listed players with these names play each other. -/
def State.Plays (s : State) (n m : ByteString) : Prop :=
  ∃ p q, s.Opponents p q ∧ (s.player p).name = n ∧ (s.player q).name = m

/-- The change can end the game of the players with these names. -/
def State.EndsMatch (s : State) (n m : ByteString) : Change PlayerRef ByteString → Prop
  | .part p q => (s.player p).name = n ∨ (s.player p).name = m ∨ (s.player q).name = n ∨
      (s.player q).name = m
  | .call p _ => (s.player p).name = n ∨ (s.player p).name = m
  | _ => False

/-- The step neither ends the game of these two nor gives one of them another name. -/
def KeepsMatch (n m : ByteString) (s : State) (a : Action) : Prop :=
  ∀ c ∈ (lobbyChanges s a).head?, ¬ s.EndsMatch n m c

/-- The change can begin a game of players with these names. -/
def State.BeginsMatch (s : State) (n m : ByteString) : Change PlayerRef ByteString → Prop
  | .pair p q => ((s.player p).name = n ∧ (s.player q).name = m) ∨
      ((s.player q).name = n ∧ (s.player p).name = m)
  | .call p k => (k = n ∨ k = m) ∧ (s.player p).inGame = true
  | _ => False

/-- The step neither starts a game of these two nor gives one of the names to somebody who is in
    a game. -/
def StartsNoMatch (n m : ByteString) (s : State) (a : Action) : Prop :=
  ∀ c ∈ (lobbyChanges s a).head?, ¬ s.BeginsMatch n m c

instance (s : State) (n m : ByteString) :
    (c : Change PlayerRef ByteString) → Decidable (s.EndsMatch n m c)
  | .part _ _ => inferInstanceAs (Decidable (_ ∨ _ ∨ _ ∨ _))
  | .call _ _ => inferInstanceAs (Decidable (_ ∨ _))
  | .enter _ | .unname _ | .leave _ | .pair _ _ | .replace _ _ => isFalse id

instance (n m : ByteString) (s : State) (a : Action) : Decidable (KeepsMatch n m s a) :=
  inferInstanceAs (Decidable (∀ c ∈ (lobbyChanges s a).head?, _))

theorem lobbyOf_plays_iff {s : State} (h : System.ReachableUnder Orderly s) {n m : ByteString} :
    (lobbyOf h).Plays n m ↔ s.Plays n m := by
  have htidy := tidy_of_orderly h
  constructor
  · rintro ⟨p, q, ⟨_, hn, _⟩, ⟨_, hm, _⟩, hpaired⟩
    exact ⟨p, q, hpaired, hn, hm⟩
  · rintro ⟨p, q, hpaired, rfl, rfl⟩
    have hnamed : ∀ r, (∃ g ∈ s.games, (s.game g).Seats r) →
        (lobbyOf h).Named r (s.player r).name := by
      rintro r ⟨g, hg, hseat⟩
      exact ⟨htidy.seatsListed g hg r hseat, rfl, htidy.seatsNamed g hg r hseat⟩
    have hpaired' := hpaired
    obtain ⟨_, g, hg, hp, hq⟩ := hpaired'
    exact ⟨p, q, hnamed p ⟨g, hg, hp⟩, hnamed q ⟨g, hg, hq⟩, hpaired⟩

theorem endsMatch_of_ends {s : State} (h : System.ReachableUnder Orderly s) {n m : ByteString}
    {c : Change PlayerRef ByteString} (ends : (lobbyOf h).Ends n m c) : s.EndsMatch n m c := by
  cases c with
  | part p q => exact ends.imp (·.2.1) (Or.imp (·.2.1) (Or.imp (·.2.1) (·.2.1)))
  | call p k => exact ends.imp (·.2.1) (·.2.1)
  | enter | unname | leave | pair | replace => exact ends

theorem beginsMatch_of_begins {s : State} (h : System.ReachableUnder Orderly s)
    {n m : ByteString} {c : Change PlayerRef ByteString} (begins : (lobbyOf h).Begins n m c) :
    s.BeginsMatch n m c := by
  cases c with
  | pair p q => exact begins.imp (And.imp (·.2.1) (·.2.1)) (And.imp (·.2.1) (·.2.1))
  | call p k =>
    refine ⟨begins.1, ?_⟩
    by_contra hfree
    exact begins.2 (single_of_free _ _ (Bool.eq_false_of_not_eq_true hfree))
  | enter | unname | leave | part | replace => exact begins

/-- Others only leave after the first change. -/
def OnlyLeaving (cs : List (Change PlayerRef ByteString)) : Prop :=
  ∀ c ∈ cs.tail, ∃ p, c = .leave p

theorem onlyLeaving_disconnection (s : State) (fd : Int) :
    OnlyLeaving (disconnectionChanges s fd) := by
  unfold disconnectionChanges OnlyLeaving
  split
  · simp
  · split <;> simp

theorem onlyLeaving_command (s : State) (mess : Message) :
    OnlyLeaving (commandChanges s mess) := by
  have hlogout : ∀ p, OnlyLeaving (logoutChanges s p) := by
    intro p
    unfold logoutChanges
    split
    · split
      · simp [OnlyLeaving]
      · dsimp only
        split <;> simp [OnlyLeaving]
    · exact onlyLeaving_disconnection s _
  have hloss : ∀ p, OnlyLeaving (lossChanges s p) := by
    intro p
    unfold lossChanges
    split
    · simp [OnlyLeaving]
    · dsimp only
      split <;> simp [OnlyLeaving]
  -- the others change one thing at most
  have hone : ∀ p name m, (registrationChanges s p name).tail = [] ∧
      (reconnectionChanges s p name).tail = [] ∧ (acceptChanges s p).tail = [] ∧
        (moveChanges s p m).tail = [] := by
    intro p name m
    unfold registrationChanges reconnectionChanges acceptChanges moveChanges
    refine ⟨?_, ?_, ?_, ?_⟩ <;> split <;> try split
    all_goals rfl
  have hnone : ∀ cs : List (Change PlayerRef ByteString), cs.tail = [] → OnlyLeaving cs :=
    fun cs hcs => by simp [OnlyLeaving, hcs]
  unfold commandChanges
  split
  · exact hnone _ rfl
  · rename_i p _
    split_ifs
    · exact hnone _ (hone p _ ⟨0, 0, 0⟩).1
    · exact hnone _ (hone p _ ⟨0, 0, 0⟩).2.1
    · exact hnone _ rfl
    · exact hlogout p
    · exact hnone _ rfl
    · exact hnone _ rfl
    · exact hnone _ (hone p [] ⟨0, 0, 0⟩).2.2.1
    · split
      · exact hnone _ (hone p [] _).2.2.2
      · exact hnone _ rfl
    · exact hloss p
    · exact hnone _ rfl

theorem onlyLeaving_step (s : State) (a : Action) : OnlyLeaving (lobbyChanges s a) := by
  have hdisconnects : OnlyLeaving (match disconnects s a with
      | some (u, fd) => disconnectionChanges u fd
      | none => []) := by
    split
    · exact onlyLeaving_disconnection _ _
    · simp [OnlyLeaving]
  cases a with
  | accept => simp [lobbyChanges, OnlyLeaving]
  | runCommand =>
    cases hqueue : s.commandQueue with
    | nil => simp [lobbyChanges, hqueue, OnlyLeaving]
    | cons command rest =>
      simp only [lobbyChanges, hqueue]
      exact onlyLeaving_command _ _
  | _ => exact hdisconnects

/-- **Games go on**: a game between two names lasts through every orderly run until a step ends
    this very game or one of the two registers under another name; whose connections end, who
    takes over the seats and what happens to the other games makes no difference. And two names
    that play each other did so before, unless a step starts their game or gives one of the names
    to a player who is in a game. -/
theorem games_go_on (n m : ByteString) (s t : State) (h : System.ReachableUnder Orderly s) :
    (System.machine.ReachableFrom (fun u a => Orderly u a ∧ KeepsMatch n m u a) s t →
      s.Plays n m → t.Plays n m) ∧
    (System.machine.ReachableFrom (fun u a => Orderly u a ∧ StartsNoMatch n m u a) s t →
      t.Plays n m → s.Plays n m) := by
  constructor
  · intro run hstart
    have hplays : System.ReachableUnder Orderly t ∧ t.Plays n m := by
      refine run.invariant (I := fun t => System.ReachableUnder Orderly t ∧ t.Plays n m)
        ⟨h, hstart⟩ ?_
      rintro u v a _ ⟨hreach, hplaying⟩ henabled ⟨horderly, hkeeps⟩ hexec
      have hreach' : System.ReachableUnder Orderly v := .step hreach henabled horderly hexec
      have hsteps := exec_refines hreach henabled horderly hexec hreach'
      refine ⟨hreach', (lobbyOf_plays_iff hreach').mp (hsteps.plays (fun c hc hends => ?_)
        (onlyLeaving_step u a) ((lobbyOf_plays_iff hreach).mpr hplaying))⟩
      exact hkeeps c hc (endsMatch_of_ends hreach hends)
    exact hplays.2
  · intro run hend
    have hplayed : System.ReachableUnder Orderly t ∧ (t.Plays n m → s.Plays n m) := by
      refine run.invariant
        (I := fun t => System.ReachableUnder Orderly t ∧ (t.Plays n m → s.Plays n m)) ⟨h, id⟩ ?_
      rintro u v a _ ⟨hreach, hplayed⟩ henabled ⟨horderly, hstarts⟩ hexec
      have hreach' : System.ReachableUnder Orderly v := .step hreach henabled horderly hexec
      have hsteps := exec_refines hreach henabled horderly hexec hreach'
      refine ⟨hreach', fun hplaying => hplayed ((lobbyOf_plays_iff hreach).mp
        (hsteps.played (fun c hc hbegins => ?_) (onlyLeaving_step u a)
          ((lobbyOf_plays_iff hreach').mpr hplaying)))⟩
      exact hstarts c hc (beginsMatch_of_begins hreach hbegins)
    exact hplayed.2 hend

/-- The game goes on when the connection of `A` has ended. -/
theorem games_go_on_lost :
    let s := System.machine.after Orderly System.playTwo
    let t := System.machine.afterFrom (fun u a => Orderly u a ∧ KeepsMatch [65] [66] u a) s
      [.peerClosed 5, .runCommand]
    (t.player 0).lost = true ∧ t.Plays [65] [66] := by
  have hplaying : (System.machine.after Orderly System.playTwo).Plays [65] [66] :=
    ⟨0, 1, by decide +kernel⟩
  exact ⟨by decide +kernel, (games_go_on _ _ _ _ (Machine.reachableUnder_after System.playTwo)).1
    (Machine.reachableFrom_afterFrom _ _) hplaying⟩

end UpsServer
