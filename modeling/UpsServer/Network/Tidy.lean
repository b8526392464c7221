import UpsServer.Network.Orderly

/-!
# Orderly runs stay tidy

Every step of an orderly run keeps `Tidy`. There are five kinds of steps: those that leave games
and seats alone, a player who leaves the list, a game that starts, a game that ends, and a seat
that is handed over.
-/

namespace UpsServer

open Framework CommandManager

namespace Tidy

variable {s t : State}

/-! ## Steps that leave games and seats alone -/

/-- Games, seats and flags are the same, and nobody in a game becomes unnamed. -/
theorem keep (h : Tidy s) (players : t.players = s.players) (games : t.games = s.games)
    (p1 : ∀ g, (t.game g).p1 = (s.game g).p1) (p2 : ∀ g, (t.game g).p2 = (s.game g).p2)
    (name : ∀ p, (s.player p).inGame = true → (s.player p).name ≠ [] → (t.player p).name ≠ [])
    (inGame : ∀ p, (t.player p).inGame = (s.player p).inGame)
    (lost : ∀ p ∈ t.lostPlayers, p ∈ s.players) : Tidy t := by
  have seats : ∀ g p, (t.game g).Seats p ↔ (s.game g).Seats p := fun g p => by
    rw [Game.Seats, Game.Seats, p1, p2]
  have seated : ∀ p, t.Seated p ↔ s.Seated p := fun p => by
    simp only [State.Seated, games, seats]
  refine ⟨fun g hg p hp => ?_, fun g hg p hp => ?_, fun g hg => ?_, fun g hg g' hg' p hp hp' => ?_,
    fun p hp => ?_, fun p hp => ?_⟩
  · rw [players]
    exact h.seatsListed g (games ▸ hg) p ((seats g p).mp hp)
  · -- a seated player is in a game, so it may be renamed but not to the empty name
    have hg' := games ▸ hg
    have hseat := (seats g p).mp hp
    have hflag := (h.flag p (h.seatsListed g hg' p hseat)).mpr ⟨g, hg', hseat⟩
    exact name p hflag (h.seatsNamed g hg' p hseat)
  · rw [p1, p2]
    exact h.seatsDistinct g (games ▸ hg)
  · exact h.oneGame g (games ▸ hg) g' (games ▸ hg') p ((seats g p).mp hp) ((seats g' p).mp hp')
  · rw [inGame, seated]
    exact h.flag p (players ▸ hp)
  · rw [players]
    exact lost p hp

theorem quiet (h : Tidy s) (quiet : Quiet s t) : Tidy t :=
  h.keep quiet.players quiet.games (fun g => by rw [quiet.game]) (fun g => by rw [quiet.game])
    (fun p _ hne => by rwa [quiet.name]) quiet.inGame fun p hp => h.lostListed p (by
      rw [State.lostPlayers, quiet.internalCommands] at hp
      exact hp)

theorem addPlayer (h : Tidy s) (sound : Sound s) (fd : Int) (nameSet : Bool) :
    Tidy (Server.addPlayer s fd nameSet) := by
  have hallocated := sound.registry.playersAllocated
  -- the new object overwrites no listed player
  have hold : ∀ p ∈ s.players, (Server.addPlayer s fd nameSet).player p = s.player p :=
    fun p hp => by rw [Server.player_addPlayer, if_neg (Nat.ne_of_lt (hallocated p hp))]
  refine ⟨fun g hg p hp => List.mem_append_left _ (h.seatsListed g hg p hp),
    fun g hg p hp => ?_, h.seatsDistinct, h.oneGame, fun p hp => ?_,
    fun p hp => List.mem_append_left _ (h.lostListed p hp)⟩
  · rw [hold p (h.seatsListed g hg p hp)]
    exact h.seatsNamed g hg p hp
  · rcases List.mem_append.mp hp with hp | hp
    · rw [hold p hp]
      exact h.flag p hp
    · -- the newcomer is in no game and sits nowhere
      have hnew := List.mem_singleton.mp hp
      have hfree : ¬ (Server.addPlayer s fd nameSet).Seated p := fun ⟨g, hg, hseat⟩ =>
        Nat.lt_irrefl _ (hnew ▸ hallocated p (h.seatsListed g hg p hseat))
      rw [Server.player_addPlayer, if_pos hnew]
      simp [Player.ofSocket, hfree]

/-! ## A player leaves the list -/

/-- A player in no game, of whom no command is queued, is erased. -/
theorem leave (h : Tidy s) {pl : PlayerRef} (free : (s.player pl).inGame = false)
    (once : pl ∉ s.lostPlayers)
    (players : ∀ p, p ∈ t.players ↔ p ∈ s.players ∧ p ≠ pl) (games : t.games = s.games)
    (game : ∀ g, t.game g = s.game g) (name : ∀ p, (t.player p).name = (s.player p).name)
    (inGame : ∀ p, (t.player p).inGame = (s.player p).inGame)
    (lost : t.lostPlayers = s.lostPlayers) : Tidy t := by
  have seated : ∀ p, t.Seated p ↔ s.Seated p := fun p => by
    simp only [State.Seated, games, game]
  -- the flag of the leaving player says that it holds no seat
  have hseat : ∀ g ∈ s.games, ∀ p, (s.game g).Seats p → p ≠ pl := fun g hg p hp heq => by
    have hflag := (h.flag p (h.seatsListed g hg p hp)).mpr ⟨g, hg, hp⟩
    rw [heq, free] at hflag
    cases hflag
  refine ⟨fun g hg p hp => ?_, fun g hg p hp => ?_, fun g hg => ?_, fun g hg g' hg' p hp hp' => ?_,
    fun p hp => ?_, fun p hp => ?_⟩
  · rw [games] at hg
    rw [game] at hp
    exact (players p).mpr ⟨h.seatsListed g hg p hp, hseat g hg p hp⟩
  · rw [games] at hg
    rw [game] at hp
    rw [name]
    exact h.seatsNamed g hg p hp
  · rw [game]
    exact h.seatsDistinct g (games ▸ hg)
  · rw [game] at hp hp'
    exact h.oneGame g (games ▸ hg) g' (games ▸ hg') p hp hp'
  · rw [inGame, seated]
    exact h.flag p ((players p).mp hp).1
  · rw [lost] at hp
    exact (players p).mpr ⟨h.lostListed p hp, fun heq => once (heq ▸ hp)⟩

theorem disconnected {fd : Int} (h : Tidy s) (sound : Sound s) (closed : Disconnection s fd t) :
    Tidy t := by
  cases closed with
  | @left pl found free =>
    obtain ⟨-, hsocket⟩ := Server.getPlayerBySocket_eq_some found
    -- its socket is still set, so no command that marks it as lost is queued
    have hopen : (s.player pl).socketSet = true := (Bool.and_eq_true_iff.mp hsocket).1
    exact h.leave free (sound.losses.not_mem_lostPlayers hopen)
      (sound.connections.mem_erasedBySocket_iff sound.registry found) rfl
      (fun _ => rfl) (by simp) (by simp) rfl
  | @stays pl found =>
    have hlisted := (Server.getPlayerBySocket_eq_some found).1
    refine h.keep rfl rfl (fun _ => rfl) (fun _ => rfl) (by simp) (by simp) fun p hp => ?_
    rw [State.lostPlayers, Losses.internalCommands_registerLost, List.filterMap_append] at hp
    rcases List.mem_append.mp hp with hp | hp
    · exact h.lostListed p hp
    · -- the one new entry of the queue is about the player that stays
      obtain rfl : p = pl := by simpa [Server.lostMessage, Message.withPlayer] using hp
      exact hlisted

/-! ## A game starts -/

/-- Two free players get a new game. -/
theorem start (h : Tidy s) (sound : Sound s) {asking asked : PlayerRef}
    (free : s.Free asking) (free' : s.Free asked) (distinct : asking ≠ asked)
    (players : t.players = s.players) (games : t.games = s.games ++ [s.gameHeap.next])
    (p1 : ∀ g, (t.game g).p1 = if g = s.gameHeap.next then asking else (s.game g).p1)
    (p2 : ∀ g, (t.game g).p2 = if g = s.gameHeap.next then asked else (s.game g).p2)
    (name : ∀ p, (t.player p).name = (s.player p).name)
    (inGame : ∀ p, (t.player p).inGame
      = if p = asking ∨ p = asked then true else (s.player p).inGame)
    (lost : t.lostPlayers = s.lostPlayers) : Tidy t := by
  have hnew : s.gameHeap.next ∉ s.games := fun hmem =>
    Nat.lt_irrefl _ (sound.registry.gamesAllocated _ hmem)
  have hne : ∀ g ∈ s.games, g ≠ s.gameHeap.next := fun g hg heq => hnew (heq ▸ hg)
  have old : ∀ g ∈ s.games, ∀ p, (t.game g).Seats p ↔ (s.game g).Seats p := fun g hg p => by
    rw [Game.Seats, Game.Seats, p1, p2, if_neg (hne g hg), if_neg (hne g hg)]
  have new : ∀ p, (t.game s.gameHeap.next).Seats p ↔ p = asking ∨ p = asked := fun p => by
    rw [Game.Seats, p1, p2, if_pos rfl, if_pos rfl, eq_comm, @eq_comm _ asked]
  -- the two players sat nowhere before
  have unseated : ∀ g ∈ s.games, ∀ p, (s.game g).Seats p → p ≠ asking ∧ p ≠ asked :=
    fun g hg p hp => by
      have hflag := (h.flag p (h.seatsListed g hg p hp)).mpr ⟨g, hg, hp⟩
      constructor
      · rintro rfl
        rw [free.2.2] at hflag
        cases hflag
      · rintro rfl
        rw [free'.2.2] at hflag
        cases hflag
  have cases_game : ∀ g ∈ t.games, g ∈ s.games ∨ g = s.gameHeap.next := fun g hg => by
    rw [games] at hg
    exact (List.mem_append.mp hg).imp_right List.mem_singleton.mp
  refine ⟨fun g hg p hp => ?_, fun g hg p hp => ?_, fun g hg => ?_, fun g hg g' hg' p hp hp' => ?_,
    fun p hp => ?_, fun p hp => ?_⟩
  · rw [players]
    rcases cases_game g hg with hg | rfl
    · exact h.seatsListed g hg p ((old g hg p).mp hp)
    · rcases (new p).mp hp with rfl | rfl
      · exact free.1
      · exact free'.1
  · rw [name]
    rcases cases_game g hg with hg | rfl
    · exact h.seatsNamed g hg p ((old g hg p).mp hp)
    · rcases (new p).mp hp with rfl | rfl
      · exact free.2.1
      · exact free'.2.1
  · rw [p1, p2]
    rcases cases_game g hg with hg | rfl
    · rw [if_neg (hne g hg), if_neg (hne g hg)]
      exact h.seatsDistinct g hg
    · rw [if_pos rfl, if_pos rfl]
      exact distinct
  · -- two old games, an old and the new one in either order, or the new one twice
    rcases cases_game g hg with hg | rfl <;> rcases cases_game g' hg' with hg' | rfl
    · exact h.oneGame g hg g' hg' p ((old g hg p).mp hp) ((old g' hg' p).mp hp')
    · have hfree := unseated g hg p ((old g hg p).mp hp)
      exact absurd ((new p).mp hp') (by rintro (heq | heq); exacts [hfree.1 heq, hfree.2 heq])
    · have hfree := unseated g' hg' p ((old g' hg' p).mp hp')
      exact absurd ((new p).mp hp) (by rintro (heq | heq); exacts [hfree.1 heq, hfree.2 heq])
    · rfl
  · rw [inGame]
    split
    · -- a player of the new game: the flag was raised, and the new game seats it
      rename_i hp'
      simp only [true_iff]
      exact ⟨s.gameHeap.next, by rw [games]; simp, (new p).mpr hp'⟩
    · rename_i hp'
      rw [h.flag p (players ▸ hp)]
      constructor
      · rintro ⟨g, hg, hseat⟩
        exact ⟨g, by rw [games]; exact List.mem_append_left _ hg, (old g hg p).mpr hseat⟩
      · rintro ⟨g, hg, hseat⟩
        rcases cases_game g hg with hg | rfl
        · exact ⟨g, hg, (old g hg p).mp hseat⟩
        · exact absurd ((new p).mp hseat) hp'
  · rw [players]
    exact h.lostListed p (lost ▸ hp)

/-! ## A game ends -/

/-- The game `g` is removed; whoever of its players stays in the list is free again. -/
theorem finish (h : Tidy s) {g : GameRef} (hg : g ∈ s.games)
    (games : ∀ x, x ∈ t.games ↔ x ∈ s.games ∧ x ≠ g)
    (p1 : ∀ x ≠ g, (t.game x).p1 = (s.game x).p1) (p2 : ∀ x ≠ g, (t.game x).p2 = (s.game x).p2)
    (players : ∀ p ∈ t.players, p ∈ s.players)
    (kept : ∀ p ∈ s.players, ¬ (s.game g).Seats p → p ∈ t.players)
    (name : ∀ p, (t.player p).name = (s.player p).name)
    (freed : ∀ p ∈ t.players, (s.game g).Seats p → (t.player p).inGame = false)
    (others : ∀ p, ¬ (s.game g).Seats p → (t.player p).inGame = (s.player p).inGame)
    (lost : ∀ p ∈ t.lostPlayers, p ∈ t.players) : Tidy t := by
  have seats : ∀ x ≠ g, ∀ p, (t.game x).Seats p ↔ (s.game x).Seats p := fun x hx p => by
    rw [Game.Seats, Game.Seats, p1 x hx, p2 x hx]
  -- who sits in another game does not sit in `g`
  have elsewhere : ∀ x ∈ s.games, x ≠ g → ∀ p, (s.game x).Seats p → ¬ (s.game g).Seats p :=
    fun x hx hne p hp hpg => hne (h.oneGame x hx g hg p hp hpg)
  refine ⟨fun x hx p hp => ?_, fun x hx p hp => ?_, fun x hx => ?_, fun x hx y hy p hp hp' => ?_,
    fun p hp => ?_, lost⟩
  · obtain ⟨hx, hne⟩ := (games x).mp hx
    have hseat := (seats x hne p).mp hp
    exact kept p (h.seatsListed x hx p hseat) (elsewhere x hx hne p hseat)
  · obtain ⟨hx, hne⟩ := (games x).mp hx
    rw [name]
    exact h.seatsNamed x hx p ((seats x hne p).mp hp)
  · obtain ⟨hx, hne⟩ := (games x).mp hx
    rw [p1 x hne, p2 x hne]
    exact h.seatsDistinct x hx
  · obtain ⟨hx, hxg⟩ := (games x).mp hx
    obtain ⟨hy, hyg⟩ := (games y).mp hy
    exact h.oneGame x hx y hy p ((seats x hxg p).mp hp) ((seats y hyg p).mp hp')
  · by_cases hpg : (s.game g).Seats p
    · -- the flag was taken back, and by `oneGame` no other game seats the player
      rw [freed p hp hpg]
      simp only [Bool.false_eq_true, false_iff]
      rintro ⟨x, hx, hseat⟩
      obtain ⟨hx, hne⟩ := (games x).mp hx
      exact elsewhere x hx hne p ((seats x hne p).mp hseat) hpg
    · rw [others p hpg, h.flag p (players p hp)]
      constructor
      · rintro ⟨x, hx, hseat⟩
        have hne : x ≠ g := fun heq => hpg (heq ▸ hseat)
        exact ⟨x, (games x).mpr ⟨hx, hne⟩, (seats x hne p).mpr hseat⟩
      · rintro ⟨x, hx, hseat⟩
        obtain ⟨hx, hne⟩ := (games x).mp hx
        exact ⟨x, hx, (seats x hne p).mp hseat⟩

/-! ## A seat is handed over -/

/-- `newP`, who sits nowhere, takes the seat of `oldP` in `g`, and `oldP` leaves the list. -/
theorem handover (h : Tidy s) {g : GameRef} {newP oldP : PlayerRef} (hg : g ∈ s.games)
    (hold : (s.game g).Seats oldP) (hnew : newP ∈ s.players) (hne : newP ≠ oldP)
    (free : (s.player newP).inGame = false) (once : oldP ∉ s.lostPlayers)
    (players : ∀ p, p ∈ t.players ↔ p ∈ s.players ∧ p ≠ oldP) (games : t.games = s.games)
    (seat : ((s.game g).p1 = oldP ∧ (t.game g).p1 = newP ∧ (t.game g).p2 = (s.game g).p2) ∨
      ((s.game g).p2 = oldP ∧ (t.game g).p2 = newP ∧ (t.game g).p1 = (s.game g).p1))
    (others : ∀ x ≠ g, t.game x = s.game x)
    (name : ∀ p, (t.player p).name
      = if p = newP then (s.player oldP).name else (s.player p).name)
    (inGame : ∀ p, (t.player p).inGame = if p = newP then true else (s.player p).inGame)
    (lost : t.lostPlayers = s.lostPlayers) : Tidy t := by
  -- the flag of the newcomer says that it holds no seat yet
  have unseated : ∀ x ∈ s.games, ∀ p, (s.game x).Seats p → p ≠ newP := fun x hx p hp heq => by
    have hflag := (h.flag p (h.seatsListed x hx p hp)).mpr ⟨x, hx, hp⟩
    rw [heq, free] at hflag
    cases hflag
  have hdistinct := h.seatsDistinct g hg
  -- the seats of `g` afterwards
  have seats : ∀ p, (t.game g).Seats p ↔ p = newP ∨ ((s.game g).Seats p ∧ p ≠ oldP) :=
    fun p => by
      have h1 := unseated g hg (s.game g).p1 (Or.inl rfl)
      have h2 := unseated g hg (s.game g).p2 (Or.inr rfl)
      unfold Game.Seats
      rcases seat with ⟨h₁, h₂, h₃⟩ | ⟨h₁, h₂, h₃⟩ <;> grind
  -- the seats of any game afterwards
  have anySeat : ∀ x ∈ s.games, ∀ p, (t.game x).Seats p →
      (p = newP ∧ x = g) ∨ ((s.game x).Seats p ∧ p ≠ oldP) := fun x hx p hp => by
    by_cases hxg : x = g
    · subst hxg
      exact ((seats p).mp hp).imp_left fun heq => ⟨heq, rfl⟩
    · rw [others x hxg] at hp
      exact Or.inr ⟨hp, fun heq => hxg (h.oneGame x hx g hg oldP (heq ▸ hp) hold)⟩
  refine ⟨fun x hx p hp => ?_, fun x hx p hp => ?_, fun x hx => ?_, fun x hx y hy p hp hp' => ?_,
    fun p hp => ?_, fun p hp => ?_⟩
  · rw [games] at hx
    rcases anySeat x hx p hp with ⟨rfl, _⟩ | ⟨hseat, hpold⟩
    · exact (players p).mpr ⟨hnew, hne⟩
    · exact (players p).mpr ⟨h.seatsListed x hx p hseat, hpold⟩
  · rw [games] at hx
    rw [name]
    split
    · exact h.seatsNamed g hg oldP hold
    · rename_i hpnew
      rcases anySeat x hx p hp with ⟨heq, _⟩ | ⟨hseat, _⟩
      · exact absurd heq hpnew
      · exact h.seatsNamed x hx p hseat
  · rw [games] at hx
    by_cases hxg : x = g
    · subst hxg
      have h1 := unseated x hx (s.game x).p1 (Or.inl rfl)
      have h2 := unseated x hx (s.game x).p2 (Or.inr rfl)
      rcases seat with ⟨_, h₂, h₃⟩ | ⟨_, h₂, h₃⟩
      · rw [h₂, h₃]
        exact h2.symm
      · rw [h₂, h₃]
        exact h1
    · rw [others x hxg]
      exact h.seatsDistinct x hx
  · -- the newcomer sits in `g` only, everybody else where it sat before
    rw [games] at hx hy
    rcases anySeat x hx p hp with ⟨rfl, hxg⟩ | ⟨hseat, _⟩ <;>
      rcases anySeat y hy p hp' with ⟨heq, hyg⟩ | ⟨hseat', _⟩
    · rw [hxg, hyg]
    · exact absurd rfl (unseated y hy p hseat')
    · exact absurd heq (unseated x hx p hseat)
    · exact h.oneGame x hx y hy p hseat hseat'
  · obtain ⟨hp, hpold⟩ := (players p).mp hp
    rw [inGame]
    split
    · rename_i hpnew
      simp only [true_iff]
      exact ⟨g, games ▸ hg, (seats p).mpr (Or.inl hpnew)⟩
    · rename_i hpnew
      rw [h.flag p hp]
      constructor
      · rintro ⟨x, hx, hseat⟩
        refine ⟨x, games ▸ hx, ?_⟩
        by_cases hxg : x = g
        · subst hxg
          exact (seats p).mpr (Or.inr ⟨hseat, hpold⟩)
        · rw [others x hxg]
          exact hseat
      · rintro ⟨x, hx, hseat⟩
        rw [games] at hx
        rcases anySeat x hx p hseat with ⟨heq, _⟩ | ⟨hseat, _⟩
        · exact absurd heq hpnew
        · exact ⟨x, hx, hseat⟩
  · rw [lost] at hp
    exact (players p).mpr ⟨h.lostListed p hp, fun heq => once (heq ▸ hp)⟩

/-! ## Handling a command -/

/-- `deletePlayer` erases the given player when its name is its own. -/
theorem mem_erased_iff (sound : Sound s) {p : PlayerRef} {players : List PlayerRef}
    (erased : ErasesPlayer s p players) (listed : p ∈ s.players)
    (named : (s.player p).name ≠ []) (x : PlayerRef) :
    x ∈ players ↔ x ∈ s.players ∧ x ≠ p := by
  rw [erased.listed listed]
  refine mem_eraseP_of_unique sound.registry.playersNodup listed (by simp [sameName])
    (fun q hq hname => ?_) x
  have hsame : (s.player p).name = (s.player q).name := (beq_iff_eq.mp hname).symm
  exact (sound.names.eq_of_name listed hq hsame named).symm

/-- The two seated players of the game that a listed player's name leads to. -/
theorem lookup (h : Tidy s) (sound : Sound s) {p : PlayerRef} {g : GameRef}
    (listed : p ∈ s.players) (playing : GameManager.getGameByPlayer s p = some g) :
    g ∈ s.games ∧ GameManager.otherSeat s g p ≠ p ∧
      ∀ q, (s.game g).Seats q ↔ q = p ∨ q = GameManager.otherSeat s g p := by
  obtain ⟨hg, hseat⟩ := h.seats_of_lookup sound.names listed playing
  obtain ⟨hne, hseats⟩ := h.otherSeat_of_seats sound.names hg hseat
  exact ⟨hg, hne, hseats⟩

/-- Who is left when the opponent found for a listed player is erased. -/
theorem mem_erasedOponent_iff (h : Tidy s) (sound : Sound s) {p oponent : PlayerRef}
    {game : GameRef} {players : List PlayerRef} (listed : p ∈ s.players)
    (playing : GameManager.getGameByPlayer s p = some game)
    (against : oponent = GameManager.otherSeat s game p)
    (erased : ErasesPlayer s oponent players) (q : PlayerRef) :
    q ∈ players ↔ q ∈ s.players ∧ q ≠ oponent := by
  obtain ⟨hg, -, hseats⟩ := h.lookup sound listed playing
  have hoponent : (s.game game).Seats oponent := (hseats oponent).mpr (Or.inr against)
  -- the seated opponent is listed and named, so exactly its own entry is erased
  exact mem_erased_iff sound erased (h.seatsListed game hg _ hoponent)
    (h.seatsNamed game hg _ hoponent) q

/-- Who is left when both players of a game are erased. -/
theorem mem_erasedBoth_iff (h : Tidy s) (sound : Sound s) {p oponent : PlayerRef}
    {game : GameRef} {players players' : List PlayerRef} (listed : p ∈ s.players)
    (playing : GameManager.getGameByPlayer s p = some game)
    (against : oponent = GameManager.otherSeat s game p)
    (erased : ErasesPlayer s oponent players)
    (erased' : ErasesPlayer (s.withPlayers players) p players') (q : PlayerRef) :
    q ∈ players' ↔ q ∈ s.players ∧ ¬ (s.game game).Seats q := by
  obtain ⟨hg, hne, hseats⟩ := h.lookup sound listed playing
  rw [← against] at hne hseats
  have hfirst := h.mem_erasedOponent_iff sound listed playing against erased
  -- the second erasure runs on the list that the first one left
  have hsound : Sound (s.withPlayers players) :=
    ⟨sound.registry.shrink ⟨erased.sublist, rfl, List.Sublist.refl _, rfl, rfl, fun _ => rfl⟩,
      sound.connections.keep rfl rfl (fun _ => rfl) fun _ => rfl,
      sound.names.shrink erased.sublist fun _ => rfl,
      sound.losses.keep rfl (fun _ => rfl) (fun _ hq => hq) rfl⟩
  have hsecond := mem_erased_iff hsound erased' ((hfirst p).mpr ⟨listed, hne.symm⟩)
    (h.seatsNamed game hg _ ((hseats p).mpr (Or.inl rfl)))
  rw [hsecond, State.withPlayers_players, hfirst, hseats, not_or, and_assoc,
    and_comm (a := q ≠ oponent)]

/-- A game ends, its two players stay in the list and are free again. -/
theorem finishBoth (h : Tidy s) (sound : Sound s) {p oponent : PlayerRef} {g : GameRef}
    (listed : p ∈ s.players) (playing : GameManager.getGameByPlayer s p = some g)
    (against : oponent = GameManager.otherSeat s g p)
    (games : t.games = s.games.eraseP (sameId s g))
    (p1 : ∀ x, (t.game x).p1 = (s.game x).p1) (p2 : ∀ x, (t.game x).p2 = (s.game x).p2)
    (players : t.players = s.players) (name : ∀ q, (t.player q).name = (s.player q).name)
    (inGame : ∀ q, (t.player q).inGame
      = if q = p ∨ q = oponent then false else (s.player q).inGame)
    (lost : t.lostPlayers = s.lostPlayers) : Tidy t := by
  obtain ⟨hg, _, hseats⟩ := h.lookup sound listed playing
  rw [← against] at hseats
  refine h.finish hg (fun x => ?_) (fun x _ => p1 x) (fun x _ => p2 x) (fun q hq => players ▸ hq)
    (fun q hq _ => by rwa [players]) name (fun q _ hq => ?_) (fun q hq => ?_) (fun q hq => ?_)
  · rw [games]
    exact sound.registry.mem_deleted_iff hg x
  · rw [inGame, if_pos ((hseats q).mp hq)]
  · rw [inGame, if_neg fun hor => hq ((hseats q).mpr hor)]
  · rw [players]
    exact h.lostListed q (lost ▸ hq)

variable {mess : Message}

/-- Two players in the order of the list are listed and different. -/
theorem listed_of_before (sound : Sound s) {oldP newP : PlayerRef}
    (before : s.ListedBefore oldP newP) : oldP ∈ s.players ∧ newP ∈ s.players ∧ newP ≠ oldP := by
  refine ⟨before.subset (by simp), before.subset (by simp), ?_⟩
  rintro rfl
  have hnodup := sound.registry.playersNodup.sublist before
  simp at hnodup

/-- After the renaming, a seat of the shared name is still the lost player's. -/
theorem eq_of_shared_name (h : Tidy s) (sound : Sound s) {newP oldP p : PlayerRef}
    {g : GameRef} (listed : oldP ∈ s.players) (free : (s.player newP).inGame = false)
    (hg : g ∈ s.games) (seat : (s.game g).Seats p)
    (hname : ((takeOverName s newP oldP).player p).name = (s.player oldP).name) : p = oldP := by
  have hflag := (h.flag p (h.seatsListed g hg p seat)).mpr ⟨g, hg, seat⟩
  have hpnew : p ≠ newP := by
    rintro rfl
    rw [free] at hflag
    cases hflag
  rw [name_takeOverName, if_neg hpnew] at hname
  exact h.eq_of_seat_name sound.names hg seat listed hname

/-- The game that a fitting reconnection finds seats the lost player. -/
theorem seats_of_takeOver (h : Tidy s) (sound : Sound s) {newP oldP : PlayerRef}
    {game : GameRef} (before : s.ListedBefore oldP newP)
    (free : (s.player newP).inGame = false)
    (playing : GameManager.getGameByPlayer (takeOverName s newP oldP) oldP = some game) :
    game ∈ s.games ∧ (s.game game).Seats oldP := by
  obtain ⟨hold, -, hne⟩ := listed_of_before sound before
  obtain ⟨hg, hname⟩ := GameManager.getGameByPlayer_eq_some playing
  rw [takeOverName_games] at hg
  rw [GameManager.seatsName, Bool.or_eq_true, beq_iff_eq, beq_iff_eq,
    name_takeOverName _ _ _ oldP, if_neg hne.symm] at hname
  rcases hname with hname | hname
  · exact ⟨hg, Or.inl (h.eq_of_shared_name sound hold free hg (Or.inl rfl) hname)⟩
  · exact ⟨hg, Or.inr (h.eq_of_shared_name sound hold free hg (Or.inr rfl) hname)⟩

/-- A fitting reconnection erases the lost player's entry. -/
theorem mem_erasedOld_iff (h : Tidy s) (sound : Sound s) {newP oldP : PlayerRef}
    {game : GameRef} {players : List PlayerRef} (before : s.ListedBefore oldP newP)
    (free : (s.player newP).inGame = false)
    (playing : GameManager.getGameByPlayer (takeOverName s newP oldP) oldP = some game)
    (erased : ErasesPlayer (handedOver s newP oldP game) oldP players) (p : PlayerRef) :
    p ∈ players ↔ p ∈ s.players ∧ p ≠ oldP := by
  obtain ⟨hold, -, hne⟩ := listed_of_before sound before
  obtain ⟨hg, hseat⟩ := h.seats_of_takeOver sound before free playing
  rw [erased.listed (by rwa [handedOver_players]), handedOver_players]
  -- two entries share the name now, and the lost player's entry comes first
  refine mem_eraseP_of_first sound.registry.playersNodup before (by simp [sameName]) ?_ p
  intro q hq hsame
  have hname := beq_iff_eq.mp hsame
  rw [name_handedOver, name_handedOver _ _ _ oldP, if_neg hne.symm] at hname
  by_cases hqnew : q = newP
  · exact Or.inr hqnew
  · rw [if_neg hqnew] at hname
    exact Or.inl (h.eq_of_seat_name sound.names hg hseat hq hname.symm).symm

/-- A reconnection that fits the state hands a seat over. -/
theorem reconnected (h : Tidy s) (sound : Sound s) {newP oldP : PlayerRef} {game : GameRef}
    {players : List PlayerRef} (before : s.ListedBefore oldP newP)
    (free : (s.player newP).inGame = false) (lost : (s.player oldP).lost = true)
    (playing : GameManager.getGameByPlayer (takeOverName s newP oldP) oldP = some game)
    (erased : ErasesPlayer (handedOver s newP oldP game) oldP players) :
    Tidy ((handedOver s newP oldP game).withPlayers players) := by
  obtain ⟨hold, hnew, hne⟩ := listed_of_before sound before
  obtain ⟨hg, hseat⟩ := h.seats_of_takeOver sound before free playing
  have hlisted := h.mem_erasedOld_iff sound before free playing erased
  -- a player that is already lost is not about to be lost again
  have honce : oldP ∉ s.lostPlayers := fun hmem => by
    rw [sound.losses.not_lost_of_mem hmem] at lost
    cases lost
  refine h.handover hg hseat hnew hne free honce hlisted (by simp) ?_
    (fun x hx => game_handedOver_of_ne s newP oldP game x hx) (by simp) (by simp)
    (by simp [handedOver, State.lostPlayers, State.internalCommands])
  -- which of the two seats is taken
  simp only [State.game_withPlayers, handedOver, takeOverSeat]
  split
  · rename_i hfirst
    rw [name_takeOverName _ _ _ newP, if_pos rfl] at hfirst
    have hseatFirst := h.eq_of_shared_name sound hold free hg (Or.inl rfl) hfirst
    exact Or.inl ⟨hseatFirst, by simp, by simp⟩
  · rename_i hsecond
    rw [name_takeOverName _ _ _ newP, if_pos rfl] at hsecond
    have hfirst : (s.game game).p1 ≠ oldP := fun heq => hsecond (by simp [heq])
    exact Or.inr ⟨hseat.resolve_left hfirst, by simp, by simp⟩

/-- Handling a command that fits keeps the state tidy. -/
theorem handled (h : Tidy s) (sound : Sound s)
    (fits : ∀ p ∈ mess.player, FitsSender s mess p)
    (lostSender : mess.header = INTERNAL_PL_LOST → ∀ p ∈ mess.player,
      p ∈ s.players ∧ p ∉ s.lostPlayers)
    (effect : Effect s mess t) : Tidy t := by
  cases effect with
  | disconnected _ _ _ closed => exact h.disconnected sound closed
  | @named p username _ header sender payload =>
    refine h.keep rfl rfl (fun _ => rfl) (fun _ => rfl) (fun q hflag hne => ?_) (by simp)
      h.lostListed
    -- only the sender is renamed, and not to the empty name while it is in a game
    have hname := (fits p sender).named header
    rw [payloadString_eq_ok_iff.mp payload] at hname
    simp only [State.player_pushOut, State.name_setName,
      State.name_modifyPlayer _ _ _ (Player.setAvailible true) fun _ => rfl]
    split
    · rename_i heq
      exact fun hempty => hname (heq ▸ hflag) (by rw [hempty])
    · exact hne
  | @reconnected newP oldP _ _ game name _ _ _ header sender payload found lost playing _ _ _ _
      erased =>
    obtain ⟨before, free⟩ := (fits newP sender).reconnect header name
      (payloadString_eq_ok_iff.mp payload) oldP found lost
    have hover := h.reconnected sound before free lost playing erased
    exact hover.keep (by simp) (by simp) (by simp) (by simp) (by simp) (by simp)
      fun p hp => hover.lostListed p (by simpa using hp)
  | @started asking asked _ _ header sender askedBy distinct waiting =>
    obtain ⟨free, free'⟩ := (fits asked sender).free header asking askedBy distinct waiting
    exact h.start sound free free' distinct (by simp [gameStarted, clearRequest])
      (by simp [gameStarted, clearRequest]) (by simp) (by simp) (by simp) (by simp)
      (by simp [gameStarted, clearRequest])
  | @moved p _ game =>
    exact h.keep rfl rfl (by simp) (by simp) (by simp) (by simp) h.lostListed
  | @won p oponent game cell cardType _ _ header sender playing against =>
    exact h.finishBoth sound ((fits p sender).move header) playing against rfl
      (by simp [freeBoth]) (by simp [freeBoth]) rfl (by simp [freeBoth]) (by simp) rfl
  | @ended p oponent game _ header sender inGame playing against =>
    exact h.finishBoth sound ((fits p sender).logout header inGame) playing against rfl
      (by simp) (by simp) rfl (by simp) (by simp) rfl
  | @endedLost p oponent game players header sender inGame playing against absent erased =>
    have hp := (fits p sender).logout header inGame
    obtain ⟨hg, hne, hseats⟩ := h.lookup sound hp playing
    rw [← against] at hne hseats
    have hoponent : (s.game game).Seats oponent := (hseats oponent).mpr (Or.inr rfl)
    have hplayers := h.mem_erasedOponent_iff sound hp playing against erased
    refine h.finish hg (sound.registry.mem_deleted_iff hg) (by simp) (by simp)
      (fun q hq => ((hplayers q).mp hq).1)
      (fun q hq hseat => (hplayers q).mpr ⟨hq, fun heq => hseat (heq ▸ hoponent)⟩)
      (by simp) ?_ ?_ ?_
    · intro q hq hseat
      have hqp : q = p := ((hseats q).mp hseat).resolve_right ((hplayers q).mp hq).2
      simp [hqp]
    · intro q hq
      have hqp : q ≠ p := fun heq => hq ((hseats q).mpr (Or.inl heq))
      simp [hqp]
    · -- the opponent is lost, so no command about it is queued
      intro q hq
      refine (hplayers q).mpr ⟨h.lostListed q hq, fun heq => ?_⟩
      rw [← heq, sound.losses.not_lost_of_mem hq] at absent
      cases absent
  | @bothLost p oponent game players players' header sender playing against absent erased
      erased' =>
    obtain ⟨hp, honce⟩ := lostSender header p sender
    obtain ⟨hg, hne, hseats⟩ := h.lookup sound hp playing
    rw [← against] at hne hseats
    have hplayers := h.mem_erasedBoth_iff sound hp playing against erased erased'
    refine h.finish hg (sound.registry.mem_deleted_iff hg) (by simp) (by simp)
      (fun q hq => ((hplayers q).mp hq).1) (fun q hq hseat => (hplayers q).mpr ⟨hq, hseat⟩)
      (by simp) (fun q hq hseat => absurd hseat ((hplayers q).mp hq).2) ?_ ?_
    · intro q hq
      have hq' := not_or.mp fun hor => hq ((hseats q).mpr hor)
      simp [hq']
    · intro q hq
      refine (hplayers q).mpr ⟨h.lostListed q hq, fun hseat => ?_⟩
      rcases (hseats q).mp hseat with heq | heq
      · exact honce (heq ▸ hq)
      · have hlost := absent.resolve_left hne
        rw [← heq, sound.losses.not_lost_of_mem hq] at hlost
        cases hlost
  | _ =>
    -- answers, requests and the mark of a lost player touch no seat and no flag
    exact h.keep rfl rfl (by simp) (by simp) (by simp [clearRequest]) (by simp [clearRequest])
      h.lostListed

/-- Popping a command. -/
theorem pop {command : Command} {rest : List Command} (h : Tidy s)
    (queue : s.commandQueue = command :: rest) : Tidy (s.withCommands rest) := by
  refine h.keep rfl rfl (fun _ => rfl) (fun _ => rfl) (fun _ _ hne => hne) (fun _ => rfl)
    fun p hp => h.lostListed p ?_
  -- the queue only gets shorter
  by_cases hinternal : command.message.header = INTERNAL_PL_LOST
  · rw [State.lostPlayers, State.internalCommands_pop queue hinternal]
    exact (List.Sublist.filterMap _ (List.sublist_cons_self _ _)).subset hp
  · rw [State.lostPlayers, State.internalCommands_pop_other queue hinternal]
    exact hp

/-- The player of a queued command of the server's own is listed. -/
theorem listed_of_internal {command : Command} {rest : List Command} (h : Tidy s)
    (queue : s.commandQueue = command :: rest)
    (internal : command.message.header = INTERNAL_PL_LOST) {p : PlayerRef}
    (player : p ∈ command.message.player) : p ∈ s.players := by
  apply h.lostListed
  rw [State.lostPlayers, State.internalCommands_pop queue internal]
  exact List.mem_filterMap.mpr ⟨command, List.mem_cons_self, player⟩

end Tidy

/-- A command fits its sender before and after it is popped. -/
theorem fits_of_orderly {s : State} {command : Command} {rest : List Command}
    (h : Orderly s .runCommand) (queue : s.commandQueue = command :: rest) :
    ∀ p ∈ command.message.player, FitsSender (s.withCommands rest) command.message p := by
  intro p hp
  have hfits := h rfl command (by rw [queue]; rfl) p hp
  exact ⟨hfits.named, hfits.free, hfits.move, hfits.logout, hfits.reconnect⟩

theorem Sound.pop {s : State} {command : Command} {rest : List Command} (h : Sound s)
    (queue : s.commandQueue = command :: rest) : Sound (s.withCommands rest) where
  registry := h.registry.same (sameWorld_withCommands s rest)
  connections := h.connections.keep rfl rfl (fun _ => rfl) fun _ => rfl
  names := h.names.shrink (List.Sublist.refl _) fun _ => rfl
  losses := h.losses.pop queue

/-- In every orderly run flags, seats and the two registries agree. -/
theorem tidy_of_orderly {s : State} (h : System.ReachableUnder Orderly s) : Tidy s := by
  refine world_invariant h (fun _ => sound_of_reachable) (fun _ _ hquiet hsound =>
    hsound.quiet hquiet) Tidy.initial (fun _ _ hquiet htidy => htidy.quiet hquiet)
    (fun _ fd nameSet hsound htidy _ => htidy.addPlayer hsound fd nameSet)
    (fun _ _ _ hsound htidy hclosed => htidy.disconnected hsound hclosed) ?_
  intro t u command rest hsound htidy horderly hqueue heffect
  -- the command is popped first, so its effect starts from the shorter queue
  refine (htidy.pop hqueue).handled (hsound.pop hqueue) (fits_of_orderly horderly hqueue)
    (fun hheader p hp => ?_) heffect
  exact ⟨htidy.listed_of_internal hqueue hheader hp,
    (hsound.losses.popped hqueue hheader hp).2.2.2.2⟩

end UpsServer
