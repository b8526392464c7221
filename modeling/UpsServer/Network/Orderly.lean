import UpsServer.Network.Names
import UpsServer.Network.Losses
import Mathlib.Tactic.MkIffOfInductiveProp

/-!
# Orderly runs

The handlers check little about the state of their sender. This module says which commands fit
the state (`Orderly`) and proves that, as long as only such commands are handled, the flags,
the seats and the two registries agree (`Tidy`). Under that invariant the look-ups by name
resolve to the game and the opponent of the very player who sent the command.
-/

namespace UpsServer

open Framework CommandManager

/-! ## Commands that fit the state -/

/-- The name in a message whose first entry is a string. -/
def Message.firstName (mess : Message) : Option ByteString :=
  match mess.payload[0]? with
  | some (Datum.str name) => some name
  | _ => none

theorem payloadString_eq_ok_iff {mess : Message} {name : ByteString} :
    payloadString mess 0 = .ok name ↔ mess.firstName = some name := by
  unfold payloadString Message.stringAt Message.firstName
  rw [mapError_eq_ok_iff]
  split <;> rename_i heq <;> simp [heq]

/-- A listed player under a name of its own who is in no game. -/
def State.Free (s : State) (p : PlayerRef) : Prop :=
  p ∈ s.players ∧ (s.player p).name ≠ [] ∧ (s.player p).inGame = false

instance (s : State) (p : PlayerRef) : Decidable (s.Free p) :=
  inferInstanceAs (Decidable (_ ∧ _ ∧ _))

/-- `p` stands before `q` in the player list. -/
def State.ListedBefore (s : State) (p q : PlayerRef) : Prop := [p, q].Sublist s.players

instance (s : State) (p q : PlayerRef) : Decidable (s.ListedBefore p q) :=
  inferInstanceAs (Decidable ([p, q].Sublist s.players))

/-- The command fits the state of its sender `p`. -/
@[mk_iff] structure FitsSender (s : State) (mess : Message) (p : PlayerRef) : Prop where
  /-- A player in a game does not give up its name. -/
  named : mess.header = H_C_NEW_PL → (s.player p).inGame = true → mess.firstName ≠ some []
  /-- A game starts between two free players. -/
  free : mess.header = H_C_ACCEPT_JOIN → ∀ asking ∈ (s.player p).askedForJoiningBy,
    asking ≠ p → (s.player asking).joiningPlayer.isSome = true → s.Free asking ∧ s.Free p
  /-- Moves come from listed players. -/
  move : mess.header = H_C_GAME_MOVE → p ∈ s.players
  /-- A game is left by a listed player. -/
  logout : mess.header = H_C_PL_LOGOUT → (s.player p).inGame = true → p ∈ s.players
  /-- The seat of a lost player goes to a player in no game that was accepted later. -/
  reconnect : mess.header = H_C_PL_RECONN → ∀ name ∈ mess.firstName,
    ∀ oldP ∈ Server.getPlayerByName s name, (s.player oldP).lost = true →
      s.ListedBefore oldP p ∧ (s.player p).inGame = false

/-- The condition on a step: a handled command fits the state of its sender. -/
def Orderly (s : State) (a : Action) : Prop :=
  a = .runCommand → ∀ command ∈ s.commandQueue.head?, ∀ p ∈ command.message.player,
    FitsSender s command.message p

instance (s : State) (mess : Message) (p : PlayerRef) : Decidable (FitsSender s mess p) :=
  decidable_of_iff' _ (fitsSender_iff s mess p)

instance (s : State) (a : Action) : Decidable (Orderly s a) :=
  inferInstanceAs (Decidable (_ → ∀ command ∈ s.commandQueue.head?,
    ∀ p ∈ command.message.player, _))

/-! ## The invariant of orderly runs -/

/-- What is known of every reachable state. -/
structure Sound (s : State) : Prop where
  registry : Registry s
  connections : Connections s
  names : UniqueNames s
  losses : Losses s

theorem sound_of_reachable {s : State} (h : System.Reachable s) : Sound s :=
  ⟨registry_of_reachable h, connections_of_reachable h, uniqueNames_of_reachable h,
    losses_of_reachable h⟩

theorem Sound.quiet {s t : State} (h : Sound s) (quiet : Quiet s t) : Sound t where
  registry := h.registry.same quiet.toSameWorld
  connections :=
    h.connections.keep quiet.descriptors quiet.nextPlayer quiet.socket quiet.socketSet
  names := h.names.shrink (by rw [quiet.players]) quiet.name
  losses := h.losses.keep quiet.nextPlayer quiet.lost (fun p hp => by rw [quiet.socketSet, hp])
    quiet.internalCommands

/-- Flags, seats and the two registries agree. -/
structure Tidy (s : State) : Prop where
  seatsListed : ∀ g ∈ s.games, ∀ p, (s.game g).Seats p → p ∈ s.players
  seatsNamed : ∀ g ∈ s.games, ∀ p, (s.game g).Seats p → (s.player p).name ≠ []
  seatsDistinct : ∀ g ∈ s.games, (s.game g).p1 ≠ (s.game g).p2
  oneGame : ∀ g ∈ s.games, ∀ h ∈ s.games, ∀ p, (s.game g).Seats p → (s.game h).Seats p → g = h
  flag : ∀ p ∈ s.players, (s.player p).inGame = true ↔ s.Seated p
  lostListed : ∀ p ∈ s.lostPlayers, p ∈ s.players

namespace Tidy

variable {s t : State}

theorem initial : Tidy State.initial where
  seatsListed := by simp [State.initial]
  seatsNamed := by simp [State.initial]
  seatsDistinct := by simp [State.initial]
  oneGame := by simp [State.initial]
  flag := by simp [State.initial]
  lostListed := by simp [State.lostPlayers, State.internalCommands, State.initial]

/-! ### Look-ups resolve to the sender's own game -/

/-- A listed player with the name of a seated one is that one. -/
theorem eq_of_seat_name (h : Tidy s) (names : UniqueNames s) {g : GameRef} {p q : PlayerRef}
    (hg : g ∈ s.games) (hq : (s.game g).Seats q) (hp : p ∈ s.players)
    (hname : (s.player q).name = (s.player p).name) : q = p :=
  names.eq_of_name (h.seatsListed g hg q hq) hp hname (h.seatsNamed g hg q hq)

/-- The game found for a listed player seats it. -/
theorem seats_of_lookup (h : Tidy s) (names : UniqueNames s) {g : GameRef} {p : PlayerRef}
    (hp : p ∈ s.players) (hfound : GameManager.getGameByPlayer s p = some g) :
    g ∈ s.games ∧ (s.game g).Seats p := by
  obtain ⟨hg, hname⟩ := GameManager.getGameByPlayer_eq_some hfound
  -- the match on a name is a match on the player, since both are listed and named
  rw [GameManager.seatsName, Bool.or_eq_true, beq_iff_eq, beq_iff_eq] at hname
  rcases hname with hname | hname
  · exact ⟨hg, Or.inl (h.eq_of_seat_name names hg (Or.inl rfl) hp hname)⟩
  · exact ⟨hg, Or.inr (h.eq_of_seat_name names hg (Or.inr rfl) hp hname)⟩

/-- A seated player's game is found. -/
theorem lookup_of_seats (h : Tidy s) (names : UniqueNames s) {g : GameRef} {p : PlayerRef}
    (hg : g ∈ s.games) (hseat : (s.game g).Seats p) :
    GameManager.getGameByPlayer s p = some g := by
  have hmatch : GameManager.seatsName s (s.player p).name g = true := by
    rw [GameManager.seatsName, Bool.or_eq_true, beq_iff_eq, beq_iff_eq]
    rcases hseat with hseat | hseat
    · exact Or.inl (by rw [hseat])
    · exact Or.inr (by rw [hseat])
  -- some game is found, it seats the player, and the player sits in one game only
  obtain ⟨g', hfound⟩ := exists_lastMatch _ hg hmatch
  have hfound' : GameManager.getGameByPlayer s p = some g' := hfound
  obtain ⟨hg', hseat'⟩ := h.seats_of_lookup names (h.seatsListed g hg p hseat) hfound'
  rw [hfound', h.oneGame g hg g' hg' p hseat hseat']

/-- The opponent found is the other one of the two seated players. -/
theorem otherSeat_of_seats (h : Tidy s) (names : UniqueNames s) {g : GameRef} {p : PlayerRef}
    (hg : g ∈ s.games) (hseat : (s.game g).Seats p) :
    GameManager.otherSeat s g p ≠ p ∧
      ∀ q, (s.game g).Seats q ↔ q = p ∨ q = GameManager.otherSeat s g p := by
  have hp := h.seatsListed g hg p hseat
  have hdistinct := h.seatsDistinct g hg
  unfold GameManager.otherSeat
  -- the handlers compare the name of the first seat only
  split
  · rename_i hname
    have h1 : (s.game g).p1 = p := h.eq_of_seat_name names hg (Or.inl rfl) hp hname
    refine ⟨fun heq => hdistinct (h1.trans heq.symm), fun q => ?_⟩
    rw [Game.Seats, h1, eq_comm, @eq_comm _ _ q]
  · rename_i hname
    have h1 : (s.game g).p1 ≠ p := fun heq => hname (by rw [heq])
    have h2 : (s.game g).p2 = p := hseat.resolve_left h1
    refine ⟨h1, fun q => ?_⟩
    rw [Game.Seats, h2, eq_comm, @eq_comm _ p q, or_comm]

end Tidy

end UpsServer
