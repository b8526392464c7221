import UpsServer.Network.Endings

/-!
# Disconnected players that stay in the list

A player who is disconnected during a game stays in the list for a reconnection. Every way in
which the game can end has to take that player out of the list, too. A winning move does not, and
neither does the logout of a player who is lost itself, so both are excluded here.
-/

namespace UpsServer

open Framework CommandManager Sender

/-- While nobody is about to be lost, every listed player without a socket is lost and seated in a
    registered game; and a reconnection to a lost player finds a game. -/
def NoZombies (s : State) : Prop :=
  (s.internalCommands = [] → ∀ p ∈ s.players, (s.player p).hasSocket = false →
    (s.player p).lost = true ∧ s.Seated p) ∧
  ∀ name, ∀ oldP ∈ Server.getPlayerByName s name, (s.player oldP).lost = true →
    ∀ newP, GameManager.getGameByPlayer (takeOverName s newP oldP) oldP ≠ none

/-- Every listed player without a socket is about to be lost, or lost and in a game. -/
def Accounted (s : State) : Prop :=
  ∀ p ∈ s.players, (s.player p).socketSet = false →
    p ∈ s.lostPlayers ∨ ((s.player p).lost = true ∧ (s.player p).inGame = true)

theorem Accounted.noZombies {s : State} (h : Accounted s) (hsettled : Settled s) :
    NoZombies s := by
  constructor
  · intro hnone p hp hclosed
    rcases h p hp hclosed with hlost | ⟨hlost, hflag⟩
    · rw [State.lostPlayers, hnone] at hlost
      cases hlost
    · exact ⟨hlost, (hsettled.tidy.flag p hp).mp hflag⟩
  · intro name oldP hfound hlost newP
    have hlisted : oldP ∈ s.players := List.mem_of_find?_eq_some hfound
    have hclosed := (hsettled.sound.losses.lostClosed oldP hlost).2
    -- a lost player is not about to be lost, so it is accounted for by its game
    rcases h oldP hlisted hclosed with hmem | ⟨-, hflag⟩
    · rw [hsettled.sound.losses.not_lost_of_mem hmem] at hlost
      cases hlost
    · apply lookup_takeOverName_ne_none_iff.mpr
      exact Or.inl ((hsettled.tidy.nameSeated_iff hsettled.sound hlisted).mpr hflag)

/-! ## Games end around players who are not lost -/

/-- The command ends a game only when its sender is not lost, and by a move only when the opponent
    is not lost either. -/
def EndsNoAbsence (s : State) (a : Action) : Prop :=
  a = .runCommand → ∀ command ∈ s.commandQueue.head?, ∀ p ∈ command.message.player,
    ∀ game ∈ endedGame s command.message p, (s.player p).lost = false ∧
      (command.message.header = H_C_GAME_MOVE →
        (s.player (GameManager.otherSeat s game p)).lost = false)

instance (s : State) (a : Action) : Decidable (EndsNoAbsence s a) :=
  inferInstanceAs (Decidable (_ → ∀ command ∈ s.commandQueue.head?,
    ∀ p ∈ command.message.player, ∀ game ∈ endedGame s command.message p, _ ∧ (_ → _)))

/-- The condition on a step: it is orderly and ends no game around a lost player. -/
def EndsPresent (s : State) (a : Action) : Prop := Orderly s a ∧ EndsNoAbsence s a

instance (s : State) (a : Action) : Decidable (EndsPresent s a) :=
  inferInstanceAs (Decidable (_ ∧ _))

theorem EndsNoAbsence.present {s : State} {command : Command} {rest : List Command}
    (h : EndsNoAbsence s .runCommand) (queue : s.commandQueue = command :: rest) {p : PlayerRef}
    (sender : command.message.player = some p) {game : GameRef}
    (ended : endedGame (s.withCommands rest) command.message p = some game) :
    (s.player p).lost = false ∧ (command.message.header = H_C_GAME_MOVE →
      (s.player (GameManager.otherSeat s game p)).lost = false) :=
  h rfl command (by rw [queue]; rfl) p sender game ended

namespace Accounted

variable {s t : State}

/-- Steps that neither list anybody nor take a connection, a mark or a flag away. -/
theorem keep (h : Accounted s) (players : ∀ p ∈ t.players, p ∈ s.players)
    (socketSet : ∀ p, (t.player p).socketSet = (s.player p).socketSet)
    (lostPlayers : ∀ p ∈ s.lostPlayers, p ∈ t.lostPlayers)
    (flags : ∀ p ∈ t.players, (s.player p).lost = true → (s.player p).inGame = true →
      (t.player p).lost = true ∧ (t.player p).inGame = true) : Accounted t := by
  intro p hp hclosed
  rw [socketSet] at hclosed
  rcases h p (players p hp) hclosed with hmem | ⟨hlost, hflag⟩
  · exact Or.inl (lostPlayers p hmem)
  · exact Or.inr (flags p hp hlost hflag)

/-- Steps that change nothing that the condition reads. -/
theorem same (h : Accounted s) (players : t.players = s.players)
    (socketSet : ∀ p, (t.player p).socketSet = (s.player p).socketSet)
    (lostPlayers : t.lostPlayers = s.lostPlayers)
    (lost : ∀ p, (t.player p).lost = (s.player p).lost)
    (inGame : ∀ p, (t.player p).inGame = (s.player p).inGame) : Accounted t := by
  apply h.keep
  · intro p hp
    exact players ▸ hp
  · exact socketSet
  · intro p hp
    exact lostPlayers ▸ hp
  · intro p _ hlost hflag
    rw [lost, inGame]
    exact ⟨hlost, hflag⟩

theorem quiet (h : Accounted s) (quiet : Quiet s t) : Accounted t := by
  refine h.same quiet.players quiet.socketSet ?_ quiet.lost quiet.inGame
  rw [State.lostPlayers, quiet.internalCommands, State.lostPlayers]

theorem addPlayer (h : Accounted s) (hsound : Sound s) (fd : Int) (nameSet : Bool) :
    Accounted (Server.addPlayer s fd nameSet) := by
  intro p hp hclosed
  rw [Server.player_addPlayer] at hclosed ⊢
  rcases List.mem_append.mp hp with hp | hp
  · have hold : p ≠ s.playerHeap.next := Nat.ne_of_lt (hsound.registry.playersAllocated p hp)
    rw [if_neg hold] at hclosed ⊢
    exact h p hp hclosed
  · -- the newcomer has a socket
    rw [if_pos (List.mem_singleton.mp hp)] at hclosed
    cases hclosed

theorem disconnected {fd : Int} (h : Accounted s) (hsound : Sound s)
    (closed : Disconnection s fd t) : Accounted t := by
  cases closed with
  | @left pl found =>
    intro p hp hclosed
    -- the player whose connection ended is not listed any more
    obtain ⟨hp, hne⟩ :=
      (hsound.connections.mem_erasedBySocket_iff hsound.registry found p).mp hp
    simp only [State.player_withPlayers, State.player_modifyPlayer_of_ne _ _ hne,
      State.player_closeSocket] at hclosed ⊢
    exact h p hp hclosed
  | @stays pl found =>
    intro p hp hclosed
    rw [State.lostPlayers, Losses.internalCommands_registerLost, List.filterMap_append]
    by_cases hpl : p = pl
    · -- a command about it is queued
      refine Or.inl (List.mem_append_right _ ?_)
      simp [hpl, Server.lostMessage, Message.withPlayer]
    · simp only [State.player_registerCommand, State.player_modifyPlayer_of_ne _ _ hpl,
        State.player_closeSocket] at hclosed ⊢
      exact (h p hp hclosed).imp_left (List.mem_append_left _)

/-- A command of a client is popped. -/
theorem pop {command : Command} {rest : List Command} (h : Accounted s)
    (queue : s.commandQueue = command :: rest)
    (client : command.message.header ≠ INTERNAL_PL_LOST) : Accounted (s.withCommands rest) := by
  refine h.keep (fun p hp => hp) (fun _ => rfl) ?_ fun p _ hlost hflag => ⟨hlost, hflag⟩
  intro p hp
  rw [State.lostPlayers, State.internalCommands_pop_other queue client] at hp
  exact hp

/-- The command about a lost player is popped. -/
theorem pop_lost {command : Command} {rest : List Command} (h : Accounted s)
    (queue : s.commandQueue = command :: rest)
    (internal : command.message.header = INTERNAL_PL_LOST) {lost : PlayerRef}
    (sender : command.message.player = some lost) {p : PlayerRef} (listed : p ∈ s.players)
    (closed : (s.player p).socketSet = false) :
    p = lost ∨ p ∈ (s.withCommands rest).lostPlayers ∨
      ((s.player p).lost = true ∧ (s.player p).inGame = true) := by
  rcases h p listed closed with hmem | hor
  · rw [State.lostPlayers, State.internalCommands_pop queue internal, List.filterMap_cons,
      sender] at hmem
    rcases List.mem_cons.mp hmem with heq | hmem
    · exact Or.inl heq
    · exact Or.inr (Or.inl hmem)
  · exact Or.inr (Or.inr hor)

/-- The command about a lost player marks it, and the player is in a game. -/
theorem marked {command : Command} {rest : List Command} (h : Accounted s)
    (queue : s.commandQueue = command :: rest)
    (internal : command.message.header = INTERNAL_PL_LOST) {lost : PlayerRef}
    (sender : command.message.player = some lost) (flagged : (s.player lost).inGame = true) :
    Accounted ((s.withCommands rest).modifyPlayer lost fun p => { p with lost := true }) := by
  intro p hp hclosed
  simp only [State.socketSet_modifyPlayer, State.inGame_modifyPlayer, implies_true]
    at hclosed ⊢
  rcases h.pop_lost queue internal sender hp hclosed with rfl | hmem | ⟨hlost, hflag⟩
  · refine Or.inr ⟨?_, flagged⟩
    rw [State.player_modifyPlayer_self]
  · exact Or.inl hmem
  · refine Or.inr ⟨?_, hflag⟩
    rw [State.player_modifyPlayer]
    split
    · rfl
    · exact hlost

/-- A game ends around two players of whom the listed ones are not lost. -/
theorem ended (h : Accounted s) (p oponent : PlayerRef)
    (players : ∀ q ∈ t.players, q ∈ s.players)
    (socketSet : ∀ q, (t.player q).socketSet = (s.player q).socketSet)
    (lostPlayers : t.lostPlayers = s.lostPlayers)
    (lost : ∀ q, (t.player q).lost = (s.player q).lost)
    (inGame : ∀ q, q ≠ p → q ≠ oponent → (t.player q).inGame = (s.player q).inGame)
    (present : (s.player p).lost = false)
    (presentOponent : oponent ∈ t.players → (s.player oponent).lost = false) : Accounted t := by
  apply h.keep players socketSet (fun q hq => lostPlayers ▸ hq)
  intro q hq hlost hflag
  have hp : q ≠ p := by
    rintro rfl
    rw [present] at hlost
    cases hlost
  have hoponent : q ≠ oponent := by
    rintro rfl
    rw [presentOponent hq] at hlost
    cases hlost
  rw [lost, inGame q hp hoponent]
  exact ⟨hlost, hflag⟩

theorem handled {command : Command} {rest : List Command} (h : Accounted s)
    (hsettled : Settled s) (queue : s.commandQueue = command :: rest)
    (guarded : EndsPresent s .runCommand)
    (handled : dispatch (s.withCommands rest) command.message = .ok t) : Accounted t := by
  have htidy := hsettled.tidy.pop queue
  have hsound := hsettled.sound.pop queue
  have heffect := dispatch_effect handled
  cases heffect with
  | disconnected header _ _ closed =>
    exact (h.pop queue (by rw [header]; decide)).disconnected hsound closed
  | @won p oponent game cell cardType _ _ header sender playing against =>
    have hgame := (GameManager.getGameByPlayer_eq_some playing).1
    have hended : endedGame (s.withCommands rest) command.message p = some game := by
      apply endedGame_of_move header sender playing handled
      intro hmem
      exact ((hsound.registry.mem_deleted_iff hgame game).mp hmem).2 rfl
    obtain ⟨hpresent, hoponent⟩ := guarded.2.present queue sender hended
    refine (h.pop queue (by rw [header]; decide)).ended p oponent
      (fun q hq => hq) (by simp) rfl (by simp) ?_ hpresent fun _ => against ▸ hoponent header
    intro q hp hoponent
    simp [hp, hoponent]
  | @ended p oponent game _ header sender inGame playing against present =>
    obtain ⟨hpresent, -⟩ := guarded.2.present queue sender
      (endedGame_of_logout header inGame playing)
    refine (h.pop queue (by rw [header]; decide)).ended p oponent
      (fun q hq => hq) (by simp) rfl (by simp) ?_ hpresent fun _ => present
    intro q hp hoponent
    simp [hp, hoponent]
  | @endedLost p oponent game players header sender inGame playing against absent erased =>
    obtain ⟨hpresent, -⟩ := guarded.2.present queue sender
      (endedGame_of_logout header inGame playing)
    have hfits := guarded.1 rfl command (by rw [queue]; rfl) p sender
    -- the lost opponent leaves the list
    have hplayers := htidy.mem_erasedOponent_iff hsound (hfits.logout header inGame) playing
      against erased
    refine (h.pop queue (by rw [header]; decide)).ended p oponent
      (fun q hq => ((hplayers q).mp hq).1) (by simp) rfl (by simp) ?_ hpresent
      fun hmem => absurd rfl ((hplayers oponent).mp hmem).2
    intro q hp _
    simp [hp]
  | @missed lost oponent game _ header sender playing against =>
    have hlisted := hsettled.tidy.listed_of_internal queue header sender
    -- the lost player is flagged, since the game that was found seats it
    have hseat := htidy.seats_of_lookup hsound.names hlisted playing
    exact h.marked queue header sender ((htidy.flag lost hlisted).mpr ⟨game, hseat⟩)
  | @bothLost lost oponent game players players' header sender playing against absent erased
      erased' =>
    have hlisted := hsettled.tidy.listed_of_internal queue header sender
    have hplayers := htidy.mem_erasedBoth_iff hsound hlisted playing against erased erased'
    obtain ⟨-, -, hseats⟩ := htidy.lookup hsound hlisted playing
    intro p hp hclosed
    obtain ⟨hp, hseat⟩ := (hplayers p).mp hp
    -- neither of the two players of the game is listed any more
    have hne : p ≠ lost ∧ p ≠ oponent := by
      rw [hseats, ← against, not_or] at hseat
      exact hseat
    simp only [State.player_withPlayers, State.player_modifyPlayer_of_ne _ _ hne.1,
      State.player_modifyPlayer_of_ne _ _ hne.2, State.player_withGames] at hclosed ⊢
    exact (h.pop_lost queue header sender hp hclosed).resolve_left hne.1
  | @reconnected newP oldP _ _ game _ _ _ players header _ _ _ _ _ _ _ _ _ erased =>
    refine (h.pop queue (by rw [header]; decide)).keep ?_ (by simp [handedOver]) ?_ ?_
    · intro p hp
      have hsub := erased.sublist.subset hp
      rwa [handedOver_players] at hsub
    · intro p hp
      simpa [handedOver, State.lostPlayers, State.internalCommands] using hp
    · intro p _ hlost hflag
      refine ⟨by simpa [handedOver] using hlost, ?_⟩
      simp only [State.player_withPlayers, State.player_pushOut, inGame_handedOver]
      split
      · rfl
      · exact hflag
  | started header =>
    refine (h.pop queue (by rw [header]; decide)).keep (fun p hp => hp) (by simp)
      (fun p hp => hp) ?_
    intro p _ hlost hflag
    refine ⟨by simpa using hlost, ?_⟩
    simp only [State.player_pushOut, inGame_gameStarted]
    split
    · rfl
    · exact hflag
  | ignored header =>
    exact h.pop queue fun heq => header (by rw [heq]; decide)
  | answered header =>
    have hclient : command.message.header ≠ INTERNAL_PL_LOST := by
      intro heq
      rw [heq] at header
      exact absurd header (by decide)
    exact (h.pop queue hclient).same rfl (by simp) rfl (by simp) (by simp)
  | named header | asked header | gone header | declined header | moved header =>
    exact (h.pop queue (by rw [header]; decide)).same rfl (by simp [clearRequest]) rfl
      (by simp [clearRequest]) (by simp [clearRequest])

end Accounted

theorem accounted_of_endsPresent {s : State} (h : System.ReachableUnder EndsPresent s) :
    Accounted s := by
  refine guarded_invariant h (fun _ => settled_of_orderly fun _ _ => And.left)
    (fun p hp => by cases hp) ?_
  intro t u a hknown haccounted hguard hexec hstep
  cases hstep with
  | quiet hquiet => exact haccounted.quiet hquiet
  | accepted => exact haccounted.addPlayer hknown.sound _ _
  | closed hquiet hclosed =>
    exact (haccounted.quiet hquiet).disconnected (hknown.sound.quiet hquiet) hclosed
  | @handled command rest _ hqueue =>
    rw [exec_runCommand hqueue] at hexec
    exact haccounted.handled hknown hqueue hguard hexec

/-- **No zombie players**: in every orderly run in which a move wins only against a player who is
    not lost and nobody who is lost ends a game. -/
theorem no_zombie_players (s : State) (h : System.ReachableUnder EndsPresent s) : NoZombies s :=
  (accounted_of_endsPresent h).noZombies (settled_of_orderly (fun _ _ => And.left) h)

theorem no_zombie_players_lost :
    ((System.machine.after EndsPresent System.loseOne).player 0).hasSocket = false ∧
      0 ∈ (System.machine.after EndsPresent System.loseOne).players ∧
      NoZombies (System.machine.after EndsPresent System.loseOne) :=
  ⟨by decide +kernel, by decide +kernel, no_zombie_players _ (Machine.reachableUnder_after _)⟩

/-- While `A` is lost, `B` closes a line of four cards. -/
def winAlone : List Action :=
  System.loseOne ++ System.deliver 6 H_C_GAME_MOVE [.int 3, .int 0, .int 0] ++
    System.deliver 6 H_C_GAME_MOVE [.int 6, .int 0, .int 1] ++
    System.deliver 6 H_C_GAME_MOVE [.int 4, .int 1, .int 0] ++
    System.deliver 6 H_C_GAME_MOVE [.int 5, .int 1, .int 1]

/-- In some run a lost player stays in the list after its game. -/
theorem win_leaves_a_zombie : ¬ ∀ s, System.Reachable s → NoZombies s := by
  intro h
  -- `A` is player 0, without a socket and without a game
  have hseated := ((h _ (System.reachable_after winAlone)).1 (by decide +kernel) 0
    (by decide +kernel) (by decide +kernel)).2
  exact absurd hseated (by decide +kernel)

end UpsServer
