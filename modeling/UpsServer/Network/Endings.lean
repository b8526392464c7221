import UpsServer.Network.Moves
import UpsServer.Network.NullSafety
import UpsServer.Network.OrderlyGames

/-!
# Lost players and the ends of games

The server thread notices that a player in a game is gone and queues a command about it; other
commands may end the game before that one is handled. Two things can go wrong: the command about
the lost player finds no game, or the game ends around a lost player who then stays in the list.
Both are excluded when a game ends only in a state that has no such player in it.
-/

namespace UpsServer

open Framework CommandManager Sender

/-! ## Commands about lost players -/

/-- Marking a player as lost is safe exactly when a game is found for it. -/
theorem playerLost_ne_nullPointer_iff {s : State} {mess : Message} {p : PlayerRef}
    (sender : mess.player = some p) :
    proceedPlayerLost s mess ≠ .error .nullPointer ↔ GameManager.getGameByPlayer s p ≠ none := by
  unfold proceedPlayerLost
  rw [sender, deref_some, ok_bind]
  cases hgame : GameManager.getGameByPlayer s p with
  | none => simp
  | some game =>
    simp only [deref_some, ok_bind, ne_eq, reduceCtorEq, not_false_eq_true, iff_true]
    split
    · apply bind_ne_nullPointer deleteGame_ne_nullPointer
      intro _ _
      exact bind_ne_nullPointer deletePlayer_ne_nullPointer fun _ _ => deletePlayer_ne_nullPointer
    · exact tell_ne_nullPointer

/-- The command about a lost player at the head of the queue finds a game that seats the player,
    and handling it dereferences no null pointer. -/
def LossMeetsGame (s : State) : Prop :=
  ∀ command ∈ s.commandQueue.head?, command.message.header = INTERNAL_PL_LOST →
    ∃ p game, command.message.player = some p ∧
      GameManager.getGameByPlayer s p = some game ∧ game ∈ s.games ∧ (s.game game).Seats p ∧
      System.exec s .runCommand ≠ .error .nullPointer

/-- Whoever is about to be lost is still in a game. -/
def LossesInGame (s : State) : Prop := ∀ p ∈ s.lostPlayers, (s.player p).inGame = true

theorem mem_lostPlayers_pop {s : State} {command : Command} {rest : List Command}
    (queue : s.commandQueue = command :: rest) {p : PlayerRef}
    (h : p ∈ (s.withCommands rest).lostPlayers) : p ∈ s.lostPlayers := by
  by_cases hinternal : command.message.header = INTERNAL_PL_LOST
  · rw [State.lostPlayers, State.internalCommands_pop queue hinternal]
    exact (List.Sublist.filterMap _ (List.sublist_cons_self _ _)).subset h
  · rw [State.lostPlayers, State.internalCommands_pop_other queue hinternal]
    exact h

/-- In a tidy state the flags of the players about to be lost say that their games are found. -/
theorem LossesInGame.lossMeetsGame {s : State} (h : LossesInGame s) (htidy : Tidy s)
    (hsound : Sound s) : LossMeetsGame s := by
  intro command hcommand hheader
  obtain ⟨rest, hqueue⟩ := List.head?_eq_some_iff.mp hcommand
  have hpop := State.internalCommands_pop hqueue hheader
  obtain ⟨p, hp, -⟩ := hsound.losses.queued command (by rw [hpop]; exact List.mem_cons_self)
  have hsender : command.message.player = some p := by rw [hp]; rfl
  have hmem : p ∈ s.lostPlayers := by
    rw [State.lostPlayers, hpop]
    exact List.mem_filterMap.mpr ⟨command, List.mem_cons_self, hsender⟩
  -- the flag is set, so the player is seated, and its own game is the one found
  obtain ⟨game, hgame, hseat⟩ := (htidy.flag p (htidy.lostListed p hmem)).mp (h p hmem)
  have hfound := htidy.lookup_of_seats hsound.names hgame hseat
  refine ⟨p, game, hsender, hfound, hgame, hseat, ?_⟩
  have hfound' : GameManager.getGameByPlayer (s.withCommands rest) p ≠ none := by
    show GameManager.getGameByPlayer s p ≠ none
    rw [hfound]
    exact Option.some_ne_none game
  have hsafe := (playerLost_ne_nullPointer_iff hsender).mpr hfound'
  rw [exec_runCommand hqueue, dispatch_lost hheader]
  exact hsafe

/-! ## Games end without players about to be lost -/

/-- The step ends no game of a player that is about to be lost. -/
def EndsNoLoss (s : State) (a : Action) : Prop :=
  a = .runCommand → ∀ command ∈ s.commandQueue.head?, ∀ p ∈ command.message.player,
    ∀ game ∈ endedGame s command.message p,
      (s.game game).p1 ∉ s.lostPlayers ∧ (s.game game).p2 ∉ s.lostPlayers

instance (s : State) (a : Action) : Decidable (EndsNoLoss s a) :=
  inferInstanceAs (Decidable (_ → ∀ command ∈ s.commandQueue.head?,
    ∀ p ∈ command.message.player, ∀ game ∈ endedGame s command.message p, _ ∧ _))

/-- The condition on a step: it is orderly and ends no game of a player about to be lost. -/
def LossesFirst (s : State) (a : Action) : Prop := Orderly s a ∧ EndsNoLoss s a

instance (s : State) (a : Action) : Decidable (LossesFirst s a) :=
  inferInstanceAs (Decidable (_ ∧ _))

theorem EndsNoLoss.not_mem {s : State} {command : Command} {rest : List Command}
    (h : EndsNoLoss s .runCommand) (queue : s.commandQueue = command :: rest) {p : PlayerRef}
    (sender : command.message.player = some p) {game : GameRef}
    (ended : endedGame s command.message p = some game) {q : PlayerRef}
    (seat : (s.game game).Seats q) : q ∉ s.lostPlayers := by
  obtain ⟨h1, h2⟩ := h rfl command (by rw [queue]; rfl) p sender game ended
  rcases seat with rfl | rfl
  · exact h1
  · exact h2

namespace LossesInGame

variable {s t : State}

/-- Steps that announce no loss and take nobody about to be lost out of a game. -/
theorem keep (h : LossesInGame s) (lost : ∀ p ∈ t.lostPlayers, p ∈ s.lostPlayers)
    (inGame : ∀ p ∈ t.lostPlayers, (s.player p).inGame = true → (t.player p).inGame = true) :
    LossesInGame t := by
  intro p hp
  exact inGame p hp (h p (lost p hp))

theorem quiet (h : LossesInGame s) (quiet : Quiet s t) : LossesInGame t := by
  have hlost : t.lostPlayers = s.lostPlayers := by
    rw [State.lostPlayers, quiet.internalCommands, State.lostPlayers]
  apply h.keep
  · intro p hp
    exact hlost ▸ hp
  · intro p _ hflag
    rw [quiet.inGame, hflag]

theorem disconnected {fd : Int} (h : LossesInGame s) (closed : Disconnection s fd t) :
    LossesInGame t := by
  cases closed with
  | left => exact h.keep (fun p hp => hp) (by simp)
  | @stays pl found playing =>
    intro p hp
    rw [State.lostPlayers, Losses.internalCommands_registerLost, List.filterMap_append] at hp
    rw [State.player_registerCommand, State.inGame_modifyPlayer _ _ _ Player.removeSocket
      fun _ => rfl]
    rcases List.mem_append.mp hp with hp | hp
    · exact h p hp
    · -- the command is queued because the flag is set
      obtain rfl : p = pl := by simpa [Server.lostMessage, Message.withPlayer] using hp
      exact playing

theorem addPlayer (h : LossesInGame s) (htidy : Tidy s) (hsound : Sound s) (fd : Int)
    (nameSet : Bool) : LossesInGame (Server.addPlayer s fd nameSet) := by
  apply h.keep
  · intro p hp
    exact hp
  · intro p hp hflag
    have hlisted := htidy.lostListed p hp
    rw [Server.player_addPlayer,
      if_neg (Nat.ne_of_lt (hsound.registry.playersAllocated p hlisted))]
    exact hflag

/-- A game in which nobody is about to be lost ends. -/
theorem ended (h : LossesInGame s) (htidy : Tidy s) (hsound : Sound s) {p oponent : PlayerRef}
    {game : GameRef} (playing : GameManager.getGameByPlayer s p = some game)
    (against : oponent = GameManager.otherSeat s game p)
    (apart : ∀ q, (s.game game).Seats q → q ∉ s.lostPlayers)
    (lost : t.lostPlayers = s.lostPlayers)
    (inGame : ∀ q, q ≠ p → q ≠ oponent → (t.player q).inGame = (s.player q).inGame) :
    LossesInGame t := by
  apply h.keep
  · intro q hq
    exact lost ▸ hq
  · intro q hq hflag
    rw [lost] at hq
    -- a listed player is seated in the game that is found for it
    have hp : q ≠ p := by
      rintro rfl
      have hseat := htidy.seats_of_lookup hsound.names (htidy.lostListed q hq) playing
      exact apart q hseat.2 hq
    have hoponent : q ≠ oponent := by
      rintro rfl
      exact apart _ (against ▸ seats_otherSeat) hq
    rw [inGame q hp hoponent, hflag]

theorem handled {command : Command} {rest : List Command} (h : LossesInGame s)
    (htidy : Tidy s) (hsound : Sound s) (queue : s.commandQueue = command :: rest)
    (guarded : EndsNoLoss s .runCommand)
    (handled : dispatch (s.withCommands rest) command.message = .ok t) : LossesInGame t := by
  have hpop : LossesInGame (s.withCommands rest) :=
    h.keep (fun p hp => mem_lostPlayers_pop queue hp) fun _ _ hflag => hflag
  have htidy' := htidy.pop queue
  have hsound' := hsound.pop queue
  -- who is in a game that this command ends is not about to be lost
  have happart : ∀ {p game}, command.message.player = some p →
      endedGame (s.withCommands rest) command.message p = some game →
      ∀ q, (s.game game).Seats q → q ∉ (s.withCommands rest).lostPlayers := by
    intro p game hsender hended q hseat hq
    exact guarded.not_mem queue hsender hended hseat (mem_lostPlayers_pop queue hq)
  have heffect := dispatch_effect handled
  cases heffect with
  | disconnected _ _ _ closed => exact hpop.disconnected closed
  | @won p oponent game cell cardType _ _ header sender playing against =>
    have hgame := (GameManager.getGameByPlayer_eq_some playing).1
    have hended : endedGame (s.withCommands rest) command.message p = some game := by
      apply endedGame_of_move header sender playing handled
      intro hmem
      exact ((hsound'.registry.mem_deleted_iff hgame game).mp hmem).2 rfl
    refine hpop.ended htidy' hsound' playing against (happart sender hended) rfl ?_
    intro q hp hoponent
    simp [hp, hoponent]
  | @ended p oponent game _ header sender inGame playing against =>
    refine hpop.ended htidy' hsound' playing against
      (happart sender (endedGame_of_logout header inGame playing)) rfl ?_
    intro q hp hoponent
    simp [hp, hoponent]
  | @endedLost p oponent game _ header sender inGame playing against =>
    refine hpop.ended htidy' hsound' playing against
      (happart sender (endedGame_of_logout header inGame playing)) rfl ?_
    intro q hp _
    simp [hp]
  | @bothLost p oponent game _ _ header sender playing against absent =>
    obtain ⟨-, -, -, -, honce⟩ := hsound.losses.popped queue header sender
    refine hpop.keep (fun q hq => hq) ?_
    intro q hq hflag
    -- the popped command was the last one about its player, and its opponent is lost already
    have hp : q ≠ p := by
      rintro rfl
      exact honce hq
    have hoponent : q ≠ oponent := by
      rintro rfl
      rcases absent with rfl | hlost
      · exact honce hq
      · rw [hsound'.losses.not_lost_of_mem hq] at hlost
        cases hlost
    simpa [hp, hoponent] using hflag
  | reconnected =>
    apply hpop.keep
    · intro q hq
      simpa [handedOver, State.lostPlayers, State.internalCommands] using hq
    · intro q _ hflag
      simp only [State.player_withPlayers, State.player_pushOut, inGame_handedOver]
      split
      · rfl
      · exact hflag
  | started =>
    apply hpop.keep
    · intro q hq
      exact hq
    · intro q _ hflag
      simp only [State.player_pushOut, inGame_gameStarted]
      split
      · rfl
      · exact hflag
  | _ => exact hpop.keep (fun q hq => hq) (by simp [clearRequest])

end LossesInGame

/-- What is known of every state of an orderly run. -/
structure Settled (s : State) : Prop where
  tidy : Tidy s
  sound : Sound s

theorem settled_of_orderly {Guard : State → Action → Prop} {s : State}
    (orderly : ∀ t a, Guard t a → Orderly t a) (h : System.ReachableUnder Guard s) :
    Settled s :=
  ⟨tidy_of_orderly (h.mono orderly), sound_of_reachable h.reachable⟩

theorem lossesInGame_of_lossesFirst {s : State} (h : System.ReachableUnder LossesFirst s) :
    LossesInGame s := by
  refine guarded_invariant h (fun _ => settled_of_orderly fun _ _ => And.left)
    (fun p hp => by cases hp) ?_
  intro t u a hknown hlosses hguard hexec hstep
  cases hstep with
  | quiet hquiet => exact hlosses.quiet hquiet
  | accepted => exact hlosses.addPlayer hknown.tidy hknown.sound _ _
  | closed hquiet hclosed => exact (hlosses.quiet hquiet).disconnected hclosed
  | @handled command rest _ hqueue =>
    rw [exec_runCommand hqueue] at hexec
    exact hlosses.handled hknown.tidy hknown.sound hqueue hguard.2 hexec

/-- **A loss meets its game**: in every orderly run in which no game ends while one of its players
    is about to be lost, the command about a lost player finds a game that seats the player. -/
theorem loss_meets_its_game (s : State) (h : System.ReachableUnder LossesFirst s) :
    LossMeetsGame s := by
  have hsettled : Settled s := settled_of_orderly (fun _ _ => And.left) h
  exact (lossesInGame_of_lossesFirst h).lossMeetsGame hsettled.tidy hsettled.sound

/-- The connection of `A` ends during the game and the command about it is queued. -/
def loseNext : List Action := System.playTwo ++ [.peerClosed 5]

theorem loss_meets_its_game_next :
    (System.machine.after LossesFirst loseNext).lostPlayers = [0] ∧
      LossMeetsGame (System.machine.after LossesFirst loseNext) :=
  ⟨by decide +kernel, loss_meets_its_game _ (Machine.reachableUnder_after _)⟩

/-- `B` logs out and the connection of `A` ends before the logout is handled. -/
def logoutThenLoss : List Action :=
  System.playTwo ++ [.receive 6 (System.clientPacket H_C_PL_LOGOUT []), .popPacket,
    .resolvePacket, .registerResolved, .peerClosed 5, .runCommand]

/-- In some run the command about a lost player comes after the end of its game. -/
theorem loss_misses_its_game : ¬ ∀ s, System.Reachable s → LossMeetsGame s := by
  intro h
  have hqueue : (System.after logoutThenLoss).commandQueue.head?
      = some ⟨Server.lostMessage 0, none⟩ := by decide +kernel
  obtain ⟨p, game, -, -, hgame, -⟩ :=
    h _ (System.reachable_after logoutThenLoss) _ hqueue rfl
  have hgames : (System.after logoutThenLoss).games = [] := by decide +kernel
  rw [hgames] at hgame
  cases hgame

end UpsServer
