import UpsServer.Network.Departures
import UpsServer.Network.Tidy

/-!
# Whose connection ends

`proceedPlayerDisconnection` is called from three places: `Server::run` finds a closed connection,
a free player logs out, and `PacketManager::run` counts the tenth invalid packet. Each call
concerns the one listed player who has the socket, as long as everybody with a socket is listed
and nobody logs out twice. Here `Server::run` only calls it for open descriptors.
-/

namespace UpsServer

open Framework CommandManager

/-! ## The calls -/

/-- The call finds exactly one entry with the socket. A free player's entry is erased, a player in
    a game stays listed; either way this player, and nobody else, loses its socket. -/
def EndsOne (s : State) (fd : Int) : Prop :=
  ∃ pl t, s.descriptors fd = some pl ∧ s.players.filter (hasThisSocket s fd) = [pl] ∧
    Server.proceedPlayerDisconnection s fd = .ok t ∧
    t.players = (if (s.player pl).inGame then s.players else s.players.erase pl) ∧
    (t.player pl).socketSet = false ∧ ∀ q ≠ pl, t.player q = s.player q

/-! ## A call that finds its player -/

/-- When the socket is found, the call returns. -/
theorem disconnection_of_found {s : State} {fd : Int} {pl : PlayerRef}
    (found : Server.getPlayerBySocket s fd = some pl) :
    ∃ t, Server.proceedPlayerDisconnection s fd = .ok t := by
  have hfound : assigned (Server.getPlayerBySocket (s.closeSocket fd) fd) = .ok pl :=
    assigned_eq_ok_iff.mpr found
  obtain ⟨hlisted, hsocket⟩ := Server.getPlayerBySocket_eq_some found
  unfold Server.proceedPlayerDisconnection
  dsimp only
  rw [hfound, ok_bind]
  split
  · exact ⟨_, Server.erasePlayerAt_of_match _ (hasThisSocket s fd) ⟨pl, hlisted, hsocket⟩⟩
  · exact ⟨_, rfl⟩

/-- Whoever has the socket is the only one who has it, and the only one the call is about. -/
theorem endsOne_of_found {s : State} {fd : Int} {pl : PlayerRef} (hreg : Registry s)
    (hconn : Connections s) (found : Server.getPlayerBySocket s fd = some pl) : EndsOne s fd := by
  obtain ⟨hlisted, hsocket⟩ := Server.getPlayerBySocket_eq_some found
  obtain ⟨t, ht⟩ := disconnection_of_found found
  have hclosed := Server.disconnection_effect ht
  have hopen := (hconn.getPlayerBySocket_eq_some_iff.mp found).1
  have hfilter : s.players.filter (hasThisSocket s fd) = [pl] := by
    have hnodup := hreg.playersNodup.filter (hasThisSocket s fd)
    have hmem : ∀ q, q ∈ s.players.filter (hasThisSocket s fd) ↔ q = pl := by
      intro q
      rw [List.mem_filter]
      apply Iff.intro
      · rintro ⟨-, hq⟩
        exact hconn.eq_of_hasThisSocket found hq
      · rintro rfl
        exact ⟨hlisted, hsocket⟩
    exact List.perm_singleton.mp ((List.perm_ext_iff_of_nodup hnodup
      (List.nodup_singleton pl)).mpr (by simpa using hmem))
  have herase : s.players.eraseP (hasThisSocket s fd) = s.players.erase pl :=
    (eraseP_eq_erase_iff hreg.playersNodup hlisted hsocket).mpr found
  refine ⟨pl, t, hopen, hfilter, ht, ?_⟩
  cases hclosed with
  | left found' free =>
    obtain rfl := Option.some.inj (found'.symm.trans found)
    refine ⟨?_, ?_, ?_⟩
    · rw [State.withPlayers_players, herase, free]
      rfl
    · rw [State.player_withPlayers, State.player_modifyPlayer_self]
      rfl
    · intro q hq
      rw [State.player_withPlayers, State.player_modifyPlayer_of_ne _ _ hq,
        State.player_closeSocket]
  | stays found' playing =>
    obtain rfl := Option.some.inj (found'.symm.trans found)
    refine ⟨?_, ?_, ?_⟩
    · rw [playing]
      rfl
    · rw [State.player_registerCommand, State.player_modifyPlayer_self]
      rfl
    · intro q hq
      rw [State.player_registerCommand, State.player_modifyPlayer_of_ne _ _ hq,
        State.player_closeSocket]

/-! ## Everybody with a socket is listed -/

/-- Whoever has a socket is listed. -/
def SocketsListed (s : State) : Prop := ∀ p, (s.player p).socketSet = true → p ∈ s.players

namespace SocketsListed

variable {s t : State}

/-- Steps that give nobody a socket and only drop entries without one. -/
theorem keep (h : SocketsListed s)
    (socketSet : ∀ p, (t.player p).socketSet = true → (s.player p).socketSet = true)
    (players : ∀ p ∈ s.players, (t.player p).socketSet = true → p ∈ t.players) :
    SocketsListed t := by
  intro p hp
  exact players p (h p (socketSet p hp)) hp

theorem quiet (h : SocketsListed s) (quiet : Quiet s t) : SocketsListed t := by
  apply h.keep
  · intro p hp
    rwa [quiet.socketSet] at hp
  · intro p hp _
    rw [quiet.players]
    exact hp

theorem addPlayer (h : SocketsListed s) (fd : Int) (nameSet : Bool) :
    SocketsListed (Server.addPlayer s fd nameSet) := by
  intro p hp
  rw [Server.player_addPlayer] at hp
  rw [Server.addPlayer_players]
  split at hp
  · rename_i hnew
    exact List.mem_append_right _ (List.mem_singleton.mpr hnew)
  · exact List.mem_append_left _ (h p hp)

theorem disconnected {fd : Int} (h : SocketsListed s) (hsound : Sound s)
    (closed : Disconnection s fd t) : SocketsListed t := by
  cases closed with
  | @left pl found =>
    apply h.keep
    · intro p hp
      rw [State.player_withPlayers, State.player_modifyPlayer] at hp
      split at hp
      · cases hp
      · exact hp
    · intro p hlisted hp
      -- the entry that goes has lost its socket
      refine (hsound.connections.mem_erasedBySocket_iff hsound.registry found p).mpr
        ⟨hlisted, ?_⟩
      rintro rfl
      rw [State.player_withPlayers, State.player_modifyPlayer_self] at hp
      cases hp
  | @stays pl found =>
    apply h.keep
    · intro p hp
      rw [State.player_registerCommand, State.player_modifyPlayer] at hp
      split at hp
      · cases hp
      · exact hp
    · intro p hlisted _
      exact hlisted

/-- The effects of commands that fit drop only entries of lost players. -/
theorem handled {mess : Message} (h : SocketsListed s) (htidy : Tidy s) (hsound : Sound s)
    (fits : ∀ p ∈ mess.player, FitsSender s mess p)
    (lostSender : mess.header = INTERNAL_PL_LOST → ∀ p ∈ mess.player,
      p ∈ s.players ∧ (s.player p).socketSet = false)
    (effect : Effect s mess t) : SocketsListed t := by
  have hlost : ∀ p, (s.player p).lost = true → (s.player p).socketSet = false := fun p hp =>
    (hsound.losses.lostClosed p hp).2
  cases effect with
  | disconnected _ _ _ closed => exact h.disconnected hsound closed
  | @reconnected newP oldP _ _ game name _ _ players header sender payload found lost playing _ _
      _ _ erased =>
    obtain ⟨before, free⟩ := (fits newP sender).reconnect header name
      (payloadString_eq_ok_iff.mp payload) oldP found lost
    have hplayers := htidy.mem_erasedOld_iff hsound before free playing erased
    apply h.keep (by simp [handedOver])
    intro p hlisted hp
    refine (hplayers p).mpr ⟨hlisted, ?_⟩
    rintro rfl
    have hclosed : (s.player p).socketSet = true := by simpa [handedOver] using hp
    rw [hlost p lost] at hclosed
    cases hclosed
  | @endedLost p oponent game players header sender inGame playing against absent erased =>
    have hplayers := htidy.mem_erasedOponent_iff hsound ((fits p sender).logout header inGame)
      playing against erased
    apply h.keep (by simp)
    intro q hlisted hq
    refine (hplayers q).mpr ⟨hlisted, ?_⟩
    rintro rfl
    have hclosed : (s.player q).socketSet = true := by simpa using hq
    rw [hlost q absent] at hclosed
    cases hclosed
  | @bothLost p oponent game players players' header sender playing against absent erased
      erased' =>
    obtain ⟨hlisted, hclosed⟩ := lostSender header p sender
    have hplayers := htidy.mem_erasedBoth_iff hsound hlisted playing against erased erased'
    obtain ⟨-, hne, hseats⟩ := htidy.lookup hsound hlisted playing
    rw [← against] at hne hseats
    apply h.keep (by simp)
    intro q hq hset
    refine (hplayers q).mpr ⟨hq, ?_⟩
    intro hseat
    have hopen : (s.player q).socketSet = true := by simpa using hset
    -- neither of the two players of the game has a socket
    rcases (hseats q).mp hseat with rfl | rfl
    · rw [hclosed] at hopen
      cases hopen
    · rw [hlost q (absent.resolve_left hne)] at hopen
      cases hopen
  | _ => exact h.keep (by simp [clearRequest, freeBoth]) fun p hp _ => hp

end SocketsListed

/-! ## Runs in which nobody logs out twice -/

/-- A logout of a player in no game is handled while the player still has its socket. -/
def LogsOutConnected (s : State) (a : Action) : Prop :=
  a = .runCommand → ∀ command ∈ s.commandQueue.head?, command.message.header = H_C_PL_LOGOUT →
    ∀ p ∈ command.message.player, (s.player p).inGame = false → (s.player p).hasSocket = true

instance (s : State) (a : Action) : Decidable (LogsOutConnected s a) :=
  inferInstanceAs (Decidable (_ → ∀ command ∈ s.commandQueue.head?, _ →
    ∀ p ∈ command.message.player, _ → _))

/-- The condition on a step: it is orderly and no free player logs out without a socket. -/
def LogsOutOnce (s : State) (a : Action) : Prop := Orderly s a ∧ LogsOutConnected s a

instance (s : State) (a : Action) : Decidable (LogsOutOnce s a) :=
  inferInstanceAs (Decidable (_ ∧ _))

theorem socketsListed_of_orderly {Guard : State → Action → Prop} {s : State}
    (orderly : ∀ t a, Guard t a → Orderly t a) (h : System.ReachableUnder Guard s) :
    SocketsListed s := by
  refine guarded_invariant h (fun t ht => And.intro (tidy_of_orderly (ht.mono orderly))
    (sound_of_reachable ht.reachable)) (fun p hp => by cases hp) ?_
  intro t u a hknown hlisted hguard _ hstep
  obtain ⟨htidy, hsound⟩ := hknown
  cases hstep with
  | quiet hquiet => exact hlisted.quiet hquiet
  | accepted => exact hlisted.addPlayer _ _
  | closed hquiet hclosed => exact (hlisted.quiet hquiet).disconnected (hsound.quiet hquiet) hclosed
  | @handled command rest _ hqueue heffect =>
    have hpop : SocketsListed (t.withCommands rest) := hlisted
    refine hpop.handled (htidy.pop hqueue) (hsound.pop hqueue) ?_ ?_ heffect
    · exact fits_of_orderly (orderly t _ hguard) hqueue
    · intro hheader p hp
      refine ⟨htidy.listed_of_internal hqueue hheader hp, ?_⟩
      exact (hsound.losses.popped hqueue hheader hp).2.2.1

/-- Every call of `proceedPlayerDisconnection` finds its player, and every open descriptor belongs
    to exactly one entry. -/
def DisconnectionsFind (Guard : State → Action → Prop) (s : State) : Prop :=
  (∀ fd p, s.descriptors fd = some p → s.players.filter (hasThisSocket s fd) = [p]) ∧
    ∀ a, System.Enabled s a → Guard s a → ∀ u fd, disconnects s a = some (u, fd) →
      System.exec s a = Server.proceedPlayerDisconnection u fd ∧ EndsOne u fd

/-- The calls in runs of the server, whose connections end only while they are open. -/
theorem disconnections_find {s : State} (h : System.ReachableUnder LogsOutOnce s) :
    DisconnectionsFind LogsOutOnce s := by
  have hsound := sound_of_reachable h.reachable
  have hlisted : SocketsListed s := socketsListed_of_orderly (fun _ _ => And.left) h
  -- an open descriptor leads to a player with that socket, who is listed
  have hfound : ∀ fd p, s.descriptors fd = some p →
      Server.getPlayerBySocket s fd = some p := by
    intro fd p hopen
    have howner := hsound.connections.owner fd p hopen
    exact hsound.connections.getPlayerBySocket_eq_some_iff.mpr ⟨hopen, hlisted p howner.2.1⟩
  constructor
  · intro fd p hopen
    obtain ⟨pl, -, hopen', hfilter, -⟩ :=
      endsOne_of_found hsound.registry hsound.connections (hfound fd p hopen)
    rw [hopen] at hopen'
    rw [hfilter, ← Option.some.inj hopen']
  · intro a henabled hguard u fd hcall
    obtain ⟨hsame, hfrom⟩ := disconnects_eq_some hcall
    have hconn : Connections u := hsound.connections.keep hsame.descriptors hsame.nextPlayer
      hsame.socket hsame.socketSet
    have hopen : ∃ p, s.descriptors fd = some p := by
      rcases hfrom with rfl | ⟨-, p, hp⟩ | ⟨rfl, command, hhead, hheader, p, hp, hfree, rfl⟩
      · exact Option.ne_none_iff_exists'.mp henabled
      · exact ⟨p, (hsound.connections.getPlayerBySocket_eq_some_iff.mp hp).1⟩
      · have hset := hguard.2 rfl command hhead hheader p hp hfree
        exact ⟨p, hsound.connections.socketOpen p hset⟩
    obtain ⟨p, hopen⟩ := hopen
    have hfound' : Server.getPlayerBySocket u fd = some p := by
      apply hconn.getPlayerBySocket_eq_some_iff.mpr
      rw [hsame.descriptors, hsame.players]
      exact hsound.connections.getPlayerBySocket_eq_some_iff.mp (hfound fd p hopen)
    exact ⟨exec_of_disconnects hcall, endsOne_of_found (hsound.registry.same hsame) hconn hfound'⟩

end UpsServer
