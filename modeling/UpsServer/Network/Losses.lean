import UpsServer.Network.Connections

/-!
# Lost players

The `lost` flag is set by the server's own command only, and that command is made when the
connection of its player ends. So a lost player has no connection and never gets one again.
-/

namespace UpsServer

open Framework CommandManager

/-- Lost players and those about to be lost have no connection. -/
structure Losses (s : State) : Prop where
  lostClosed : ∀ p, (s.player p).lost = true →
    p < s.playerHeap.next ∧ (s.player p).socketSet = false
  queued : ∀ command ∈ s.internalCommands, ∃ p, command = ⟨Server.lostMessage p, none⟩ ∧
    p < s.playerHeap.next ∧ (s.player p).socketSet = false ∧ (s.player p).lost = false
  queuedOnce : s.lostPlayers.Nodup

namespace Losses

variable {s t : State}

theorem initial : Losses State.initial where
  lostClosed p hp := by cases hp
  queued command hmem := by cases hmem
  queuedOnce := List.nodup_nil

/-- A player with a connection is not about to be lost. -/
theorem not_mem_lostPlayers (h : Losses s) {p : PlayerRef}
    (hopen : (s.player p).socketSet = true) : p ∉ s.lostPlayers := by
  intro hmem
  obtain ⟨command, hcommand, hplayer⟩ := List.mem_filterMap.mp hmem
  obtain ⟨q, rfl, -, hclosed, -⟩ := h.queued command hcommand
  obtain rfl : q = p := Option.some.inj hplayer
  rw [hopen] at hclosed
  cases hclosed

/-- A player that is about to be lost is not lost yet. -/
theorem not_lost_of_mem (h : Losses s) {p : PlayerRef} (hmem : p ∈ s.lostPlayers) :
    (s.player p).lost = false := by
  obtain ⟨command, hcommand, hplayer⟩ := List.mem_filterMap.mp hmem
  obtain ⟨q, rfl, -, -, hlost⟩ := h.queued command hcommand
  obtain rfl : q = p := Option.some.inj hplayer
  exact hlost

/-- Steps that set no `lost` flag and open nothing. -/
theorem keep (h : Losses s) (next : t.playerHeap.next = s.playerHeap.next)
    (lost : ∀ p, (t.player p).lost = (s.player p).lost)
    (closed : ∀ p, (s.player p).socketSet = false → (t.player p).socketSet = false)
    (internal : t.internalCommands = s.internalCommands) : Losses t where
  lostClosed p hp := by
    rw [lost] at hp
    rw [next]
    exact ⟨(h.lostClosed p hp).1, closed p (h.lostClosed p hp).2⟩
  queued command hmem := by
    rw [internal] at hmem
    obtain ⟨p, hcommand, hlt, hclosed, hlost⟩ := h.queued command hmem
    rw [next]
    exact ⟨p, hcommand, hlt, closed p hclosed, by rw [lost, hlost]⟩
  queuedOnce := by
    rw [State.lostPlayers, internal]
    exact h.queuedOnce

theorem addPlayer (h : Losses s) (fd : Int) (nameSet : Bool) :
    Losses (Server.addPlayer s fd nameSet) := by
  have hold : ∀ p < s.playerHeap.next,
      (Server.addPlayer s fd nameSet).player p = s.player p := fun p hlt => by
    rw [Server.player_addPlayer, if_neg (Nat.ne_of_lt hlt)]
  refine ⟨fun p hp => ?_, fun command hmem => ?_, h.queuedOnce⟩
  · rw [Server.player_addPlayer] at hp
    split at hp
    · -- the constructor leaves `lost` false
      cases hp
    · obtain ⟨hlt, hclosed⟩ := h.lostClosed p hp
      rw [hold p hlt]
      exact ⟨Nat.lt_succ_of_lt hlt, hclosed⟩
  · obtain ⟨p, hcommand, hlt, hclosed, hlost⟩ := h.queued command hmem
    exact ⟨p, hcommand, Nat.lt_succ_of_lt hlt, by rw [hold p hlt, hclosed],
      by rw [hold p hlt, hlost]⟩

theorem internalCommands_registerLost (s : State) (pl : PlayerRef) :
    (s.registerCommand ⟨Server.lostMessage pl, none⟩).internalCommands
      = s.internalCommands ++ [⟨Server.lostMessage pl, none⟩] := by
  simp [State.internalCommands, Server.lostMessage, Message.withPlayer, Message.new]

/-- The player whose connection ends had one, so it is neither lost nor about to be. -/
theorem disconnected {fd : Int} (h : Losses s) (hreg : Registry s)
    (closed : Disconnection s fd t) : Losses t := by
  cases closed with
  | @left pl found =>
    -- a free player is erased without a command
    refine h.keep rfl (by simp) (fun p hp => ?_) rfl
    rw [State.player_withPlayers, State.player_modifyPlayer]
    split
    · rfl
    · exact hp
  | @stays pl found =>
    obtain ⟨hlisted, hsocket⟩ := Server.getPlayerBySocket_eq_some found
    have hopen : (s.player pl).socketSet = true :=
      (Bool.and_eq_true_iff.mp hsocket).1
    -- it had a connection until now, and a lost player has none
    have hlost : (s.player pl).lost = false := by
      by_contra hlost
      have hclosed := (h.lostClosed pl (by simpa using hlost)).2
      rw [hopen] at hclosed
      cases hclosed
    have hclosed : ∀ p, (s.player p).socketSet = false ∨ p = pl →
        (((s.closeSocket fd).modifyPlayer pl Player.removeSocket).player p).socketSet = false :=
      fun p hp => by
        rw [State.player_modifyPlayer]
        split
        · rfl
        · rename_i hne
          exact hp.resolve_right hne
    refine ⟨fun p hp => ?_, fun command hmem => ?_, ?_⟩
    · have hp' : (s.player p).lost = true := by simpa using hp
      exact ⟨(h.lostClosed p hp').1, hclosed p (Or.inl (h.lostClosed p hp').2)⟩
    · rw [internalCommands_registerLost] at hmem
      rcases List.mem_append.mp hmem with hmem | hmem
      · obtain ⟨p, hcommand, hlt, hp, hp'⟩ := h.queued command hmem
        exact ⟨p, hcommand, hlt, hclosed p (Or.inl hp), by simpa using hp'⟩
      · exact ⟨pl, List.mem_singleton.mp hmem, hreg.playersAllocated pl hlisted,
          hclosed pl (Or.inr rfl), by simpa using hlost⟩
    · have happend : (((s.closeSocket fd).modifyPlayer pl Player.removeSocket).registerCommand
          ⟨Server.lostMessage pl, none⟩).lostPlayers = s.lostPlayers ++ [pl] := by
        rw [State.lostPlayers, internalCommands_registerLost, List.filterMap_append]
        rfl
      rw [happend]
      -- the same argument: it had a connection, so no earlier command is about it
      have hnew := h.not_mem_lostPlayers hopen
      simpa [List.nodup_append] using ⟨h.queuedOnce, fun p hp heq => hnew (heq ▸ hp)⟩

/-- Popping a command. -/
theorem pop {command : Command} {rest : List Command} (h : Losses s)
    (queue : s.commandQueue = command :: rest) : Losses (s.withCommands rest) := by
  by_cases hinternal : command.message.header = INTERNAL_PL_LOST
  · have hpop := State.internalCommands_pop queue hinternal
    refine ⟨h.lostClosed, fun c hc => h.queued c ?_, ?_⟩
    · rw [hpop]
      exact List.mem_cons_of_mem _ hc
    · have honce := h.queuedOnce
      rw [State.lostPlayers, hpop] at honce
      exact honce.sublist (List.Sublist.filterMap _ (List.sublist_cons_self _ _))
  · exact h.keep rfl (fun _ => rfl) (fun _ hp => hp)
      (State.internalCommands_pop_other queue hinternal).symm

/-- The command that is handled and the player it marks as lost. -/
theorem popped {command : Command} {rest : List Command} {p : PlayerRef} (h : Losses s)
    (queue : s.commandQueue = command :: rest)
    (internal : command.message.header = INTERNAL_PL_LOST)
    (player : command.message.player = some p) :
    command.origin = none ∧ p < s.playerHeap.next ∧ (s.player p).socketSet = false ∧
      (s.player p).lost = false ∧ p ∉ (s.withCommands rest).lostPlayers := by
  have hpop := State.internalCommands_pop queue internal
  obtain ⟨q, rfl, hlt, hclosed, hlost⟩ := h.queued command (by rw [hpop]; simp)
  obtain rfl : q = p := Option.some.inj player
  have honce := h.queuedOnce
  rw [State.lostPlayers, hpop] at honce
  exact ⟨rfl, hlt, hclosed, hlost, (List.nodup_cons.mp honce).1⟩

/-- Marking a player without connection that no other command will mark. -/
theorem mark (h : Losses s) {p : PlayerRef} (allocated : p < s.playerHeap.next)
    (closed : (s.player p).socketSet = false) (once : p ∉ s.lostPlayers) :
    Losses (s.modifyPlayer p fun x => { x with lost := true }) := by
  have hset : ∀ q, ((s.modifyPlayer p fun x => { x with lost := true }).player q).socketSet
      = (s.player q).socketSet := by simp
  refine ⟨fun q hq => ?_, fun command hmem => ?_, h.queuedOnce⟩
  · rw [hset]
    by_cases hqp : q = p
    · rw [hqp]
      exact ⟨allocated, closed⟩
    · rw [State.player_modifyPlayer_of_ne _ _ hqp] at hq
      exact h.lostClosed q hq
  · obtain ⟨q, hcommand, hlt, hq, hlost⟩ := h.queued command hmem
    have hqp : q ≠ p := fun heq => once (List.mem_filterMap.mpr
      ⟨command, hmem, by rw [hcommand, heq]; rfl⟩)
    exact ⟨q, hcommand, hlt, by rw [hset, hq],
      by rw [State.player_modifyPlayer_of_ne _ _ hqp, hlost]⟩

theorem handled {command : Command} {rest : List Command} (h : Losses s) (hreg : Registry s)
    (queue : s.commandQueue = command :: rest)
    (effect : Effect (s.withCommands rest) command.message t) : Losses t := by
  have hpop := h.pop queue
  cases effect with
  | disconnected _ _ _ closed =>
    exact hpop.disconnected (hreg.same (sameWorld_withCommands s rest)) closed
  -- the two effects that set the flag do so for the player of the popped command
  | missed header sender =>
    obtain ⟨-, hlt, hclosed, -, honce⟩ := h.popped queue header sender
    exact (hpop.mark hlt hclosed honce).keep rfl (by simp) (by simp) rfl
  | bothLost header sender =>
    obtain ⟨-, hlt, hclosed, -, honce⟩ := h.popped queue header sender
    exact (hpop.mark hlt hclosed honce).keep rfl (by simp) (by simp) rfl
  | reconnected =>
    -- the newcomer takes over name and seat, but neither flag nor socket
    exact hpop.keep (by simp [handedOver, takeOverName]) (by simp [handedOver])
      (by simp [handedOver]) (by simp [handedOver, State.internalCommands])
  | _ =>
    exact hpop.keep rfl (by simp [clearRequest, freeBoth]) (by simp [clearRequest, freeBoth]) rfl

end Losses

/-- Lost players have no connection in every reachable state. -/
theorem losses_of_reachable {s : State} (h : System.Reachable s) : Losses s :=
  world_invariant h (fun _ => registry_of_reachable)
    (fun _ _ hquiet hreg => hreg.same hquiet.toSameWorld) Losses.initial
    (fun _ _ hquiet hloss => hloss.keep hquiet.nextPlayer hquiet.lost
      (fun p hp => by rw [hquiet.socketSet, hp]) hquiet.internalCommands)
    (fun _ fd nameSet _ hloss _ => hloss.addPlayer fd nameSet)
    (fun _ _ _ hreg hloss hclosed => hloss.disconnected hreg hclosed)
    fun _ _ _ _ hreg hloss _ hqueue heffect => hloss.handled hreg hqueue heffect

/-! ## No hijack -/

/-- An allocated player without connection. -/
def ClosedForGood (p : PlayerRef) (s : State) : Prop :=
  p < s.playerHeap.next ∧ (s.player p).socketSet = false

theorem ClosedForGood.keep {s t : State} {p : PlayerRef} (h : ClosedForGood p s)
    (next : t.playerHeap.next = s.playerHeap.next)
    (closed : (s.player p).socketSet = false → (t.player p).socketSet = false) :
    ClosedForGood p t :=
  ⟨by rw [next]; exact h.1, closed h.2⟩

theorem ClosedForGood.disconnected {s t : State} {p : PlayerRef} {fd : Int}
    (h : ClosedForGood p s) (closed : Disconnection s fd t) : ClosedForGood p t := by
  cases closed with
  | left | stays =>
    refine h.keep rfl fun hp => ?_
    simp only [State.player_withPlayers, State.player_registerCommand,
      State.player_modifyPlayer]
    split
    · rfl
    · exact hp

theorem ClosedForGood.handled {s t : State} {p : PlayerRef} {mess : Message}
    (h : ClosedForGood p s) (effect : Effect s mess t) : ClosedForGood p t := by
  rcases effect.sockets with ⟨-, _, -, -, closed⟩ | same
  · exact h.disconnected closed
  · exact h.keep same.nextPlayer fun hp => by rw [same.socketSet, hp]

/-- Nobody gets a connection back. -/
theorem closedForGood_of_reachableFrom {s t : State} {p : PlayerRef}
    (hs : System.Reachable s) (h : System.machine.ReachableFrom Machine.Unguarded s t)
    (closed : ClosedForGood p s) : ClosedForGood p t :=
  world_invariant_from hs h (fun _ _ => trivial) (fun _ _ _ _ => trivial) closed
    (fun _ _ hquiet hclosed => hclosed.keep hquiet.nextPlayer fun hp => by
      rw [hquiet.socketSet, hp])
    (fun _ _ _ _ hclosed _ => ⟨Nat.lt_succ_of_lt hclosed.1, by
      rw [Server.player_addPlayer, if_neg (Nat.ne_of_lt hclosed.1)]
      exact hclosed.2⟩)
    (fun _ _ _ _ hclosed hdisconnection => hclosed.disconnected hdisconnection)
    fun _ _ _ rest _ hclosed _ _ heffect => by
      have hpop : ClosedForGood p (State.withCommands _ rest) := hclosed
      exact hpop.handled heffect

/-- A reconnection changes the seats of a game only when it found a lost player. -/
theorem Effect.found_of_seat_changed {s t : State} {mess : Message}
    (header : mess.header = H_C_PL_RECONN) (effect : Effect s mess t) {g : GameRef}
    (changed : (t.game g).p1 ≠ (s.game g).p1 ∨ (t.game g).p2 ≠ (s.game g).p2) :
    ∃ name oldP, payloadString mess 0 = .ok name ∧
      Server.getPlayerByName s name = some oldP ∧ (s.player oldP).lost = true := by
  cases effect with
  | reconnected _ _ payload found lost => exact ⟨_, _, payload, found, lost⟩
  | started hstart => exact absurd (header.symm.trans hstart) (by decide)
  | disconnected hlogout => exact absurd (header.symm.trans hlogout) (by decide)
  -- no other effect changes a seat
  | _ => simp [clearRequest, freeBoth] at changed

/-- **No hijack of a live seat**: a lost player has no connection from then on; a reconnection
    that replaces a player in a game found a disconnected player under its name; and no packet
    makes `proceedPlayerLost` run, which runs for disconnected players only. -/
theorem no_hijack_of_live_seat (s : State) (h : System.Reachable s) :
    (∀ p, (s.player p).lost = true → ∀ t, System.machine.ReachableFrom Machine.Unguarded s t →
      (t.player p).hasSocket = false ∧ ∀ fd, t.descriptors fd ≠ some p) ∧
    (∀ command rest t, s.commandQueue = command :: rest →
      command.message.header = H_C_PL_RECONN → System.exec s .runCommand = .ok t →
      ∀ g, (t.game g).p1 ≠ (s.game g).p1 ∨ (t.game g).p2 ≠ (s.game g).p2 →
      ∃ name oldP, payloadString command.message 0 = .ok name ∧
        Server.getPlayerByName s name = some oldP ∧ (s.player oldP).hasSocket = false) ∧
    (∀ data mess, Serializer.deserialize data = .ok (some mess) →
      mess.header ≠ INTERNAL_PL_LOST) ∧
    ∀ command rest, s.commandQueue = command :: rest →
      command.message.header = INTERNAL_PL_LOST →
      command.origin = none ∧
        ∃ p, command.message.player = some p ∧ (s.player p).hasSocket = false := by
  have hloss := losses_of_reachable h
  refine ⟨?_, ?_, ?_, ?_⟩
  · intro p hp t hreach
    have hclosed := closedForGood_of_reachableFrom h hreach (hloss.lostClosed p hp)
    have ht : System.Reachable t := Machine.ReachableFrom.trans h hreach
    refine ⟨hclosed.2, fun fd hfd => ?_⟩
    -- an open descriptor would lead to a player with a socket
    have hopen := ((connections_of_reachable ht).owner fd p hfd).2.1
    rw [hclosed.2] at hopen
    cases hopen
  · intro command rest t hqueue hheader hexec g hchanged
    rw [exec_runCommand hqueue] at hexec
    obtain ⟨name, oldP, hname, hfound, hlost⟩ :=
      (dispatch_effect hexec).found_of_seat_changed hheader hchanged
    exact ⟨name, oldP, hname, hfound, (hloss.lostClosed oldP hlost).2⟩
  · exact fun data mess hmess => Serializer.deserialize_ne_internal hmess
  · intro command rest hqueue hheader
    obtain ⟨p, hcommand, -, hclosed, -⟩ := hloss.queued command (by
      rw [State.internalCommands_pop hqueue hheader]
      exact List.mem_cons_self)
    rw [hcommand]
    exact ⟨rfl, p, rfl, hclosed⟩

theorem no_hijack_of_live_seat_lost :
    ((System.after System.loseOne).player 0).lost = true ∧
      ∀ t, System.machine.ReachableFrom Machine.Unguarded (System.after System.loseOne) t →
        (t.player 0).hasSocket = false ∧ ∀ fd, t.descriptors fd ≠ some 0 :=
  have hlost : ((System.after System.loseOne).player 0).lost = true := by decide +kernel
  ⟨hlost, (no_hijack_of_live_seat _ (System.reachable_after System.loseOne)).1 0 hlost⟩

end UpsServer
