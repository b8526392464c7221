import UpsServer.Network.Departures
import UpsServer.Network.Moves

/-!
# Requests for a game

The asked player remembers who asked, and the asking player whom it asked; both are plain
pointers that nobody clears when the other side leaves the list. This module follows them over
whole runs: a game is registered between listed players as long as nobody asks after having
left, nobody leaves while it is asked, and whoever `deletePlayer` erases has no open request. That
the end of a connection withdraws the player's own request is what the code sees to.
-/

namespace UpsServer

open Framework CommandManager Sender

/-! ## Requests -/

/-- The first player has asked the second one, who did not answer yet. -/
def Asks (s : State) (asking asked : PlayerRef) : Prop :=
  (s.player asked).askedForJoiningBy = some asking

instance (s : State) (asking asked : PlayerRef) : Decidable (Asks s asking asked) :=
  inferInstanceAs (Decidable (_ = _))

/-- Nobody has asked a new player. -/
theorem Asks.of_addPlayer {s : State} {fd : Int} {nameSet : Bool} {asking asked : PlayerRef}
    (h : Asks (Server.addPlayer s fd nameSet) asking asked) :
    Asks s asking asked ∧ asked ≠ s.playerHeap.next := by
  rw [Asks, Server.player_addPlayer] at h
  split at h
  · cases h
  · rename_i hne
    exact ⟨h, hne⟩

/-- The player waits for an answer to its request. -/
def Waits (s : State) (p : PlayerRef) : Prop := (s.player p).joiningPlayer.isSome = true

instance (s : State) (p : PlayerRef) : Decidable (Waits s p) :=
  inferInstanceAs (Decidable (_ = true))

/-- What handling anything but a new request does to requests: they are answered or dropped. -/
structure FewerRequests (s t : State) : Prop where
  next : t.playerHeap.next = s.playerHeap.next
  players : ∀ p ∈ t.players, p ∈ s.players
  asks : ∀ p q, Asks t p q → Asks s p q
  waits : ∀ p, Waits t p → Waits s p

/-- A listed player is asked by the sender. -/
structure NewRequest (s : State) (mess : Message) (t : State) (asking asked : PlayerRef) :
    Prop where
  header : mess.header = H_C_JOIN_PLAYER
  sender : mess.player = some asking
  found : ∃ name ∈ mess.firstName, Server.getPlayerByName s name = some asked
  joinable : isJoinable s asked = true
  next : t.playerHeap.next = s.playerHeap.next
  players : t.players = s.players
  asks : ∀ p q, Asks t p q → (p = asking ∧ q = asked) ∨ Asks s p q
  waits : ∀ p, Waits t p → p = asking ∨ Waits s p

namespace FewerRequests

variable {s t : State}

/-- The pointers are the same and nobody is listed anew. -/
theorem of_same (next : t.playerHeap.next = s.playerHeap.next)
    (players : ∀ p ∈ t.players, p ∈ s.players)
    (askedBy : ∀ p, (t.player p).askedForJoiningBy = (s.player p).askedForJoiningBy)
    (joining : ∀ p, (t.player p).joiningPlayer = (s.player p).joiningPlayer) :
    FewerRequests s t where
  next := next
  players := players
  asks p q h := by rwa [Asks, askedBy] at h
  waits p h := by rwa [Waits, joining] at h

theorem of_sameWorld (same : SameWorld s t) : FewerRequests s t := by
  apply of_same same.nextPlayer
  · intro p hp
    rwa [same.players] at hp
  · intro p
    obtain ⟨n, hn⟩ := same.player p
    rw [hn]
  · intro p
    obtain ⟨n, hn⟩ := same.player p
    rw [hn]

theorem trans {u : State} (h : FewerRequests s t) (h' : FewerRequests t u) :
    FewerRequests s u where
  next := h'.next.trans h.next
  players p hp := h.players p (h'.players p hp)
  asks p q hasks := h.asks p q (h'.asks p q hasks)
  waits p hwaits := h.waits p (h'.waits p hwaits)

theorem of_disconnection {fd : Int} (closed : Disconnection s fd t) : FewerRequests s t := by
  cases closed with
  | @left pl =>
    refine ⟨rfl, fun p hp => List.eraseP_sublist.subset hp, fun p q hasks => ?_,
      fun p hwaits => ?_⟩
    · simpa [Asks] using hasks
    · -- the player who leaves does not wait any more
      rw [Waits, State.player_withPlayers, State.player_modifyPlayer] at hwaits
      split at hwaits
      · cases hwaits
      · exact hwaits
  | stays => exact of_same rfl (fun _ hp => hp) (by simp) (by simp)

/-- An answer clears the request of the asked player. -/
theorem of_clearRequest (asked : PlayerRef) (next : t.playerHeap.next = s.playerHeap.next)
    (players : t.players = s.players)
    (askedBy : ∀ p, (t.player p).askedForJoiningBy
      = ((clearRequest s asked).player p).askedForJoiningBy)
    (joining : ∀ p, (t.player p).joiningPlayer
      = ((clearRequest s asked).player p).joiningPlayer) : FewerRequests s t := by
  refine ⟨next, fun p hp => players ▸ hp, fun p q hasks => ?_, fun p hwaits => ?_⟩
  · rw [Asks, askedBy, clearRequest, State.player_modifyPlayer] at hasks
    split at hasks
    · cases hasks
    · exact hasks
  · rw [Waits, joining, clearRequest, State.player_modifyPlayer] at hwaits
    split at hwaits
    · cases hwaits
    · exact hwaits

end FewerRequests

/-- A handled command answers or drops requests, or makes a new one. -/
theorem Effect.requests {s t : State} {mess : Message} (effect : Effect s mess t) :
    FewerRequests s t ∨ ∃ asking asked, NewRequest s mess t asking asked := by
  cases effect with
  | @asked asking oponent name _ _ header sender payload found joinable =>
    refine Or.inr ⟨asking, oponent, header, sender, ⟨name, payloadString_eq_ok_iff.mp payload,
      found⟩, joinable, rfl, rfl, fun p q hasks => ?_, fun p hwaits => ?_⟩
    · by_cases hq : q = oponent
      · left
        simp only [Asks, State.askedForJoiningBy_modifyPlayer,
          Player.setAvailible_askedForJoiningBy, implies_true, hq, State.player_modifyPlayer_self,
          Option.some.injEq] at hasks
        exact ⟨hasks.symm, hq⟩
      · right
        simpa [Asks, State.player_modifyPlayer_of_ne _ _ hq] using hasks
    · by_cases hp : p = asking
      · exact Or.inl hp
      · right
        simpa [Waits, State.player_modifyPlayer_of_ne _ _ hp] using hwaits
  | disconnected _ _ _ closed => exact Or.inl (.of_disconnection closed)
  | reconnected _ _ _ _ _ _ _ _ _ _ erased =>
    left
    apply FewerRequests.of_same
    · simp [handedOver, takeOverName]
    · intro p hp
      have hlisted := erased.sublist.subset hp
      rwa [handedOver_players] at hlisted
    · simp [handedOver, takeOverName]
    · simp [handedOver, takeOverName]
  | @started _ asked =>
    exact Or.inl (.of_clearRequest asked rfl rfl (by simp [gameStarted]) (by simp [gameStarted]))
  | @gone _ asked => exact Or.inl (.of_clearRequest asked rfl rfl (by simp) (by simp))
  | @declined _ asked => exact Or.inl (.of_clearRequest asked rfl rfl (by simp) (by simp))
  | endedLost _ _ _ _ _ _ erased =>
    exact Or.inl (.of_same rfl (fun p hp => erased.sublist.subset hp) (by simp) (by simp))
  | bothLost _ _ _ _ _ erased erased' =>
    exact Or.inl (.of_same rfl (fun p hp => erased.sublist.subset (erased'.sublist.subset hp))
      (by simp) (by simp))
  | _ => exact Or.inl (.of_same rfl (fun _ hp => hp) (by simp [freeBoth]) (by simp [freeBoth]))

/-! ## Where games come from -/

/-- A game is registered when the asked player accepts and the asking one still waits. -/
structure Starts (s : State) (mess : Message) (t : State) (asking asked : PlayerRef) : Prop where
  header : mess.header = H_C_ACCEPT_JOIN
  sender : mess.player = some asked
  asks : Asks s asking asked
  waits : Waits s asking
  seats : ∀ p, (t.game s.gameHeap.next).Seats p ↔ p = asking ∨ p = asked

/-- Whenever a handled command registers a game, it is an acceptance. -/
theorem Effect.new_game {s t : State} {mess : Message} {g : GameRef} (effect : Effect s mess t)
    (registered : g ∈ t.games) (new : g ∉ s.games) :
    ∃ asking asked, g = s.gameHeap.next ∧ Starts s mess t asking asked := by
  cases effect with
  | @started asking asked _ _ header sender askedBy _ waiting =>
    have hg : g = s.gameHeap.next := by
      have hmem : g ∈ s.games ++ [s.gameHeap.next] := registered
      exact List.mem_singleton.mp ((List.mem_append.mp hmem).resolve_left new)
    refine ⟨asking, asked, hg, header, sender, askedBy, waiting, fun p => ?_⟩
    simp [Game.Seats, @eq_comm _ p]
  | disconnected _ _ _ closed =>
    cases closed <;> exact absurd registered new
  | reconnected =>
    simp only [State.withPlayers_games, State.pushOut_games, handedOver_games] at registered
    exact absurd registered new
  | won | ended | endedLost | bothLost =>
    exact absurd (List.eraseP_sublist.subset registered) new
  | _ => exact absurd registered new

/-- Whenever a step registers a game, it handles an acceptance. -/
theorem WorldStep.new_game {s t : State} {a : Action} {g : GameRef} (step : WorldStep s a t)
    (registered : g ∈ t.games) (new : g ∉ s.games) :
    ∃ command ∈ s.commandQueue, ∃ asking asked, g = s.gameHeap.next ∧
      Starts s command.message t asking asked := by
  cases step with
  | quiet hquiet => exact absurd (hquiet.games ▸ registered) new
  | accepted => exact absurd registered new
  | closed hquiet hclosed =>
    apply absurd _ new
    rw [← hquiet.games]
    cases hclosed <;> exact registered
  | @handled command rest _ hqueue heffect =>
    obtain ⟨asking, asked, hg, hstarts⟩ := heffect.new_game registered new
    refine ⟨command, by rw [hqueue]; exact List.mem_cons_self, asking, asked, hg, ?_⟩
    exact ⟨hstarts.header, hstarts.sender, hstarts.asks, hstarts.waits, hstarts.seats⟩

/-! ## Runs in which nobody leaves a request behind -/

/-- Nobody who stays in the list has asked a player who leaves it, and whoever `deletePlayer`
    erases does not wait for an answer or has asked nobody. -/
def Unasked (s : State) (a : Action) : Prop :=
  (∀ p ∈ s.leaving a, ∀ q ∈ s.players, q ∉ s.leaving a → ¬ Asks s q p) ∧
    ∀ p ∈ s.deleting a, ¬ Waits s p ∨ ∀ q < s.playerHeap.next, ¬ Asks s p q

instance (s : State) (a : Action) : Decidable (Unasked s a) :=
  inferInstanceAs (Decidable ((∀ p ∈ s.leaving a, ∀ q ∈ s.players, _ → _) ∧
    ∀ p ∈ s.deleting a, _ ∨ _))

/-- A request to a joinable player is handled while its sender is listed. -/
def AsksListed (s : State) (a : Action) : Prop :=
  a = .runCommand → ∀ command ∈ s.commandQueue.head?, command.message.header = H_C_JOIN_PLAYER →
    ∀ p ∈ command.message.player, ∀ name ∈ command.message.firstName,
      ∀ oponent ∈ Server.getPlayerByName s name, isJoinable s oponent = true → p ∈ s.players

instance (s : State) (a : Action) : Decidable (AsksListed s a) :=
  inferInstanceAs (Decidable (_ → ∀ command ∈ s.commandQueue.head?, _ →
    ∀ p ∈ command.message.player, ∀ name ∈ command.message.firstName,
      ∀ oponent ∈ Server.getPlayerByName s name, _ → _))

/-- The condition on a step: who asks is listed, and who leaves is not asked. -/
def RequestsSettled (s : State) (a : Action) : Prop := AsksListed s a ∧ Unasked s a

instance (s : State) (a : Action) : Decidable (RequestsSettled s a) :=
  inferInstanceAs (Decidable (_ ∧ _))

/-- Where the pointers of a request lead: whoever still waits for the answer is listed, and a
    listed player has asked a listed one. -/
structure Requests (s : State) : Prop where
  allocated : ∀ p q, Asks s p q → p < s.playerHeap.next ∧ q < s.playerHeap.next
  waiting : ∀ p q, Asks s p q → Waits s p → p ∈ s.players
  answering : ∀ p q, Asks s p q → p ∈ s.players → q ∈ s.players

namespace Requests

variable {s t : State}

theorem initial : Requests State.initial where
  allocated p q h := by cases h
  waiting p q h := by cases h
  answering p q h := by cases h

/-- Requests may be answered or dropped, and players that nobody waits for may leave. -/
theorem shrink (h : Requests s) (fewer : FewerRequests s t)
    (unasked : ∀ p ∈ s.players, p ∉ t.players → ∀ q ∈ t.players, ¬ Asks s q p)
    (idle : ∀ p ∈ s.players, p ∉ t.players → Waits t p →
      ∀ q < s.playerHeap.next, ¬ Asks s p q) : Requests t where
  allocated p q hasks := by
    rw [fewer.next]
    exact h.allocated p q (fewer.asks p q hasks)
  waiting p q hasks hwaits := by
    have hasks' := fewer.asks p q hasks
    have hlisted := h.waiting p q hasks' (fewer.waits p hwaits)
    by_contra hleft
    exact idle p hlisted hleft hwaits q (h.allocated p q hasks').2 hasks'
  answering p q hasks hlisted := by
    have hasks' := fewer.asks p q hasks
    have hasked := h.answering p q hasks' (fewer.players p hlisted)
    by_contra hleft
    exact unasked q hasked hleft p hlisted hasks'

/-- Nobody leaves. -/
theorem shrink_of_players (h : Requests s) (fewer : FewerRequests s t)
    (players : ∀ p ∈ s.players, p ∈ t.players) : Requests t :=
  h.shrink fewer (fun p hp hleft => absurd (players p hp) hleft)
    fun p hp hleft => absurd (players p hp) hleft

theorem quiet (h : Requests s) (quiet : Quiet s t) : Requests t := by
  apply h.shrink_of_players (.of_sameWorld quiet.toSameWorld)
  intro p hp
  rwa [quiet.players]

theorem addPlayer (h : Requests s) (fd : Int) (nameSet : Bool) :
    Requests (Server.addPlayer s fd nameSet) := by
  have hasks : ∀ p q, Asks (Server.addPlayer s fd nameSet) p q → Asks s p q := fun _ _ hpq =>
    hpq.of_addPlayer.1
  refine ⟨fun p q hpq => ?_, fun p q hpq hwaits => ?_, fun p q hpq hlisted => ?_⟩
  · obtain ⟨hp, hq⟩ := h.allocated p q (hasks p q hpq)
    exact ⟨Nat.lt_succ_of_lt hp, Nat.lt_succ_of_lt hq⟩
  · rw [Waits, Server.player_addPlayer] at hwaits
    split at hwaits
    · cases hwaits
    · exact List.mem_append_left _ (h.waiting p q (hasks p q hpq) hwaits)
  · rcases List.mem_append.mp hlisted with hp | hp
    · exact List.mem_append_left _ (h.answering p q (hasks p q hpq) hp)
    · have hlt := (h.allocated p q (hasks p q hpq)).1
      rw [List.mem_singleton.mp hp] at hlt
      exact absurd hlt (Nat.lt_irrefl _)

/-- A listed player asks a listed player. -/
theorem ask (h : Requests s) (hreg : Registry s) {mess : Message} {asking asked : PlayerRef}
    (new : NewRequest s mess t asking asked) (listed : asking ∈ s.players) : Requests t := by
  obtain ⟨name, -, hfound⟩ := new.found
  have hasked : asked ∈ s.players := List.mem_of_find?_eq_some hfound
  refine ⟨fun p q hpq => ?_, fun p q hpq hwaits => ?_, fun p q hpq hp => ?_⟩
  · rw [new.next]
    rcases new.asks p q hpq with ⟨rfl, rfl⟩ | hpq
    · exact ⟨hreg.playersAllocated p listed, hreg.playersAllocated q hasked⟩
    · exact h.allocated p q hpq
  · rw [new.players]
    rcases new.asks p q hpq with ⟨rfl, rfl⟩ | hpq
    · exact listed
    · rcases new.waits p hwaits with rfl | hwaits
      · exact listed
      · exact h.waiting p q hpq hwaits
  · rw [new.players] at hp ⊢
    rcases new.asks p q hpq with ⟨rfl, rfl⟩ | hpq
    · exact hasked
    · exact h.answering p q hpq hp

end Requests

/-- Nobody is left behind by the players who leave: a disconnection drops the request of the
    player whose connection ends, and the others have none. -/
theorem Unasked.leaves {s t : State} {a : Action} (h : Unasked s a) (hreg : Registry s)
    (exec : System.exec s a = .ok t) (fewer : FewerRequests s t) {p : PlayerRef}
    (listed : p ∈ s.players) (left : p ∉ t.players) :
    (∀ q ∈ t.players, ¬ Asks s q p) ∧
      (Waits t p → ∀ q < s.playerHeap.next, ¬ Asks s p q) := by
  have hleaving := leaving_iff hreg exec listed left
  refine ⟨fun q hq => ?_, fun hwaits => ?_⟩
  · have hbefore := fewer.players q hq
    exact h.1 p ((hleaving p listed).mp left) q hbefore
      fun hmem => (hleaving q hbefore).mpr hmem hq
  · cases departure hreg exec with
    | nobody stays => exact absurd (stays p listed) left
    | @disconnected _ _ pl _ _ players _ _ idle =>
      -- `proceedPlayerDisconnection` has set `joiningPlayer` to null
      obtain rfl : p = pl := by
        by_contra hne
        exact left ((players p).mpr ⟨listed, hne⟩)
      rw [Waits, idle] at hwaits
      cases hwaits
    | deleted _ _ _ _ leaving =>
      have hdeleted := (hleaving p listed).mp left
      rw [leaving] at hdeleted
      exact (h.2 p hdeleted).resolve_left (not_not_intro (fewer.waits p hwaits))

theorem requests_of_requestsSettled {s : State} (h : System.ReachableUnder RequestsSettled s) :
    Requests s := by
  refine guarded_invariant h (fun t ht => registry_of_reachable ht.reachable)
    Requests.initial ?_
  intro t u a hreg hrequests hguard hexec hstep
  have hshrink : FewerRequests t u → Requests u := fun hfewer =>
    hrequests.shrink hfewer
      (fun p hp hleft => (hguard.2.leaves hreg hexec hfewer hp hleft).1)
      fun p hp hleft => (hguard.2.leaves hreg hexec hfewer hp hleft).2
  cases hstep with
  | quiet hquiet => exact hrequests.quiet hquiet
  | accepted => exact hrequests.addPlayer _ _
  | closed hquiet hclosed =>
    exact hshrink ((FewerRequests.of_sameWorld hquiet.toSameWorld).trans
      (.of_disconnection hclosed))
  | @handled command rest _ hqueue heffect =>
    have hpop : FewerRequests t (t.withCommands rest) :=
      .of_sameWorld (sameWorld_withCommands t rest)
    rcases heffect.requests with hfewer | ⟨asking, asked, hnew⟩
    · exact hshrink (hpop.trans hfewer)
    · obtain ⟨name, hname, hfound⟩ := hnew.found
      have hlisted : asking ∈ t.players :=
        hguard.1 rfl command (by rw [hqueue]; rfl) hnew.header asking hnew.sender name hname
          asked hfound hnew.joinable
      exact (hrequests.shrink_of_players hpop fun _ hp => hp).ask
        (hreg.same (sameWorld_withCommands t rest)) hnew hlisted

/-! ## Acceptances that come too late -/

/-- What `proceedAcceptJoin` tells the asked player when the other one is gone. -/
def goneMessage (asked : PlayerRef) : Message :=
  .compose H_S_NACK_REAS [.str (text "Player who asked is gone")] (some asked)

theorem wellFormed_goneMessage (asked : PlayerRef) : (goneMessage asked).WellFormed := by
  refine ⟨rfl, ?_, ?_⟩
  · show Matches [.str (text "Player who asked is gone")] ['s']
    decide
  · show (packetOf H_S_NACK_REAS [.str (text "Player who asked is gone")]).length < 2 ^ 31
    decide +kernel

/-- When the asking player does not wait any more, no game starts and the asked player is told. -/
theorem acceptJoin_of_gone {s : State} {mess : Message} {asking asked : PlayerRef}
    (sender : mess.player = some asked) (asks : Asks s asking asked) (gone : ¬ Waits s asking) :
    ∃ t, proceedAcceptJoin s mess = .ok t ∧ t.games = s.games ∧
      ((s.player asked).hasSocket = true → ∃ packet : OutPacket, packet.For s asked ∧
        packet.message = goneMessage asked ∧ t.pQueue = s.pQueue ++ [packet]) := by
  have haskedBy : (s.player asked).askedForJoiningBy = some asking := asks
  have hgone : (((((clearRequest s asked).modifyPlayer asking
      (Player.setAvailible false)).modifyPlayer asked (Player.setAvailible false)).player
        asking).joiningPlayer.isSome) = false := by
    simp only [State.joiningPlayer_modifyPlayer, Player.setAvailible_joiningPlayer, implies_true,
      clearRequest]
    rw [State.player_modifyPlayer]
    split
    · rfl
    · simpa [Waits] using gone
  have hsocket : ((((clearRequest s asked).modifyPlayer asking
      (Player.setAvailible false)).modifyPlayer asked (Player.setAvailible false)).player
        asked).hasSocket = (s.player asked).hasSocket := by
    simp [Player.hasSocket, clearRequest]
  unfold proceedAcceptJoin
  rw [sender, deref_some, ok_bind, haskedBy, deref_some, ok_bind]
  simp only [hgone, hsocket, Bool.false_eq_true, if_false]
  split
  · refine ⟨_, registerMessage_of_wellFormed _ (wellFormed_goneMessage asked) rfl, rfl, ?_⟩
    intro _
    refine ⟨_, ⟨rfl, ?_⟩, rfl, rfl⟩
    simp [clearRequest]
  · rename_i hclosed
    exact ⟨_, rfl, rfl, fun hopen => absurd hopen hclosed⟩

/-! ## No ghost games -/

/-- Whenever a step registers a game, both of its players are listed; an acceptance of a request
    whose sender left registers none and is answered; and nobody listed waits for the answer of
    a player who left. -/
def NoGhosts (s : State) : Prop :=
  (∀ a t, System.Enabled s a → System.exec s a = .ok t → ∀ g ∈ t.games, g ∉ s.games →
    ∀ p, (t.game g).Seats p → p ∈ s.players) ∧
  (∀ command ∈ s.commandQueue.head?, command.message.header = H_C_ACCEPT_JOIN →
    ∀ asked ∈ command.message.player, ∀ asking, Asks s asking asked → asking ∉ s.players →
      ∃ t, System.exec s .runCommand = .ok t ∧ t.games = s.games ∧
        ((s.player asked).hasSocket = true → ∃ packet : OutPacket, packet.For s asked ∧
          packet.message = goneMessage asked ∧ t.pQueue = s.pQueue ++ [packet])) ∧
  ∀ asking asked, Asks s asking asked → asking ∈ s.players → asked ∈ s.players

/-- **No ghost games** in every run in which who asks is listed and who leaves is not asked. -/
theorem no_ghost_games (s : State) (h : System.ReachableUnder RequestsSettled s) :
    NoGhosts s := by
  have hrequests := requests_of_requestsSettled h
  refine ⟨fun a t henabled hexec g hmem hnew p hseat => ?_, fun command hhead hheader asked
    hsender asking hasks hleft => ?_, hrequests.answering⟩
  · -- the game comes from an acceptance, whose request is still good
    have hstep := exec_step (stageFromPacket_of_reachable h.reachable) henabled hexec
    obtain ⟨_, _, asking, asked, rfl, hstarts⟩ := hstep.new_game hmem hnew
    have hasking := hrequests.waiting asking asked hstarts.asks hstarts.waits
    rcases (hstarts.seats p).mp hseat with rfl | rfl
    · exact hasking
    · exact hrequests.answering asking p hstarts.asks hasking
  · have hgone : ¬ Waits s asking := fun hwaits =>
      hleft (hrequests.waiting asking asked hasks hwaits)
    obtain ⟨rest, hqueue⟩ := List.head?_eq_some_iff.mp hhead
    rw [exec_runCommand hqueue, dispatch_accept hheader]
    exact acceptJoin_of_gone (s := s.withCommands rest) hsender hasks hgone

/-- The acceptance of `B` is in the queue. -/
def acceptance : List Action :=
  [.receive 6 (System.clientPacket H_C_ACCEPT_JOIN []), .popPacket, .resolvePacket,
    .registerResolved]

/-- `A` asks `B` for a game, and the acceptance is in the queue. -/
def aboutToAccept : List Action :=
  System.registerTwo ++ System.deliver 5 H_C_JOIN_PLAYER [.str [66]] ++ acceptance

/-- The same, but the connection of `A` ends before `B` accepts. -/
def acceptAfterLeaving : List Action :=
  System.registerTwo ++ System.deliver 5 H_C_JOIN_PLAYER [.str [66]] ++ [.peerClosed 5] ++
    acceptance

/-- `A` asks `B`, who accepts; and `B` accepts after `A` has left, and is told so. -/
theorem no_ghost_games_accepted :
    (Asks (System.machine.after RequestsSettled aboutToAccept) 0 1 ∧
      NoGhosts (System.machine.after RequestsSettled aboutToAccept)) ∧
    (System.machine.after RequestsSettled acceptAfterLeaving).players = [1] ∧
      ∃ t, System.exec (System.machine.after RequestsSettled acceptAfterLeaving) .runCommand
          = .ok t ∧
        t.games = [] ∧ ∃ packet ∈ t.pQueue, packet.message = goneMessage 1 := by
  refine ⟨⟨by decide +kernel, no_ghost_games _ (Machine.reachableUnder_after _)⟩,
    by decide +kernel, ?_⟩
  obtain ⟨-, hlate, -⟩ := no_ghost_games (System.machine.after RequestsSettled acceptAfterLeaving)
    (Machine.reachableUnder_after _)
  have hhead : ((System.machine.after RequestsSettled acceptAfterLeaving).commandQueue.head?).map
      (fun command => (command.message.header, command.message.player))
        = some (H_C_ACCEPT_JOIN, some 1) := by decide +kernel
  obtain ⟨command, hhead, hcommand⟩ := Option.map_eq_some_iff.mp hhead
  obtain ⟨hheader, hsender⟩ := Prod.mk.inj hcommand
  obtain ⟨t, hexec, hgames, hanswer⟩ := hlate command hhead hheader 1 hsender 0
    (by decide +kernel) (by decide +kernel)
  obtain ⟨packet, -, hmessage, hqueue⟩ := hanswer (by decide +kernel)
  refine ⟨t, hexec, ?_, packet, ?_, hmessage⟩
  · rw [hgames]
    decide +kernel
  · rw [hqueue]
    exact List.mem_append_right _ (List.mem_singleton_self packet)

/-- The connection of `A` ends before its request is handled; `B` gets the request and accepts. -/
def askAndLeave : List Action :=
  System.registerTwo ++ [.receive 5 (System.clientPacket H_C_JOIN_PLAYER [.str [66]]), .popPacket,
    .resolvePacket, .registerResolved, .peerClosed 5, .runCommand,
    .receive 6 (System.clientPacket H_C_ACCEPT_JOIN []), .popPacket, .resolvePacket,
    .registerResolved]

/-- In some run a game starts with a player who left. -/
theorem ghost_game_starts : ¬ ∀ s, System.Reachable s → NoGhosts s := by
  intro h
  have hnew : (System.exec (System.after askAndLeave) .runCommand).toOption.map
      (fun t => (t.games, (t.game 0).p1)) = some ([0], 0) := by decide +kernel
  obtain ⟨t, hexec, ht⟩ := Option.map_eq_some_iff.mp hnew
  obtain ⟨hgames, hseat⟩ := Prod.mk.inj ht
  have hlisted := (h _ (System.reachable_after askAndLeave)).1 .runCommand t (by decide +kernel)
    (toOption_eq_some_iff.mp hexec) 0 (by rw [hgames]; exact List.mem_singleton_self 0)
    (by decide +kernel) 0 (Or.inl hseat)
  exact absurd hlisted (by decide +kernel)

end UpsServer
