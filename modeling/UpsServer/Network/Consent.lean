import UpsServer.Network.Outbox
import Mathlib.Logic.Relation

/-!
# Nobody plays unasked

A game is registered when a player accepts what another player has asked for, and a seat changes
hands only when somebody reconnects to it. The machine of this module keeps a record of these
three deeds. In every run, whatever the clients send, each seat of a registered game goes back to
one request and its acceptance.
-/

namespace UpsServer

open Framework CommandManager

/-! ## Deeds -/

/-- What a player does to get to a seat. -/
inductive Deed where
  /-- The first player asks the second one for a game. -/
  | asked (asking asked : PlayerRef)
  /-- The second player accepts what the first one has asked for. -/
  | accepted (asking asked : PlayerRef)
  /-- The second player reconnects to the seat of the first one. -/
  | reconnected (holder newP : PlayerRef)
  deriving DecidableEq

/-- A request for the player called `name`. -/
def requestDeeds (s : State) (p : PlayerRef) (name : ByteString) : List Deed :=
  match Server.getPlayerByName s name with
  | none => []
  | some oponent => if isJoinable s oponent then [.asked p oponent] else []

/-- An acceptance. -/
def acceptDeeds (s : State) (p : PlayerRef) : List Deed :=
  match (s.player p).askedForJoiningBy with
  | none => []
  | some asking =>
    if asking ≠ p ∧ (s.player asking).joiningPlayer.isSome then [.accepted asking p] else []

/-- Who sits where `takeOverSeat` puts the newcomer. -/
def holderOf (s : State) (game : GameRef) (newP : PlayerRef) : PlayerRef :=
  if (s.player (s.game game).p1).name = (s.player newP).name then (s.game game).p1
  else (s.game game).p2

/-- A reconnection to the player called `name`. -/
def reconnectionDeeds (s : State) (newP : PlayerRef) (name : ByteString) : List Deed :=
  match Server.getPlayerByName s name with
  | none => []
  | some oldP =>
    if (s.player oldP).lost then
      match GameManager.getGameByPlayer (takeOverName s newP oldP) oldP with
      | none => []
      | some game => [.reconnected (holderOf (takeOverName s newP oldP) game newP) newP]
    else []

/-- The deed that a command is. -/
def commandDeeds (s : State) (mess : Message) : List Deed :=
  match mess.player with
  | none => []
  | some p =>
    if mess.header = H_C_PL_RECONN then reconnectionDeeds s p (mess.firstName.getD [])
    else if mess.header = H_C_JOIN_PLAYER then requestDeeds s p (mess.firstName.getD [])
    else if mess.header = H_C_ACCEPT_JOIN then acceptDeeds s p
    else []

/-- The deed that a step is. -/
def deeds (s : State) : Action → List Deed
  | .runCommand =>
    match s.commandQueue with
    | [] => []
    | command :: rest => commandDeeds (s.withCommands rest) command.message
  | _ => []

/-- The server that also keeps a record of the deeds. -/
abbrev System.witnessed : Machine (State × List Deed) Action Fault :=
  System.machine.recorded [] fun s a record => record ++ deeds s a

instance (y : State × List Deed) (a : Action) : Decidable (System.witnessed.Enabled y a) :=
  inferInstanceAs (Decidable (System.Enabled y.1 a))

/-! ## What the record tells about the seats -/

/-- The second player has the seat of the first one, from hand to hand. -/
def Inherits (record : List Deed) : PlayerRef → PlayerRef → Prop :=
  Relation.ReflTransGen fun holder newP => .reconnected holder newP ∈ record

theorem Inherits.grow {record : List Deed} {p q : PlayerRef} (h : Inherits record p q)
    (others : List Deed) : Inherits (record ++ others) p q := by
  induction h with
  | refl => exact .refl
  | tail _ hdeed ih => exact ih.tail (List.mem_append_left others hdeed)

/-- The players of a game go back to one who asked for it and one who accepted. -/
def Agreed (record : List Deed) (p1 p2 : PlayerRef) : Prop :=
  ∃ asking asked, asking ≠ asked ∧
    [Deed.asked asking asked, Deed.accepted asking asked].Sublist record ∧
      Inherits record asking p1 ∧ Inherits record asked p2

theorem Agreed.grow {record : List Deed} {p1 p2 : PlayerRef} (h : Agreed record p1 p2)
    (others : List Deed) : Agreed (record ++ others) p1 p2 := by
  obtain ⟨asking, asked, hne, hdeeds, hp1, hp2⟩ := h
  exact ⟨asking, asked, hne, hdeeds.trans (List.sublist_append_left _ _), hp1.grow others,
    hp2.grow others⟩

/-- The record explains every request that is open and every seat there is. -/
structure Explained (s : State) (record : List Deed) : Prop where
  requests : ∀ asked asking, (s.player asked).askedForJoiningBy = some asking →
    .asked asking asked ∈ record
  seats : ∀ g < s.gameHeap.next, Agreed record (s.game g).p1 (s.game g).p2

/-- No request is made and no seat is taken. -/
structure KeepsSeats (s t : State) : Prop where
  requests : ∀ p, (t.player p).askedForJoiningBy = none ∨
    (t.player p).askedForJoiningBy = (s.player p).askedForJoiningBy
  nextGame : t.gameHeap.next = s.gameHeap.next
  p1 : ∀ g, (t.game g).p1 = (s.game g).p1
  p2 : ∀ g, (t.game g).p2 = (s.game g).p2

namespace KeepsSeats

variable {s t : State}

theorem refl (s : State) : KeepsSeats s s :=
  ⟨fun _ => Or.inr rfl, rfl, fun _ => rfl, fun _ => rfl⟩

theorem of_sameWorld (same : SameWorld s t) : KeepsSeats s t := by
  refine ⟨fun p => ?_, same.nextGame, fun g => by rw [same.game], fun g => by rw [same.game]⟩
  obtain ⟨n, hn⟩ := same.player p
  exact Or.inr (by rw [hn])

/-- What the players and games share with those of `s` is all that counts. -/
theorem heaps {u : State} (h : KeepsSeats s t) (players : u.playerHeap = t.playerHeap)
    (games : u.gameHeap = t.gameHeap) : KeepsSeats s u := by
  have hplayer : ∀ p, u.player p = t.player p := fun p => by rw [State.player, players]; rfl
  have hgame : ∀ g, u.game g = t.game g := fun g => by rw [State.game, games]; rfl
  refine ⟨fun p => ?_, by rw [games]; exact h.nextGame, fun g => ?_, fun g => ?_⟩
  · rw [hplayer]
    exact h.requests p
  · rw [hgame]
    exact h.p1 g
  · rw [hgame]
    exact h.p2 g

theorem pushOut (h : KeepsSeats s t) (packet : OutPacket) : KeepsSeats s (t.pushOut packet) :=
  h.heaps rfl rfl

theorem modifyPlayer (h : KeepsSeats s t) (p : PlayerRef) (f : Player → Player)
    (requests : ∀ x, (f x).askedForJoiningBy = none ∨
      (f x).askedForJoiningBy = x.askedForJoiningBy) : KeepsSeats s (t.modifyPlayer p f) := by
  refine ⟨fun q => ?_, h.nextGame, h.p1, h.p2⟩
  rw [State.player_modifyPlayer]
  split
  · rename_i heq
    rcases requests (t.player p) with hnone | hsame
    · exact Or.inl hnone
    · rw [hsame, heq]
      exact h.requests p
  · exact h.requests q

theorem modifyOther (h : KeepsSeats s t) (p : PlayerRef) (f : Player → Player)
    (requests : ∀ x, (f x).askedForJoiningBy = x.askedForJoiningBy) :
    KeepsSeats s (t.modifyPlayer p f) :=
  h.modifyPlayer p f fun x => Or.inr (requests x)

theorem modifyGame (h : KeepsSeats s t) (g : GameRef) (f : Game → Game)
    (p1 : ∀ x, (f x).p1 = x.p1) (p2 : ∀ x, (f x).p2 = x.p2) : KeepsSeats s (t.modifyGame g f) where
  requests := h.requests
  nextGame := h.nextGame
  p1 x := by rw [State.p1_modifyGame t g x f p1, h.p1]
  p2 x := by rw [State.p2_modifyGame t g x f p2, h.p2]

theorem clearRequest (h : KeepsSeats s t) (asked : PlayerRef) :
    KeepsSeats s (CommandManager.clearRequest t asked) :=
  h.modifyPlayer asked _ fun _ => Or.inl rfl

theorem freeBoth (h : KeepsSeats s t) (p oponent : PlayerRef) :
    KeepsSeats s (UpsServer.freeBoth t p oponent) := by
  have h₁ := h.modifyOther p (Player.setInGame false) fun _ => rfl
  have h₂ := h₁.modifyOther oponent (Player.setInGame false) fun _ => rfl
  have h₃ := h₂.modifyOther p (Player.setAvailible true) fun _ => rfl
  exact h₃.modifyOther oponent (Player.setAvailible true) fun _ => rfl

theorem of_disconnection {fd : Int} (closed : Disconnection s fd t) : KeepsSeats s t := by
  have hclosed : KeepsSeats s (s.closeSocket fd) := (refl s).heaps rfl rfl
  cases closed with
  | @left pl =>
    exact (hclosed.modifyOther pl (fun p => { p.removeSocket with joiningPlayer := none })
      fun _ => rfl).heaps rfl rfl
  | @stays pl => exact (hclosed.modifyOther pl Player.removeSocket fun _ => rfl).heaps rfl rfl

end KeepsSeats

namespace Explained

variable {s t : State} {record : List Deed}

theorem initial : Explained State.initial [] where
  requests _ _ h := by cases h
  seats g hg := absurd hg (Nat.not_lt_zero g)

theorem grow (h : Explained s record) (others : List Deed) : Explained s (record ++ others) where
  requests asked asking hasked := List.mem_append_left others (h.requests asked asking hasked)
  seats g hg := (h.seats g hg).grow others

theorem keep (h : Explained s record) (keeps : KeepsSeats s t) : Explained t record where
  requests asked asking hasked := by
    rcases keeps.requests asked with hnone | hsame
    · rw [hnone] at hasked
      cases hasked
    · exact h.requests asked asking (hsame ▸ hasked)
  seats g hg := by
    rw [keeps.p1, keeps.p2]
    exact h.seats g (keeps.nextGame ▸ hg)

theorem modifyOther (h : Explained s record) (p : PlayerRef) (f : Player → Player)
    (requests : ∀ x, (f x).askedForJoiningBy = x.askedForJoiningBy) :
    Explained (s.modifyPlayer p f) record :=
  h.keep ((KeepsSeats.refl s).modifyOther p f requests)

/-- Other deeds may be recorded, and the rest of the state does not matter. -/
theorem kept {u : State} {others : List Deed} (h : Explained s record) (keeps : KeepsSeats s t)
    (players : u.playerHeap = t.playerHeap) (games : u.gameHeap = t.gameHeap) :
    Explained u (record ++ others) :=
  (h.keep (keeps.heaps players games)).grow others

theorem addPlayer (h : Explained s record) (fd : Int) (nameSet : Bool) :
    Explained (Server.addPlayer s fd nameSet) record where
  requests asked asking hasked := by
    rw [Server.player_addPlayer] at hasked
    split at hasked
    · cases hasked
    · exact h.requests asked asking hasked
  seats := h.seats

/-- Somebody is asked. -/
theorem request (h : Explained s record) (asking oponent : PlayerRef) :
    Explained (s.modifyPlayer oponent fun p => { p with askedForJoiningBy := some asking })
      (record ++ [.asked asking oponent]) := by
  refine ⟨fun p q hq => ?_, fun g hg => (h.seats g hg).grow _⟩
  rw [State.player_modifyPlayer] at hq
  split at hq
  · rename_i heq
    obtain rfl := Option.some.inj hq
    rw [heq]
    exact List.mem_append_right record List.mem_cons_self
  · exact List.mem_append_left _ (h.requests p q hq)

/-- A game that was asked for is registered. -/
theorem start (h : Explained s record) {asking asked : PlayerRef} (distinct : asking ≠ asked)
    (request : .asked asking asked ∈ record) :
    Explained (GameManager.addGame s asking asked) (record ++ [.accepted asking asked]) := by
  refine ⟨fun p q hq => List.mem_append_left _ (h.requests p q hq), fun g hg => ?_⟩
  rw [GameManager.game_addGame]
  split
  · have hdeeds := (List.singleton_sublist.mpr request).append
      (List.Sublist.refl [Deed.accepted asking asked])
    exact ⟨asking, asked, distinct, hdeeds, .refl, .refl⟩
  · rename_i hne
    exact (h.seats g (lt_of_le_of_ne (Nat.le_of_lt_succ hg) hne)).grow _

/-- A seat changes hands. -/
theorem handOver (h : Explained s record) (newP oldP : PlayerRef) (game : GameRef) :
    Explained (handedOver s newP oldP game)
      (record ++ [.reconnected (holderOf (takeOverName s newP oldP) game newP) newP]) := by
  have hnamed : KeepsSeats s (takeOverName s newP oldP) := by
    have h₁ := (KeepsSeats.refl s).modifyOther newP (Player.setName (s.player oldP).name)
      fun _ => rfl
    have h₂ := h₁.modifyOther newP (Player.setAvailible false) fun _ => rfl
    exact h₂.modifyOther newP (Player.setInGame true) fun _ => rfl
  have hgrown := (h.keep hnamed).grow
    [.reconnected (holderOf (takeOverName s newP oldP) game newP) newP]
  have hpassed : ∀ {q : PlayerRef}, holderOf (takeOverName s newP oldP) game newP = q →
      ∀ {p : PlayerRef},
        Inherits (record ++ [.reconnected (holderOf (takeOverName s newP oldP) game newP) newP])
          p q →
        Inherits (record ++ [.reconnected (holderOf (takeOverName s newP oldP) game newP) newP])
          p newP := by
    rintro q rfl p hp
    exact hp.tail (List.mem_append_right record List.mem_cons_self)
  refine ⟨fun p q hq => hgrown.requests p q (by simpa [handedOver] using hq), fun g hg => ?_⟩
  rw [handedOver, takeOverSeat_nextGame] at hg
  obtain ⟨asking, asked, hne, hdeeds, hp1, hp2⟩ := hgrown.seats g hg
  by_cases heq : g = game
  · subst heq
    unfold handedOver takeOverSeat
    split
    · -- the newcomer takes the first seat
      rename_i hfirst
      rw [State.game_modifyGame_self]
      exact ⟨asking, asked, hne, hdeeds, hpassed (if_pos hfirst) hp1, hp2⟩
    · rename_i hsecond
      rw [State.game_modifyGame_self]
      exact ⟨asking, asked, hne, hdeeds, hp1, hpassed (if_neg hsecond) hp2⟩
  · rw [game_handedOver_of_ne _ _ _ _ _ heq]
    exact ⟨asking, asked, hne, hdeeds, hp1, hp2⟩

/-- Handling a command: the deed that it is explains what changes. -/
theorem handled (h : Explained s record) {mess : Message} (effect : Effect s mess t) :
    Explained t (record ++ commandDeeds s mess) := by
  have hsame := KeepsSeats.refl s
  cases effect with
  | ignored => exact h.grow _
  | answered => exact h.kept hsame rfl rfl
  | @named p username =>
    have h₁ := hsame.modifyOther p (Player.setName username) fun _ => rfl
    have h₂ := h₁.modifyOther p (Player.setAvailible true) fun _ => rfl
    exact h.kept h₂ rfl rfl
  | @reconnected newP oldP _ _ game _ _ _ _ header sender payload found lost playing =>
    have hdeeds : commandDeeds s mess
        = [.reconnected (holderOf (takeOverName s newP oldP) game newP) newP] := by
      simp only [commandDeeds, sender, header, if_true, Message.firstName_getD payload,
        reconnectionDeeds, found, lost, playing]
    rw [hdeeds]
    exact (h.handOver newP oldP game).keep ((KeepsSeats.refl _).heaps rfl rfl)
  | @asked requesting oponent _ ack request header sender payload found joinable =>
    have hdeeds : commandDeeds s mess = [.asked requesting oponent] := by
      simp only [commandDeeds, sender, header, Message.firstName_getD payload, requestDeeds, found,
        joinable, if_true]
      rfl
    rw [hdeeds]
    have h₁ := (hsame.pushOut ack).modifyOther requesting (Player.setAvailible false)
      fun _ => rfl
    have h₂ := h₁.modifyOther requesting (fun p => { p with joiningPlayer := some oponent })
      fun _ => rfl
    have hasked := (h.keep (h₂.pushOut request)).request requesting oponent
    have h₃ := hasked.modifyOther requesting (Player.setAvailible false) fun _ => rfl
    exact h₃.modifyOther oponent (Player.setAvailible false) fun _ => rfl
  | @started asking asked _ _ header sender askedBy distinct waiting =>
    have hdeeds : commandDeeds s mess = [.accepted asking asked] := by
      simp only [commandDeeds, sender, header, acceptDeeds, askedBy, ne_eq, distinct,
        not_false_eq_true, waiting, and_self, if_true]
      rfl
    rw [hdeeds]
    have h₁ := (hsame.clearRequest asked).modifyOther asking (Player.setAvailible false)
      fun _ => rfl
    have h₂ := h₁.modifyOther asked (Player.setAvailible false) fun _ => rfl
    have hstarted := (h.keep h₂).start distinct (h.requests asked asking askedBy)
    have h₃ := hstarted.modifyOther asking (Player.setInGame true) fun _ => rfl
    have h₄ := h₃.modifyOther asked (Player.setInGame true) fun _ => rfl
    exact h₄.keep (((KeepsSeats.refl _).modifyGame s.gameHeap.next (Game.setPlayerOnTurn asking)
      (fun _ => rfl) fun _ => rfl).heaps rfl rfl)
  | @gone asking asked =>
    have h₁ := (hsame.clearRequest asked).modifyOther asking (Player.setAvailible false)
      fun _ => rfl
    have h₂ := h₁.modifyOther asked (Player.setAvailible false) fun _ => rfl
    exact h.kept h₂ rfl rfl
  | @declined asking asked =>
    have h₁ := (hsame.clearRequest asked).modifyOther asking (Player.setAvailible true)
      fun _ => rfl
    have h₂ := h₁.modifyOther asked (Player.setAvailible true) fun _ => rfl
    exact h.kept h₂ rfl rfl
  | @moved p oponent game cell cardType =>
    have h₁ := hsame.modifyGame game (Game.putCard cell cardType) (fun _ => rfl) fun _ => rfl
    have h₂ := h₁.modifyGame game (Game.setPlayerOnTurn oponent) (fun _ => rfl) fun _ => rfl
    exact h.kept h₂ rfl rfl
  | @won p oponent game cell cardType =>
    have h₁ := hsame.modifyGame game (Game.putCard cell cardType) (fun _ => rfl) fun _ => rfl
    exact h.kept (h₁.freeBoth p oponent) rfl rfl
  | @ended p oponent => exact h.kept (hsame.freeBoth p oponent) rfl rfl
  | @endedLost p =>
    have h₁ := hsame.modifyOther p (Player.setAvailible true) fun _ => rfl
    have h₂ := h₁.modifyOther p (Player.setInGame false) fun _ => rfl
    exact h.kept h₂ rfl rfl
  | disconnected _ _ _ closed => exact (h.keep (.of_disconnection closed)).grow _
  | @missed lost =>
    have h₁ := hsame.modifyOther lost (fun p => { p with lost := true }) fun _ => rfl
    exact h.kept h₁ rfl rfl
  | @bothLost lost oponent =>
    have h₁ := hsame.modifyOther lost (fun p => { p with lost := true }) fun _ => rfl
    have h₂ := h₁.modifyOther oponent (Player.setInGame false) fun _ => rfl
    have h₃ := h₂.modifyOther lost (Player.setInGame false) fun _ => rfl
    exact h.kept h₃ rfl rfl

/-- Every step that changes a seat or a request is the deed that explains it. -/
theorem exec (h : Explained s record) {a : Action} (stage : StageFromPacket s)
    (enabled : System.Enabled s a) (exec : System.exec s a = .ok t) :
    Explained t (record ++ deeds s a) := by
  cases exec_step stage enabled exec with
  | quiet quiet => exact (h.keep (.of_sameWorld quiet.toSameWorld)).grow _
  | @accepted fd nameSet => exact (h.addPlayer fd nameSet).grow _
  | closed quiet closed =>
    have hquiet := h.keep (.of_sameWorld quiet.toSameWorld)
    exact (hquiet.keep (.of_disconnection closed)).grow _
  | @handled command rest _ queue effect =>
    have hpop : Explained (s.withCommands rest) record :=
      h.keep (.of_sameWorld (sameWorld_withCommands s rest))
    simp only [deeds, queue]
    exact hpop.handled effect

end Explained

theorem reachable_of_witnessed {y : State × List Deed} (h : System.witnessed.Reachable y) :
    System.Reachable y.1 :=
  @Machine.reachable_of_recorded _ _ _ System.machine _ _ _ Machine.Unguarded y h

/-- **Nobody plays unasked**: in every run, a game that is registered was asked for by one player
    and then accepted by the other, and its seats have gone from these two to the ones who hold
    them now by reconnections alone. -/
theorem seats_go_back_to_consent (s : State) (record : List Deed)
    (h : System.witnessed.Reachable (s, record)) (g : GameRef) (registered : g ∈ s.games) :
    ∃ asking asked, asking ≠ asked ∧
      [Deed.asked asking asked, Deed.accepted asking asked].Sublist record ∧
        Inherits record asking (s.game g).p1 ∧ Inherits record asked (s.game g).p2 := by
  have hreach : System.Reachable s := reachable_of_witnessed h
  have hexplained : Explained s record := by
    refine Machine.ReachableFrom.invariant h (I := fun y => Explained y.1 y.2) Explained.initial ?_
    intro y y' a hy hexplained henabled _ hexec
    obtain ⟨hexec, hrecord⟩ := Machine.exec_recorded_eq_ok hexec
    rw [hrecord]
    exact hexplained.exec (stageFromPacket_of_reachable (reachable_of_witnessed hy)) henabled
      hexec
  exact hexplained.seats g ((registry_of_reachable hreach).gamesAllocated g registered)

/-- `A` and `B` play, `A` is lost and comes back on the descriptor 7. -/
def seatTakenOver : List Action :=
  System.loseOne ++ [.accept 7 false] ++ System.deliver 7 H_C_PL_RECONN [.str [65]]

/-- Player 2 sits where player 0 sat, who has asked for the game. -/
theorem seats_go_back_to_consent_reconnected :
    (System.witnessed.after Machine.Unguarded seatTakenOver).2
        = [.asked 0 1, .accepted 0 1, .reconnected 0 2] ∧
      ∃ asking asked, asking ≠ asked ∧
        [Deed.asked asking asked, Deed.accepted asking asked].Sublist
          (System.witnessed.after Machine.Unguarded seatTakenOver).2 ∧
          Inherits (System.witnessed.after Machine.Unguarded seatTakenOver).2 asking 2 := by
  have hconsent := fun (y : State × List Deed) (hy : System.witnessed.Reachable y) =>
    seats_go_back_to_consent y.1 y.2 hy
  have hrun : (System.witnessed.after Machine.Unguarded seatTakenOver).2
        = [.asked 0 1, .accepted 0 1, .reconnected 0 2] ∧
      (System.witnessed.after Machine.Unguarded seatTakenOver).1.games = [0] ∧
        ((System.witnessed.after Machine.Unguarded seatTakenOver).1.game 0).p1 = 2 := by
    decide +kernel
  obtain ⟨hrecord, hgames, hseat⟩ := hrun
  obtain ⟨asking, asked, hne, hdeeds, hfirst, -⟩ :=
    hconsent (System.witnessed.after Machine.Unguarded seatTakenOver)
      (Machine.reachableUnder_after seatTakenOver) 0
      (by rw [hgames]; exact List.mem_singleton_self _)
  exact ⟨hrecord, asking, asked, hne, hdeeds, hseat ▸ hfirst⟩

end UpsServer
