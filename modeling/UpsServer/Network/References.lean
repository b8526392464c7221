import UpsServer.Network.Outbox

/-!
# No dangling pointers

Pointers to players are kept in many places: in the players themselves, in the games, in commands
that wait, in messages that wait. Players are never freed, so every one of these pointers stays
good as long as it was good when it was stored. This module follows the pointers through every
step.
-/

namespace UpsServer

open Framework CommandManager

/-- The pointer leads to a player that was made. -/
def State.Made (s : State) (p : PlayerRef) : Prop := p < s.playerHeap.next

/-- The pointer is null or leads to a player that was made. -/
def State.MadeOrNull (s : State) (pointer : Option PlayerRef) : Prop := ∀ p ∈ pointer, s.Made p

section MadeOrNull

variable {s t : State} {pointer : Option PlayerRef}

theorem State.madeOrNull_none : s.MadeOrNull none := by simp [State.MadeOrNull]

theorem State.madeOrNull_some {p : PlayerRef} (h : s.Made p) : s.MadeOrNull (some p) := by
  intro q hq
  rw [← Option.some.inj hq]
  exact h

theorem State.MadeOrNull.grow (h : s.MadeOrNull pointer)
    (next : s.playerHeap.next ≤ t.playerHeap.next) : t.MadeOrNull pointer :=
  fun p hp => lt_of_lt_of_le (h p hp) next

end MadeOrNull

/-! ## Pointers in the objects -/

/-- The pointers that players and games hold. -/
structure Pointers (s : State) : Prop where
  askedBy : ∀ p, s.MadeOrNull (s.player p).askedForJoiningBy
  joining : ∀ p, s.MadeOrNull (s.player p).joiningPlayer
  seats : ∀ g < s.gameHeap.next, ∀ p, (s.game g).Seats p → s.Made p
  turn : ∀ g, s.MadeOrNull (s.game g).playerOnTurn

namespace Pointers

variable {s t : State}

theorem initial : Pointers State.initial where
  askedBy _ := State.madeOrNull_none
  joining _ := State.madeOrNull_none
  seats g hg := absurd hg (Nat.not_lt_zero g)
  turn _ := State.madeOrNull_none

/-- Every pointer was there before. -/
theorem keep (h : Pointers s) (next : s.playerHeap.next ≤ t.playerHeap.next)
    (nextGame : t.gameHeap.next = s.gameHeap.next)
    (player : ∀ p, ((t.player p).askedForJoiningBy = none ∨
        (t.player p).askedForJoiningBy = (s.player p).askedForJoiningBy) ∧
      ((t.player p).joiningPlayer = none ∨
        (t.player p).joiningPlayer = (s.player p).joiningPlayer))
    (game : ∀ g, t.game g = s.game g) : Pointers t where
  askedBy p := by
    rcases (player p).1 with hnone | hsame
    · rw [hnone]
      exact State.madeOrNull_none
    · rw [hsame]
      exact (h.askedBy p).grow next
  joining p := by
    rcases (player p).2 with hnone | hsame
    · rw [hnone]
      exact State.madeOrNull_none
    · rw [hsame]
      exact (h.joining p).grow next
  seats g hg p hseat := by
    rw [game] at hseat
    exact lt_of_lt_of_le (h.seats g (nextGame ▸ hg) p hseat) next
  turn g := by
    rw [game]
    exact (h.turn g).grow next

/-- The objects are the same. -/
theorem heaps (h : Pointers s) (players : t.playerHeap = s.playerHeap)
    (games : t.gameHeap = s.gameHeap) : Pointers t := by
  have hplayer : ∀ p, t.player p = s.player p := fun p => by rw [State.player, players]; rfl
  have hgame : ∀ g, t.game g = s.game g := fun g => by rw [State.game, games]; rfl
  refine h.keep (le_of_eq (by rw [players])) (by rw [games]) (fun p => ?_) hgame
  rw [hplayer p]
  exact ⟨Or.inr rfl, Or.inr rfl⟩

theorem sameWorld (h : Pointers s) (same : SameWorld s t) : Pointers t := by
  refine h.keep (le_of_eq same.nextPlayer.symm) same.nextGame (fun p => ?_) same.game
  obtain ⟨n, hn⟩ := same.player p
  rw [hn]
  exact ⟨Or.inr rfl, Or.inr rfl⟩

/-- An object is changed and holds good pointers afterwards. -/
theorem modifyPlayer (h : Pointers s) (p : PlayerRef) (f : Player → Player)
    (askedBy : s.MadeOrNull (f (s.player p)).askedForJoiningBy)
    (joining : s.MadeOrNull (f (s.player p)).joiningPlayer) : Pointers (s.modifyPlayer p f) where
  askedBy q := by
    rw [State.player_modifyPlayer]
    split
    · exact askedBy
    · exact h.askedBy q
  joining q := by
    rw [State.player_modifyPlayer]
    split
    · exact joining
    · exact h.joining q
  seats := h.seats
  turn := h.turn

/-- Only other fields of the object are changed. -/
theorem modifyOther (h : Pointers s) (p : PlayerRef) (f : Player → Player)
    (askedBy : ∀ x, (f x).askedForJoiningBy = x.askedForJoiningBy)
    (joining : ∀ x, (f x).joiningPlayer = x.joiningPlayer) : Pointers (s.modifyPlayer p f) :=
  h.modifyPlayer p f (by rw [askedBy]; exact h.askedBy p) (by rw [joining]; exact h.joining p)

theorem modifyGame (h : Pointers s) (g : GameRef) (f : Game → Game)
    (seats : ∀ p, (f (s.game g)).Seats p → (s.game g).Seats p ∨ s.Made p)
    (turn : s.MadeOrNull (f (s.game g)).playerOnTurn) : Pointers (s.modifyGame g f) where
  askedBy := h.askedBy
  joining := h.joining
  seats g' hg' p hseat := by
    rw [State.game_modifyGame] at hseat
    split at hseat
    · rename_i heq
      rcases seats p hseat with hold | hmade
      · exact h.seats g (heq ▸ hg') p hold
      · exact hmade
    · exact h.seats g' hg' p hseat
  turn g' := by
    rw [State.game_modifyGame]
    split
    · exact turn
    · exact h.turn g'

theorem addPlayer (h : Pointers s) (fd : Int) (nameSet : Bool) :
    Pointers (Server.addPlayer s fd nameSet) := by
  refine h.keep (Nat.le_succ _) rfl (fun p => ?_) fun _ => rfl
  rw [Server.player_addPlayer]
  split
  · exact ⟨Or.inl rfl, Or.inl rfl⟩
  · exact ⟨Or.inr rfl, Or.inr rfl⟩

/-- A new game between players that were made. -/
theorem addGame (h : Pointers s) {p1 p2 : PlayerRef} (hp1 : s.Made p1) (hp2 : s.Made p2) :
    Pointers (GameManager.addGame s p1 p2) where
  askedBy := h.askedBy
  joining := h.joining
  seats g hg p hseat := by
    rw [GameManager.game_addGame] at hseat
    split at hseat
    · rcases hseat with rfl | rfl
      · exact hp1
      · exact hp2
    · rename_i hne
      have hold : g < s.gameHeap.next :=
        lt_of_le_of_ne (Nat.le_of_lt_succ hg) hne
      exact h.seats g hold p hseat
  turn g := by
    rw [GameManager.game_addGame]
    split
    · exact State.madeOrNull_none
    · exact h.turn g

theorem clearRequest (h : Pointers s) (asked : PlayerRef) :
    Pointers (CommandManager.clearRequest s asked) :=
  h.modifyPlayer asked _ State.madeOrNull_none State.madeOrNull_none

theorem freeBoth (h : Pointers s) (p oponent : PlayerRef) :
    Pointers (UpsServer.freeBoth s p oponent) := by
  have h₁ := h.modifyOther p (Player.setInGame false) (fun _ => rfl) fun _ => rfl
  have h₂ := h₁.modifyOther oponent (Player.setInGame false) (fun _ => rfl) fun _ => rfl
  have h₃ := h₂.modifyOther p (Player.setAvailible true) (fun _ => rfl) fun _ => rfl
  exact h₃.modifyOther oponent (Player.setAvailible true) (fun _ => rfl) fun _ => rfl

theorem gameStarted (h : Pointers s) {asking asked : PlayerRef} (hasking : s.Made asking)
    (hasked : s.Made asked) : Pointers (UpsServer.gameStarted s asking asked) := by
  have h₁ := (h.clearRequest asked).modifyOther asking (Player.setAvailible false)
    (fun _ => rfl) fun _ => rfl
  have h₂ := h₁.modifyOther asked (Player.setAvailible false) (fun _ => rfl) fun _ => rfl
  have h₃ := h₂.addGame hasking hasked
  have h₄ := h₃.modifyOther asking (Player.setInGame true) (fun _ => rfl) fun _ => rfl
  have h₅ := h₄.modifyOther asked (Player.setInGame true) (fun _ => rfl) fun _ => rfl
  exact h₅.modifyGame s.gameHeap.next (Game.setPlayerOnTurn asking) (fun _ hseat => Or.inl hseat)
    (State.madeOrNull_some hasking)

theorem handedOver (h : Pointers s) {newP : PlayerRef} (hnew : s.Made newP) (oldP : PlayerRef)
    (game : GameRef) : Pointers (UpsServer.handedOver s newP oldP game) := by
  have h₁ := h.modifyOther newP (Player.setName (s.player oldP).name) (fun _ => rfl) fun _ => rfl
  have h₂ := h₁.modifyOther newP (Player.setAvailible false) (fun _ => rfl) fun _ => rfl
  have h₃ := h₂.modifyOther newP (Player.setInGame true) (fun _ => rfl) fun _ => rfl
  obtain ⟨f, hf, hseat⟩ := takeOverSeat_eq (takeOverName s newP oldP) newP game
  rw [UpsServer.handedOver, hf]
  -- whichever seat it is, the newcomer takes it and the other one stays
  rcases hseat with rfl | rfl
  · refine h₃.modifyGame game _ ?_ (h₃.turn game)
    rintro p (hp | hp)
    · exact Or.inr (hp ▸ hnew)
    · exact Or.inl (Or.inr hp)
  · refine h₃.modifyGame game _ ?_ (h₃.turn game)
    rintro p (hp | hp)
    · exact Or.inl (Or.inl hp)
    · exact Or.inr (hp ▸ hnew)

/-- The opponent that is found for somebody was made. -/
theorem otherSeat (h : Pointers s) (games : ∀ g ∈ s.games, g < s.gameHeap.next)
    {p : PlayerRef} {game : GameRef} (playing : GameManager.getGameByPlayer s p = some game) :
    s.Made (GameManager.otherSeat s game p) := by
  have hgame := games game (GameManager.getGameByPlayer_eq_some playing).1
  apply h.seats game hgame
  unfold GameManager.otherSeat
  split
  · exact Or.inr rfl
  · exact Or.inl rfl

/-- So was the opponent that the newcomer finds at its new seat. -/
theorem made_oponent (h : Pointers s) (hreg : Registry s) {newP oldP oponent : PlayerRef}
    {game : GameRef} (hnew : s.Made newP)
    (found : GameManager.getPlayersOponent (UpsServer.handedOver s newP oldP game) newP
      = some oponent) : s.Made oponent := by
  unfold GameManager.getPlayersOponent at found
  split at found
  · cases found
  · rename_i pG hplaying
    obtain rfl := Option.some.inj found
    have hgames : ∀ g ∈ (UpsServer.handedOver s newP oldP game).games,
        g < (UpsServer.handedOver s newP oldP game).gameHeap.next := by
      simpa [UpsServer.handedOver, takeOverName] using hreg.gamesAllocated
    have hmade := (h.handedOver hnew oldP game).otherSeat hgames hplaying
    simpa [State.Made, UpsServer.handedOver, takeOverName] using hmade

theorem disconnected (h : Pointers s) {fd : Int} (closed : Disconnection s fd t) :
    Pointers t := by
  cases closed with
  | @left pl =>
    have h₁ : Pointers (s.closeSocket fd) := h.heaps rfl rfl
    have h₂ := h₁.modifyPlayer pl (fun p => { p.removeSocket with joiningPlayer := none })
      (h.askedBy pl) State.madeOrNull_none
    exact h₂.heaps rfl rfl
  | @stays pl =>
    have h₁ : Pointers (s.closeSocket fd) := h.heaps rfl rfl
    have h₂ := h₁.modifyOther pl Player.removeSocket (fun _ => rfl) fun _ => rfl
    exact h₂.heaps rfl rfl

/-- Handling the command of a player that was made. -/
theorem handled (h : Pointers s) (hreg : Registry s) {mess : Message}
    (hsender : s.MadeOrNull mess.player) (effect : Effect s mess t) : Pointers t := by
  cases effect with
  | ignored => exact h
  | answered => exact h.heaps rfl rfl
  | @named p username =>
    have h₁ := h.modifyOther p (Player.setName username) (fun _ => rfl) fun _ => rfl
    have h₂ := h₁.modifyOther p (Player.setAvailible true) (fun _ => rfl) fun _ => rfl
    exact h₂.heaps rfl rfl
  | reconnected _ sender =>
    exact (h.handedOver (hsender _ sender) _ _).heaps rfl rfl
  | @asked requesting oponent _ ack request _ sender _ found =>
    have hrequesting : s.Made requesting := hsender _ sender
    have hoponent : s.Made oponent :=
      hreg.playersAllocated _ (List.mem_of_find?_eq_some found)
    have h₁ : Pointers (s.pushOut ack) := h.heaps rfl rfl
    have h₂ := h₁.modifyOther requesting (Player.setAvailible false) (fun _ => rfl) fun _ => rfl
    have h₃ := h₂.modifyPlayer requesting (fun p => { p with joiningPlayer := some oponent })
      (h₂.askedBy requesting) (State.madeOrNull_some hoponent)
    have h₄ := h₃.modifyPlayer oponent (fun p => { p with askedForJoiningBy := some requesting })
      (State.madeOrNull_some hrequesting) (h₃.joining oponent)
    have h₅ := h₄.modifyOther requesting (Player.setAvailible false) (fun _ => rfl) fun _ => rfl
    have h₆ := h₅.modifyOther oponent (Player.setAvailible false) (fun _ => rfl) fun _ => rfl
    exact h₆.heaps rfl rfl
  | @started asking asked _ _ _ sender askedBy =>
    exact (h.gameStarted (h.askedBy asked _ askedBy) (hsender _ sender)).heaps rfl rfl
  | @gone asking asked =>
    have h₁ := (h.clearRequest asked).modifyOther asking (Player.setAvailible false)
      (fun _ => rfl) fun _ => rfl
    have h₂ := h₁.modifyOther asked (Player.setAvailible false) (fun _ => rfl) fun _ => rfl
    exact h₂.heaps rfl rfl
  | @declined asking asked =>
    have h₁ := (h.clearRequest asked).modifyOther asking (Player.setAvailible true)
      (fun _ => rfl) fun _ => rfl
    have h₂ := h₁.modifyOther asked (Player.setAvailible true) (fun _ => rfl) fun _ => rfl
    exact h₂.heaps rfl rfl
  | @moved p oponent game cell cardType _ _ _ playing against =>
    have h₁ := h.modifyGame game (Game.putCard cell cardType) (fun _ hseat => Or.inl hseat)
      (h.turn game)
    have h₂ := h₁.modifyGame game (Game.setPlayerOnTurn oponent)
      (fun _ hseat => Or.inl hseat)
      (State.madeOrNull_some (against ▸ h.otherSeat hreg.gamesAllocated playing))
    exact h₂.heaps rfl rfl
  | @won p oponent game cell cardType =>
    have h₁ := h.modifyGame game (Game.putCard cell cardType) (fun _ hseat => Or.inl hseat)
      (h.turn game)
    exact (h₁.freeBoth p oponent).heaps rfl rfl
  | @ended p oponent => exact (h.freeBoth p oponent).heaps rfl rfl
  | @endedLost p =>
    have h₁ := h.modifyOther p (Player.setAvailible true) (fun _ => rfl) fun _ => rfl
    have h₂ := h₁.modifyOther p (Player.setInGame false) (fun _ => rfl) fun _ => rfl
    exact h₂.heaps rfl rfl
  | disconnected _ _ _ closed => exact h.disconnected closed
  | @missed lost =>
    exact (h.modifyOther lost (fun p => { p with lost := true }) (fun _ => rfl)
      fun _ => rfl).heaps rfl rfl
  | @bothLost lost oponent =>
    have h₁ := h.modifyOther lost (fun p => { p with lost := true }) (fun _ => rfl) fun _ => rfl
    have h₂ := h₁.modifyOther oponent (Player.setInGame false) (fun _ => rfl) fun _ => rfl
    have h₃ := h₂.modifyOther lost (Player.setInGame false) (fun _ => rfl) fun _ => rfl
    exact h₃.heaps rfl rfl

end Pointers

/-! ## Pointers in messages -/

/-- Where a command in the queue or in `PacketManager`'s hand comes from after a step: it was there
    before, or its player is listed. -/
structure CommandsFrom (s t : State) : Prop where
  queue : ∀ command ∈ t.commandQueue, command ∈ s.commandQueue ∨
    s.packetStage = .resolved command ∨ ∃ p ∈ s.players, command.message.player = some p
  hand : ∀ command, t.packetStage = .resolved command → s.packetStage = .resolved command ∨
    ∀ p ∈ command.message.player, p ∈ s.players

namespace CommandsFrom

variable {s t : State}

theorem same (queue : t.commandQueue = s.commandQueue) (stage : t.packetStage = s.packetStage) :
    CommandsFrom s t where
  queue _ hcommand := Or.inl (queue ▸ hcommand)
  hand _ hcommand := Or.inl (stage ▸ hcommand)

theorem of_disconnection {fd : Int} (closed : Disconnection s fd t) : CommandsFrom s t := by
  cases closed with
  | left => exact same rfl rfl
  | @stays pl found =>
    have hlisted := (Server.getPlayerBySocket_eq_some found).1
    refine ⟨fun command hcommand => ?_, fun _ hcommand => Or.inl hcommand⟩
    rcases List.mem_append.mp hcommand with hold | hnew
    · exact Or.inl hold
    · rw [List.mem_singleton.mp hnew]
      exact Or.inr (Or.inr ⟨pl, hlisted, rfl⟩)

/-- A handler only queues the loss of a listed player. -/
theorem of_effect {mess : Message} (effect : Effect s mess t) : CommandsFrom s t := by
  have htraffic := effect.sameTraffic
  cases effect with
  | disconnected _ _ _ closed => exact of_disconnection closed
  | @reconnected newP oldP _ _ game =>
    obtain ⟨f, hf, -⟩ := takeOverSeat_eq (takeOverName s newP oldP) newP game
    rw [handedOver, hf] at htraffic ⊢
    exact same rfl htraffic.packetStage
  | _ => exact same rfl htraffic.packetStage

end CommandsFrom

/-- Commands come from nowhere else. -/
theorem commands_from {s t : State} {a : Action} (h : System.exec s a = .ok t) :
    CommandsFrom s t := by
  cases a with
  | accept fd nameSet =>
    simp only [System.exec, Server.acceptConnection] at h
    split at h
    · cases h
    · rw [← Except.ok.inj h]
      exact .same rfl rfl
  | receive fd data =>
    obtain ⟨_, _, h⟩ := bind_eq_ok_iff.mp h
    rw [← Except.ok.inj h]
    exact .same rfl rfl
  | peerClosed fd => exact .of_disconnection (Server.disconnection_effect h)
  | popPacket =>
    rw [← Except.ok.inj h]
    unfold PacketManager.popPacket
    split
    · exact .same rfl rfl
    · exact ⟨fun _ hcommand => Or.inl hcommand, fun _ hcommand => by cases hcommand⟩
  | resolvePacket =>
    simp only [System.exec] at h
    split at h
    · rcases resolvePacket_eq_ok h with ⟨mess, _, rfl⟩ | ⟨_, hinvalid⟩
      · -- the player was just found under the descriptor
        refine ⟨fun _ hcommand => Or.inl hcommand, fun command hcommand => Or.inr ?_⟩
        rw [← PacketStage.resolved.inj hcommand]
        intro p hp
        exact (Server.getPlayerBySocket_eq_some hp).1
      · rcases countInvalid_eq_ok hinvalid with rfl | ⟨p, rfl | hclosed⟩
        · exact ⟨fun _ hcommand => Or.inl hcommand, fun _ hcommand => by cases hcommand⟩
        · exact ⟨fun _ hcommand => Or.inl hcommand, fun _ hcommand => by cases hcommand⟩
        · have hfrom := CommandsFrom.of_disconnection hclosed
          refine ⟨fun command hcommand => ?_, fun command hcommand => ?_⟩
          · rcases hfrom.queue command hcommand with hold | hhand | hnew
            · exact Or.inl hold
            · cases hhand
            · exact Or.inr (Or.inr hnew)
          · rcases hfrom.hand command hcommand with hhand | hnew
            · cases hhand
            · exact Or.inr hnew
    · rw [← Except.ok.inj h]
      exact .same rfl rfl
  | registerResolved =>
    simp only [System.exec] at h
    split at h
    · rename_i resolved hhand
      rw [← Except.ok.inj h]
      refine ⟨fun command hcommand => ?_, fun _ hcommand => by cases hcommand⟩
      rcases List.mem_append.mp hcommand with hold | hnew
      · exact Or.inl hold
      · rw [List.mem_singleton.mp hnew]
        exact Or.inr (Or.inl hhand)
    · rw [← Except.ok.inj h]
      exact .same rfl rfl
  | runCommand =>
    simp only [System.exec, System.runCommand] at h
    split at h
    · rw [← Except.ok.inj h]
      exact .same rfl rfl
    · rename_i command rest hqueue
      have hfrom := CommandsFrom.of_effect (dispatch_effect h)
      refine ⟨fun command' hcommand => ?_, hfrom.hand⟩
      rcases hfrom.queue command' hcommand with hold | hother
      · rw [hqueue]
        exact Or.inl (List.mem_cons_of_mem _ hold)
      · exact Or.inr hother
  | popOutgoing =>
    rw [← Except.ok.inj h]
    unfold Sender.popOutgoing
    split <;> exact .same rfl rfl
  | sendOutgoing =>
    rw [← Except.ok.inj h]
    unfold Sender.sendOutgoing
    split <;> exact .same rfl rfl

/-- A message of the table: composed of entries of the right kinds, for a player that was made. -/
def State.Tellable (s : State) (m : Message) : Prop :=
  ∃ header data p, m = .compose header data (some p) ∧
    headToFormatMap header = some (data.map Datum.letter) ∧ s.Made p

theorem State.Tellable.grow {s t : State} {m : Message} (h : s.Tellable m)
    (next : s.playerHeap.next ≤ t.playerHeap.next) : t.Tellable m := by
  obtain ⟨header, data, p, hm, known, hp⟩ := h
  exact ⟨header, data, p, hm, known, lt_of_lt_of_le hp next⟩

theorem State.Tellable.made {s : State} {m : Message} (h : s.Tellable m) {p : PlayerRef}
    (hplayer : m.player = some p) : s.Made p := by
  obtain ⟨header, data, q, hm, -, hq⟩ := h
  rw [hm, Sender.compose_eq] at hplayer
  obtain rfl := Option.some.inj hplayer
  exact hq

/-- Every message of the table is of that kind. -/
theorem told_tellable {s : State} {mess : Message} (hpointers : Pointers s) (hreg : Registry s)
    (hsender : s.MadeOrNull mess.player) : ∀ m ∈ told s mess, s.Tellable m := by
  have hnone : ∀ m ∈ ([] : List Message), s.Tellable m := by simp
  have hone : ∀ (header : UInt32) (data : List Datum) (p : PlayerRef), s.Made p →
      headToFormatMap header = some (data.map Datum.letter) →
        ∀ m ∈ [Message.compose header data (some p)], s.Tellable m := by
    intro header data p hp known m hm
    exact ⟨header, data, p, List.mem_singleton.mp hm, known, hp⟩
  have htwo : ∀ (header header' : UInt32) (data data' : List Datum) (p p' : PlayerRef),
      s.Made p → s.Made p' → headToFormatMap header = some (data.map Datum.letter) →
        headToFormatMap header' = some (data'.map Datum.letter) →
          ∀ m ∈ [Message.compose header data (some p), Message.compose header' data' (some p')],
            s.Tellable m := by
    intro header header' data data' p p' hp hp' known known' m hm
    rcases List.mem_cons.mp hm with rfl | hm
    · exact ⟨header, data, p, rfl, known, hp⟩
    · exact hone header' data' p' hp' known' m hm
  cases hplayer : mess.player with
  | none => simp [told, hplayer]
  | some p =>
    have hp : s.Made p := hsender p hplayer
    have hfound : ∀ name q, Server.getPlayerByName s name = some q → s.Made q :=
      fun name q hq => hreg.playersAllocated q (List.mem_of_find?_eq_some hq)
    have hagainst : ∀ game, GameManager.getGameByPlayer s p = some game →
        s.Made (GameManager.otherSeat s game p) :=
      fun game hgame => hpointers.otherSeat hreg.gamesAllocated hgame
    simp only [told, hplayer]
    split_ifs
    · unfold toldOnRegistration
      split <;> exact hone _ _ _ hp (by rfl)
    · unfold toldOnReconnection
      split
      · exact hone _ _ _ hp (by rfl)
      · split
        · split
          · unfold toldOnHandover
            dsimp only
            split
            · rename_i hoponent
              exact htwo _ _ _ _ _ _ hp (hpointers.made_oponent hreg hp hoponent) (by rfl)
                (by rfl)
            · exact hnone
          · exact hnone
        · exact hone _ _ _ hp (by rfl)
    · exact hone _ _ _ hp (by rfl)
    · unfold toldOnLogout
      split
      · exact hnone
      · rename_i hplaying
        dsimp only
        split
        · exact hone _ _ _ (hagainst _ hplaying) (by rfl)
        · exact hnone
    · unfold toldOnJoining
      split
      · exact hone _ _ _ hp (by rfl)
      · rename_i hq
        split
        · exact htwo _ _ _ _ _ _ hp (hfound _ _ hq) (by rfl) (by rfl)
        · exact hone _ _ _ hp (by rfl)
    · unfold toldOnDecline
      split
      · exact hnone
      · rename_i hasking
        split
        · exact hone _ _ _ (hpointers.askedBy p _ hasking) (by rfl)
        · exact hnone
    · unfold toldOnAccept
      split
      · exact hnone
      · rename_i hasking
        split_ifs
        · exact htwo _ _ _ _ _ _ (hpointers.askedBy p _ hasking) hp (by rfl) (by rfl)
        · exact hone _ _ _ hp (by rfl)
        · exact hnone
    · split
      · unfold toldOnMove
        split
        · exact hnone
        · rename_i hplaying
          dsimp only
          split
          · exact htwo _ _ _ _ _ _ hp (hagainst _ hplaying) (by rfl) (by rfl)
          · exact hone _ _ _ (hagainst _ hplaying) (by rfl)
      · exact hnone
    · unfold toldOnLoss
      split
      · exact hnone
      · rename_i hplaying
        dsimp only
        split
        · exact hnone
        · exact hone _ _ _ (hagainst _ hplaying) (by rfl)
    · exact hnone

/-! ## Every run -/

/-- The pointers in the objects, in the commands and in the messages that were registered. -/
structure References (s : State) : Prop where
  pointers : Pointers s
  queue : ∀ command ∈ s.commandQueue, s.MadeOrNull command.message.player
  hand : ∀ command, s.packetStage = .resolved command → s.MadeOrNull command.message.player
  outbox : ∀ packet ∈ s.outbox, s.Tellable packet.message

/-- What a step tells is in the table. -/
theorem References.toldBy_tellable {s : State} (h : References s) (hreg : Registry s) (a : Action) :
    ∀ m ∈ toldBy s a, s.Tellable m := by
  unfold toldBy
  split
  · split
    · simp
    · rename_i command rest hqueue
      have hsame := sameWorld_withCommands s rest
      have hsender : (s.withCommands rest).MadeOrNull command.message.player :=
        h.queue command (by rw [hqueue]; exact List.mem_cons_self)
      exact told_tellable (h.pointers.sameWorld hsame) (hreg.same hsame) hsender
  · simp

namespace References

variable {s t : State}

theorem initial : References State.initial where
  pointers := .initial
  queue _ h := by cases h
  hand _ h := by cases h
  outbox _ h := by simp [State.outbox, State.outgoing, State.initial] at h

/-- The sender of the command that is handled next. -/
theorem sender (h : References s) {command : Command} {rest : List Command}
    (queue : s.commandQueue = command :: rest) : s.MadeOrNull command.message.player :=
  h.queue command (by rw [queue]; exact List.mem_cons_self)

theorem exec {a : Action} (h : References s) (hreg : Registry s)
    (enabled : System.Enabled s a) (hexec : System.exec s a = .ok t) (step : WorldStep s a t) :
    References t := by
  have hgrow := step.next_le
  have hlisted : ∀ p ∈ s.players, s.Made p := hreg.playersAllocated
  have hpointers : Pointers t := by
    cases step with
    | quiet hquiet => exact h.pointers.sameWorld hquiet.toSameWorld
    | accepted => exact h.pointers.addPlayer _ _
    | closed hquiet hclosed =>
      exact (h.pointers.sameWorld hquiet.toSameWorld).disconnected hclosed
    | @handled command rest _ hqueue heffect =>
      have hpopped := h.pointers.sameWorld (sameWorld_withCommands s rest)
      exact hpopped.handled (hreg.same (sameWorld_withCommands s rest)) (h.sender hqueue) heffect
  have hfrom := commands_from hexec
  refine ⟨hpointers, fun command hcommand => ?_, fun command hcommand => ?_, ?_⟩
  · rcases hfrom.queue command hcommand with hold | hhand | ⟨p, hp, hplayer⟩
    · exact (h.queue command hold).grow hgrow
    · exact (h.hand command hhand).grow hgrow
    · rw [hplayer]
      exact (State.madeOrNull_some (hlisted p hp)).grow hgrow
  · rcases hfrom.hand command hcommand with hhand | hnew
    · exact (h.hand command hhand).grow hgrow
    · have hmade : s.MadeOrNull command.message.player := fun p hp => hlisted p (hnew p hp)
      exact hmade.grow hgrow
  · -- what was registered is in the table, and the table only names players that were made
    obtain ⟨packets, houtbox, hmessages, -⟩ := (appends_exec enabled hexec).outbox
    intro packet hpacket
    rw [houtbox] at hpacket
    rcases List.mem_append.mp hpacket with hold | hnew
    · exact (h.outbox packet hold).grow hgrow
    · have htold : packet.message ∈ toldBy s a := hmessages ▸ List.mem_map_of_mem hnew
      exact (h.toldBy_tellable hreg a _ htold).grow hgrow

end References

theorem references_of_reachable {s : State} (h : System.Reachable s) : References s := by
  apply Machine.ReachableFrom.invariant h References.initial
  intro t u a hreach hrefs henabled _ hexec
  exact hrefs.exec (registry_of_reachable hreach) henabled hexec
    (exec_step (stageFromPacket_of_reachable hreach) henabled hexec)

/-- **No dangling pointers**: in every reachable state, whatever the clients sent, every player
    that is listed, connected, seated, on turn, asked, asking, the sender of a command or the
    addressee of a message was made and not freed, and so was every registered game. -/
theorem no_dangling_pointers (s : State) (h : System.Reachable s) :
    (∀ p ∈ s.players, s.Made p) ∧ (∀ fd, s.MadeOrNull (s.descriptors fd)) ∧
      (∀ p, s.MadeOrNull (s.player p).askedForJoiningBy ∧
        s.MadeOrNull (s.player p).joiningPlayer) ∧
      (∀ g ∈ s.games, g < s.gameHeap.next ∧ s.Made (s.game g).p1 ∧ s.Made (s.game g).p2 ∧
        s.MadeOrNull (s.game g).playerOnTurn) ∧
      (∀ command ∈ s.commandQueue, s.MadeOrNull command.message.player) ∧
      (∀ command ∈ s.packetStage.command, s.MadeOrNull command.message.player) ∧
      ∀ packet ∈ s.outbox, ∃ p, packet.message.player = some p ∧ s.Made p := by
  have hreg := registry_of_reachable h
  have hrefs := references_of_reachable h
  refine ⟨hreg.playersAllocated, fun fd p hfd => ?_, fun p => ?_, fun g hg => ?_, hrefs.queue,
    fun command hcommand => ?_, fun packet hpacket => ?_⟩
  · exact ((connections_of_reachable h).owner fd p hfd).1
  · exact ⟨hrefs.pointers.askedBy p, hrefs.pointers.joining p⟩
  · have hgame := hreg.gamesAllocated g hg
    exact ⟨hgame, hrefs.pointers.seats g hgame _ (Or.inl rfl),
      hrefs.pointers.seats g hgame _ (Or.inr rfl), hrefs.pointers.turn g⟩
  · apply hrefs.hand command
    cases hstage : s.packetStage with
    | resolved c =>
      rw [hstage] at hcommand
      rw [Option.some.inj hcommand]
    | idle | popped =>
      rw [hstage] at hcommand
      cases hcommand
  · obtain ⟨header, data, p, hmessage, -, hp⟩ := hrefs.outbox packet hpacket
    exact ⟨p, by rw [hmessage, Sender.compose_eq], hp⟩

/-- Both players of a game that has just started were made. -/
theorem no_dangling_pointers_playing :
    (System.after System.playTwo).games = [0] ∧
      (System.after System.playTwo).Made ((System.after System.playTwo).game 0).p1 := by
  have hmade := no_dangling_pointers _ (System.reachable_after System.playTwo)
  have hgames : (System.after System.playTwo).games = [0] := by decide +kernel
  exact ⟨hgames, (hmade.2.2.2.1 0 (by rw [hgames]; exact List.mem_singleton_self _)).2.1⟩

end UpsServer
