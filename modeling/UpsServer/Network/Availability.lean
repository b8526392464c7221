import UpsServer.Network.Requests

/-!
# Players who can neither play nor be asked

A player who asks or is asked is not available until the request is answered. The handlers make
both sides available again, or put them into a game, when they answer in turn; a request that one
side abandons, a second request to the same player and an acceptance that comes too late leave
somebody behind. This module says so for whole runs.
-/

namespace UpsServer

open Framework CommandManager Sender

/-! ## Withdrawn players -/

/-- A connected player under a name who is in no game and not available. -/
def Withdrawn (s : State) (p : PlayerRef) : Prop :=
  p ∈ s.players ∧ (s.player p).hasSocket = true ∧ (s.player p).hasName = true ∧
    (s.player p).inGame = false ∧ (s.player p).availible = false

instance (s : State) (p : PlayerRef) : Decidable (Withdrawn s p) :=
  inferInstanceAs (Decidable (_ ∧ _ ∧ _ ∧ _ ∧ _))

/-- One of the two has asked the other. -/
def Parties (s : State) (p other : PlayerRef) : Prop := Asks s p other ∨ Asks s other p

instance (s : State) (p other : PlayerRef) : Decidable (Parties s p other) :=
  inferInstanceAs (Decidable (_ ∨ _))

/-- Whoever is withdrawn in a state that agrees on the flags is withdrawn. -/
theorem Withdrawn.of_same {s t : State} {p : PlayerRef} (h : Withdrawn t p)
    (players : p ∈ t.players → p ∈ s.players)
    (socketSet : (t.player p).socketSet = (s.player p).socketSet)
    (nameSet : (t.player p).nameSet = (s.player p).nameSet)
    (inGame : (t.player p).inGame = (s.player p).inGame)
    (availible : (t.player p).availible = (s.player p).availible) : Withdrawn s p := by
  obtain ⟨hlisted, hsocket, hname, hfree, hclosed⟩ := h
  rw [Player.hasSocket, socketSet] at hsocket
  rw [Player.hasName, nameSet] at hname
  rw [inGame] at hfree
  rw [availible] at hclosed
  exact ⟨players hlisted, hsocket, hname, hfree, hclosed⟩

/-- Whoever is withdrawn after a step that left its object alone was withdrawn before. -/
theorem Withdrawn.of_eq {s t : State} {p : PlayerRef} (h : Withdrawn t p)
    (players : p ∈ t.players → p ∈ s.players) (player : t.player p = s.player p) :
    Withdrawn s p := by
  apply h.of_same players <;> rw [player]

/-- Every withdrawn player has a pending request with a listed one. -/
def Pending (s : State) : Prop :=
  ∀ p, Withdrawn s p → ∃ other ∈ s.players, Parties s p other

/-- A step ends a request: it is accepted or declined, or one of its players leaves the list. -/
def EndsRequest (s : State) (a : Action) (t : State) (asking asked : PlayerRef) : Prop :=
  (a = .runCommand ∧ ∃ command ∈ s.commandQueue.head?, command.message.player = some asked ∧
    (command.message.header = H_C_ACCEPT_JOIN ∨ command.message.header = H_C_DECLIN_JOIN)) ∨
  (∃ p ∈ s.players, p ∉ t.players ∧ (p = asking ∨ p = asked))

/-! ## Answers -/

/-- When the asking player still waits, an acceptance starts the game. -/
theorem acceptJoin_starts {s t : State} {mess : Message} {asking asked : PlayerRef}
    (sender : mess.player = some asked) (asks : Asks s asking asked) (distinct : asking ≠ asked)
    (waits : Waits s asking) (h : proceedAcceptJoin s mess = .ok t) :
    ∃ first second, t = ((gameStarted s asking asked).pushOut first).pushOut second := by
  have haskedBy : (s.player asked).askedForJoiningBy = some asking := asks
  have hwaits : (((((clearRequest s asked).modifyPlayer asking
      (Player.setAvailible false)).modifyPlayer asked (Player.setAvailible false)).player
        asking).joiningPlayer.isSome) = true := by
    have hwaits : (s.player asking).joiningPlayer.isSome = true := waits
    simpa [clearRequest, State.player_modifyPlayer_of_ne _ _ distinct] using hwaits
  unfold proceedAcceptJoin at h
  rw [sender, deref_some, ok_bind, haskedBy, deref_some, ok_bind] at h
  simp only [hwaits, if_true] at h
  obtain ⟨first, second, -, -, rfl⟩ := startGame_eq_ok h
  exact ⟨first, second, rfl⟩

/-- A refusal makes both players available. -/
theorem declineJoin_frees {s t : State} {mess : Message} {asking asked : PlayerRef}
    (sender : mess.player = some asked) (asks : Asks s asking asked)
    (h : proceedDeclineJoin s mess = .ok t) :
    (t.player asking).availible = true ∧ (t.player asked).availible = true := by
  have haskedBy : (s.player asked).askedForJoiningBy = some asking := asks
  unfold proceedDeclineJoin at h
  rw [sender, deref_some, ok_bind, haskedBy, deref_some, ok_bind] at h
  obtain ⟨u, -, h⟩ := bind_eq_ok_iff.mp h
  rw [← Except.ok.inj h]
  constructor
  · simp
  · simp

/-! ## The conditions -/

/-- A request to a joinable player is handled while its sender is listed and no other withdrawn
    player waits for the answer of the asked one. -/
def AsksAlone (s : State) (a : Action) : Prop :=
  a = .runCommand → ∀ command ∈ s.commandQueue.head?, command.message.header = H_C_JOIN_PLAYER →
    ∀ p ∈ command.message.player, ∀ name ∈ command.message.firstName,
      ∀ oponent ∈ Server.getPlayerByName s name, isJoinable s oponent = true →
        p ∈ s.players ∧ ∀ q ∈ s.players, Withdrawn s q → Asks s q oponent → q = p

instance (s : State) (a : Action) : Decidable (AsksAlone s a) :=
  inferInstanceAs (Decidable (_ → ∀ command ∈ s.commandQueue.head?, _ →
    ∀ p ∈ command.message.player, ∀ name ∈ command.message.firstName,
      ∀ oponent ∈ Server.getPlayerByName s name, _ → _ ∧ ∀ q ∈ s.players, _ → _ → _))

/-- An acceptance is handled while another player still waits for it. -/
def AcceptsWaiting (s : State) (a : Action) : Prop :=
  a = .runCommand → ∀ command ∈ s.commandQueue.head?, command.message.header = H_C_ACCEPT_JOIN →
    ∀ asked ∈ command.message.player, ∀ asking ∈ (s.player asked).askedForJoiningBy,
      asking ≠ asked ∧ Waits s asking

instance (s : State) (a : Action) : Decidable (AcceptsWaiting s a) :=
  inferInstanceAs (Decidable (_ → ∀ command ∈ s.commandQueue.head?, _ →
    ∀ asked ∈ command.message.player, ∀ asking ∈ (s.player asked).askedForJoiningBy, _ ∧ _))

/-- A new player has no name. -/
def AcceptsNameless (a : Action) : Prop :=
  match a with
  | .accept _ nameSet => nameSet = false
  | _ => True

instance : (a : Action) → Decidable (AcceptsNameless a)
  | .accept _ nameSet => inferInstanceAs (Decidable (nameSet = false))
  | .receive _ _ | .peerClosed _ | .popPacket | .resolvePacket | .registerResolved | .runCommand
  | .popOutgoing | .sendOutgoing => isTrue trivial

/-- The player takes over a seat in the step. -/
def Reconnects (s : State) (a : Action) (p : PlayerRef) : Prop :=
  a = .runCommand ∧ ∃ command ∈ s.commandQueue.head?, command.message.header = H_C_PL_RECONN ∧
    command.message.player = some p

instance (s : State) (a : Action) (p : PlayerRef) : Decidable (Reconnects s a p) :=
  inferInstanceAs (Decidable (_ ∧ ∃ command ∈ s.commandQueue.head?, _ ∧ _))

/-- No withdrawn player who stays has a request with a player who leaves. -/
def LeavesNobody (s : State) (a : Action) : Prop :=
  ∀ p ∈ s.leaving a, ∀ q ∈ s.players, q ∉ s.leaving a → Withdrawn s q → ¬ Reconnects s a q →
    ¬ Parties s q p

instance (s : State) (a : Action) : Decidable (LeavesNobody s a) :=
  inferInstanceAs (Decidable (∀ p ∈ s.leaving a, ∀ q ∈ s.players, _ → _ → _ → _))

/-- The condition on a step: no request is abandoned, overwritten or accepted too late. -/
def RequestsAnswered (s : State) (a : Action) : Prop :=
  AcceptsNameless a ∧ AsksAlone s a ∧ AcceptsWaiting s a ∧ LeavesNobody s a

instance (s : State) (a : Action) : Decidable (RequestsAnswered s a) :=
  inferInstanceAs (Decidable (_ ∧ _ ∧ _ ∧ _))

/-! ## Who is withdrawn after a step -/

theorem Withdrawn.of_sameWorld {s t : State} (same : SameWorld s t) {p : PlayerRef}
    (h : Withdrawn t p) : Withdrawn s p := by
  obtain ⟨n, hn⟩ := same.player p
  apply h.of_same (fun hlisted => same.players ▸ hlisted) <;> rw [hn]

/-- Nobody becomes withdrawn when a connection ends. -/
theorem Disconnection.withdrawn {s t : State} {fd : Int} (closed : Disconnection s fd t)
    {q : PlayerRef} (h : Withdrawn t q) : Withdrawn s q := by
  cases closed with
  | @left pl =>
    have hne : q ≠ pl := by
      rintro rfl
      have hopen := h.2.1
      rw [State.player_withPlayers, State.player_modifyPlayer_self] at hopen
      cases hopen
    apply h.of_eq fun hlisted => List.eraseP_sublist.subset hlisted
    rw [State.player_withPlayers, State.player_modifyPlayer_of_ne _ _ hne,
      State.player_closeSocket]
  | @stays pl =>
    have hne : q ≠ pl := by
      rintro rfl
      have hopen := h.2.1
      rw [State.player_registerCommand, State.player_modifyPlayer_self] at hopen
      cases hopen
    refine h.of_eq (fun hlisted => hlisted) ?_
    rw [State.player_registerCommand, State.player_modifyPlayer_of_ne _ _ hne,
      State.player_closeSocket]

/-- What is known about lost players when a command is handled. -/
structure LostClosed (s : State) (mess : Message) : Prop where
  sender : mess.header = INTERNAL_PL_LOST → ∀ p ∈ mess.player, (s.player p).socketSet = false
  lost : ∀ p, (s.player p).lost = true → (s.player p).socketSet = false

theorem Sound.lostClosed {s : State} (h : Sound s) {command : Command} {rest : List Command}
    (queue : s.commandQueue = command :: rest) :
    LostClosed (s.withCommands rest) command.message where
  sender hheader _ hp := (h.losses.popped queue hheader hp).2.2.1
  lost _ hp := (h.losses.lostClosed _ hp).2

/-- When a game ends, both of its players are available. -/
theorem withdrawn_of_freeBoth {s t : State} {p oponent q : PlayerRef} (h : Withdrawn t q)
    (players : t.players = s.players) (player : t.player q = (freeBoth s p oponent).player q) :
    Withdrawn s q := by
  have hclosed := h.2.2.2.2
  rw [player, availible_freeBoth] at hclosed
  split at hclosed
  · cases hclosed
  · rename_i hne
    rw [not_or] at hne
    apply h.of_eq (fun hlisted => players ▸ hlisted)
    rw [player, player_freeBoth_of_ne hne.1 hne.2]

/-- When a request is refused, both of its players are available. -/
theorem withdrawn_of_declined {s : State} {asking asked q : PlayerRef} {answers : List OutPacket}
    (h : Withdrawn ((((clearRequest s asked).pushAll answers).modifyPlayer asking
      (Player.setAvailible true)).modifyPlayer asked (Player.setAvailible true)) q) :
    q ≠ asking ∧ q ≠ asked ∧ Withdrawn s q := by
  have hclosed := h.2.2.2.2
  simp only [State.availible_setAvailible] at hclosed
  split at hclosed
  · cases hclosed
  rename_i hne
  split at hclosed
  · cases hclosed
  rename_i hne'
  refine ⟨hne', hne, h.of_eq (fun hlisted => hlisted) ?_⟩
  simp only [State.player_modifyPlayer_of_ne _ _ hne, State.player_modifyPlayer_of_ne _ _ hne',
    State.player_pushAll, clearRequest]

/-- Only requests and answers to them make somebody withdrawn. -/
theorem Effect.withdrawn {s t : State} {mess : Message} (effect : Effect s mess t)
    (lost : LostClosed s mess) (request : mess.header ≠ H_C_JOIN_PLAYER)
    (answer : mess.header ≠ H_C_ACCEPT_JOIN) {q : PlayerRef} (h : Withdrawn t q) :
    Withdrawn s q := by
  cases effect with
  | disconnected _ _ _ closed => exact closed.withdrawn h
  | @named p =>
    -- the player who registers is available afterwards
    have hne : q ≠ p := by
      rintro rfl
      have hclosed := h.2.2.2.2
      simp at hclosed
    refine h.of_eq (fun hlisted => hlisted) ?_
    simp only [State.player_pushOut, State.player_modifyPlayer_of_ne _ _ hne]
  | @reconnected newP oldP _ _ game _ _ _ players _ _ _ _ _ _ _ _ _ _ erased =>
    have hne : q ≠ newP := by
      rintro rfl
      have hfree := h.2.2.2.1
      simp at hfree
    refine h.of_eq (fun hlisted => ?_) ?_
    · have hbefore := erased.sublist.subset hlisted
      rwa [handedOver_players] at hbefore
    · simp only [State.player_withPlayers, State.player_pushOut, handedOver, player_takeOverSeat,
        takeOverName, State.player_modifyPlayer_of_ne _ _ hne]
  | asked header => exact absurd header request
  | started header => exact absurd header answer
  | gone header => exact absurd header answer
  | declined => exact (withdrawn_of_declined h).2.2
  | won => exact withdrawn_of_freeBoth h rfl rfl
  | ended => exact withdrawn_of_freeBoth h rfl rfl
  | @endedLost p oponent game players _ _ _ _ _ _ erased =>
    have hne : q ≠ p := by
      rintro rfl
      have hclosed := h.2.2.2.2
      simp at hclosed
    apply h.of_eq (fun hlisted => erased.sublist.subset hlisted)
    simp only [State.player_withGames, State.player_modifyPlayer_of_ne _ _ hne,
      State.player_withPlayers]
  | @bothLost p oponent game players players' header sender _ _ absent erased erased' =>
    have hclosed := lost.sender header p sender
    have hne : q ≠ p := by
      rintro rfl
      have hopen := h.2.1
      simp [Player.hasSocket, hclosed] at hopen
    have hne' : q ≠ oponent := by
      rintro rfl
      have hopen := h.2.1
      simp [Player.hasSocket, lost.lost q (absent.resolve_left hne)] at hopen
    apply h.of_eq (fun hlisted => erased.sublist.subset (erased'.sublist.subset hlisted))
    simp only [State.player_withPlayers, State.player_modifyPlayer_of_ne _ _ hne,
      State.player_modifyPlayer_of_ne _ _ hne', State.player_withGames]
  | missed => refine h.of_same (fun hlisted => hlisted) ?_ ?_ ?_ ?_ <;> simp
  | _ => exact h.of_eq (fun hlisted => hlisted) rfl

/-- Whoever takes over a seat, so that somebody leaves the list, is in a game. -/
theorem Effect.inGame_of_reconnection {s t : State} {mess : Message} (effect : Effect s mess t)
    (header : mess.header = H_C_PL_RECONN) {p q : PlayerRef} (sender : mess.player = some q)
    (listed : p ∈ s.players) (left : p ∉ t.players) : (t.player q).inGame = true := by
  cases effect with
  | reconnected _ sender' =>
    obtain rfl := Option.some.inj (sender.symm.trans sender')
    simp
  | named header' | asked header' | started header' | gone header' | declined header'
  | moved header' | won header' | ended header' | endedLost header' | disconnected header'
  | missed header' | bothLost header' => exact absurd (header.symm.trans header') (by decide)
  | _ => exact absurd listed left

/-- When somebody leaves the list in a step, nobody becomes withdrawn, and whoever takes over a
    seat in it is not. -/
theorem withdrawn_of_leaving {s t : State} {a : Action} (hsound : Sound s)
    (exec : System.exec s a = .ok t) {p : PlayerRef} (listed : p ∈ s.players)
    (left : p ∉ t.players) {q : PlayerRef} (h : Withdrawn t q) :
    Withdrawn s q ∧ ¬ Reconnects s a q := by
  cases departure hsound.registry exec with
  | nobody stays => exact absurd (stays p listed) left
  | disconnected call closed =>
    obtain ⟨hsame, hfrom⟩ := disconnects_eq_some call
    refine ⟨(closed.withdrawn h).of_sameWorld hsame, ?_⟩
    rintro ⟨rfl, command, hhead, hheader, -⟩
    rcases hfrom with hnow | ⟨hnow, -⟩ | ⟨-, command', hhead', hheader', -⟩
    · cases hnow
    · cases hnow
    · obtain rfl := Option.some.inj (hhead.symm.trans hhead')
      exact absurd (hheader.symm.trans hheader') (by decide)
  | @deleted command rest now queue effect players =>
    have hdeleted : p ∈ s.deleting a := by
      by_contra hkept
      exact left ((players p).mpr ⟨listed, hkept⟩)
    subst now
    have hheader : command.message.header ∈ [H_C_PL_RECONN, H_C_PL_LOGOUT, INTERNAL_PL_LOST] := by
      cases hsender : command.message.player with
      | none => simp [State.deleting, queue, hsender] at hdeleted
      | some sender =>
        rw [State.deleting_runCommand queue hsender] at hdeleted
        exact header_of_mem_deletes hdeleted
    have hbefore : Withdrawn (s.withCommands rest) q := by
      apply effect.withdrawn (hsound.lostClosed queue) _ _ h
      · intro heq
        rw [heq] at hheader
        exact absurd hheader (by decide)
      · intro heq
        rw [heq] at hheader
        exact absurd hheader (by decide)
    refine ⟨hbefore, ?_⟩
    rintro ⟨-, command', hhead, hreturns, hsender⟩
    have hhead : s.commandQueue.head? = some command' := hhead
    rw [queue] at hhead
    obtain rfl := Option.some.inj hhead
    have hplaying := effect.inGame_of_reconnection hreturns hsender listed left
    rw [h.2.2.2.1] at hplaying
    cases hplaying

/-- Nobody who is withdrawn after a step from `s` to `t` had a request with `p`. -/
def Releases (s t : State) (p : PlayerRef) : Prop :=
  ∀ q ∈ t.players, Withdrawn t q → ¬ Parties s q p

/-- The players who leave had no request with anybody who is withdrawn afterwards. -/
theorem LeavesNobody.releases {s t : State} {a : Action} (h : LeavesNobody s a)
    (hsound : Sound s) (exec : System.exec s a = .ok t) {p : PlayerRef} (listed : p ∈ s.players)
    (left : p ∉ t.players) : Releases s t p := by
  intro q hq hwithdrawn
  have hleaving := leaving_iff hsound.registry exec listed left
  obtain ⟨hbefore, hreturns⟩ := withdrawn_of_leaving hsound exec listed left hwithdrawn
  exact h p ((hleaving p listed).mp left) q hbefore.1
    (fun hmem => (hleaving q hbefore.1).mpr hmem hq) hbefore hreturns

namespace Pending

variable {s t : State}

theorem initial : Pending State.initial := by
  intro p hp
  cases hp.1

/-- Nobody withdraws, and no request of a withdrawn player is lost. -/
theorem keep (h : Pending s) (withdrawn : ∀ p, Withdrawn t p → Withdrawn s p)
    (parties : ∀ p other, Withdrawn t p → other ∈ t.players → Parties s p other →
      Parties t p other)
    (leaving : ∀ p ∈ s.players, p ∉ t.players → Releases s t p) : Pending t := by
  intro p hp
  obtain ⟨other, hlisted, hparties⟩ := h p (withdrawn p hp)
  by_cases hstays : other ∈ t.players
  · exact ⟨other, hstays, parties p other hp hstays hparties⟩
  · exact absurd hparties (leaving other hlisted hstays p hp.1 hp)

/-- The pointers are the same and nobody withdraws. -/
theorem keep_of_same (h : Pending s) (withdrawn : ∀ p, Withdrawn t p → Withdrawn s p)
    (askedBy : ∀ p, (t.player p).askedForJoiningBy = (s.player p).askedForJoiningBy)
    (leaving : ∀ p ∈ s.players, p ∉ t.players → Releases s t p) : Pending t := by
  apply h.keep withdrawn _ leaving
  intro p other _ _ hparties
  rwa [Parties, Asks, Asks, askedBy, askedBy]

theorem same (h : Pending s) (same : SameWorld s t) : Pending t := by
  apply h.keep_of_same
  · intro p hp
    exact hp.of_sameWorld same
  · intro p
    obtain ⟨n, hn⟩ := same.player p
    rw [hn]
  · intro p hp hleft
    exact absurd (same.players ▸ hp) hleft

/-- A new player without a name is not withdrawn, and nobody has a request with it. -/
theorem addPlayer (h : Pending s) (hreg : Registry s) (fd : Int) :
    Pending (Server.addPlayer s fd false) := by
  have hold : ∀ p, p ≠ s.playerHeap.next →
      (Server.addPlayer s fd false).player p = s.player p := by
    intro p hne
    rw [Server.player_addPlayer, if_neg hne]
  intro p hp
  by_cases hnew : p = s.playerHeap.next
  · have hname := hp.2.2.1
    rw [Server.player_addPlayer, if_pos hnew] at hname
    cases hname
  · have hlisted : p ∈ s.players := by
      apply (List.mem_append.mp hp.1).resolve_right
      rwa [List.mem_singleton]
    have hbefore : Withdrawn s p := hp.of_eq (fun _ => hlisted) (hold p hnew)
    obtain ⟨other, hother, hparties⟩ := h p hbefore
    have hne : other ≠ s.playerHeap.next := Nat.ne_of_lt (hreg.playersAllocated other hother)
    refine ⟨other, List.mem_append_left _ hother, ?_⟩
    rwa [Parties, Asks, Asks, hold p hnew, hold other hne]

theorem disconnected {fd : Int} (h : Pending s) (closed : Disconnection s fd t)
    (leaving : ∀ p ∈ s.players, p ∉ t.players → Releases s t p) : Pending t := by
  refine h.keep_of_same (fun p hp => closed.withdrawn hp) ?_ leaving
  cases closed <;> simp

/-- A request is answered and neither of its players is withdrawn afterwards. -/
theorem answered (h : Pending s) {asking asked : PlayerRef} (asks : Asks s asking asked)
    (players : t.players = s.players)
    (askedBy : ∀ p ≠ asked, (t.player p).askedForJoiningBy = (s.player p).askedForJoiningBy)
    (settled : ∀ p, Withdrawn t p → p ≠ asking ∧ p ≠ asked ∧ Withdrawn s p) : Pending t := by
  apply h.keep
  · intro p hp
    exact (settled p hp).2.2
  · intro p other hp _ hparties
    obtain ⟨hasking, hasked, -⟩ := settled p hp
    rcases hparties with hparties | hparties
    · -- the request that was answered is not one of the player's own
      have hother : other ≠ asked := by
        rintro rfl
        rw [Asks, asks] at hparties
        exact hasking (Option.some.inj hparties).symm
      exact Or.inl (by rwa [Asks, askedBy other hother])
    · exact Or.inr (by rwa [Asks, askedBy p hasked])
  · intro p hp hleft
    exact absurd (players ▸ hp) hleft

theorem started (h : Pending s) {asking asked : PlayerRef} (asks : Asks s asking asked)
    (first second : OutPacket) :
    Pending (((gameStarted s asking asked).pushOut first).pushOut second) := by
  refine h.answered asks rfl (fun p hne => ?_) fun p hp => ?_
  · simp [gameStarted, clearRequest, State.player_modifyPlayer_of_ne _ _ hne]
  · have hfree := hp.2.2.2.1
    simp only [State.player_pushOut, inGame_gameStarted] at hfree
    split at hfree
    · cases hfree
    · rename_i hne
      rw [not_or] at hne
      refine ⟨hne.1, hne.2, hp.of_same (fun hlisted => hlisted) ?_ ?_ ?_ ?_⟩
      all_goals simp [gameStarted, clearRequest, hne.1, hne.2]

theorem declined (h : Pending s) {asking asked : PlayerRef} (asks : Asks s asking asked)
    (answers : List OutPacket) :
    Pending ((((clearRequest s asked).pushAll answers).modifyPlayer asking
      (Player.setAvailible true)).modifyPlayer asked (Player.setAvailible true)) := by
  refine h.answered asks rfl (fun p hne => ?_) fun p hp => withdrawn_of_declined hp
  simp [clearRequest, State.player_modifyPlayer_of_ne _ _ hne]

/-- A listed player asks a listed one whom no other withdrawn player has asked. -/
theorem asked (h : Pending s) {asking oponent : PlayerRef} (listed : asking ∈ s.players)
    (listedOponent : oponent ∈ s.players)
    (alone : ∀ q ∈ s.players, Withdrawn s q → Asks s q oponent → q = asking)
    (players : t.players = s.players) (asks : Asks t asking oponent)
    (askedBy : ∀ q ≠ oponent, (t.player q).askedForJoiningBy = (s.player q).askedForJoiningBy)
    (others : ∀ q, q ≠ asking → q ≠ oponent → t.player q = s.player q) : Pending t := by
  intro q hq
  -- the two players of the new request are parties to it
  by_cases hoponent : q = oponent
  · subst hoponent
    exact ⟨asking, players ▸ listed, Or.inr asks⟩
  by_cases hasking : q = asking
  · subst hasking
    exact ⟨oponent, players ▸ listedOponent, Or.inl asks⟩
  · have hbefore : Withdrawn s q :=
      hq.of_eq (fun hlisted => players ▸ hlisted) (others q hasking hoponent)
    obtain ⟨other, hother, hparties⟩ := h q hbefore
    refine ⟨other, players ▸ hother, ?_⟩
    rcases hparties with hparties | hparties
    · -- nobody else waited for the player who is asked now
      have hne : other ≠ oponent := by
        rintro rfl
        exact hasking (alone q hbefore.1 hbefore hparties)
      exact Or.inl (by rwa [Asks, askedBy other hne])
    · exact Or.inr (by rwa [Asks, askedBy q hoponent])

theorem handled {mess : Message} (h : Pending s) (effect : Effect s mess t)
    (lost : LostClosed s mess)
    (alone : mess.header = H_C_JOIN_PLAYER → ∀ p ∈ mess.player, ∀ name ∈ mess.firstName,
      ∀ oponent ∈ Server.getPlayerByName s name, isJoinable s oponent = true →
        p ∈ s.players ∧ ∀ q ∈ s.players, Withdrawn s q → Asks s q oponent → q = p)
    (accepts : mess.header = H_C_ACCEPT_JOIN → ∀ asked ∈ mess.player, ∀ asking,
      Asks s asking asked →
        ∃ first second, t = ((gameStarted s asking asked).pushOut first).pushOut second)
    (leaving : ∀ p ∈ s.players, p ∉ t.players → Releases s t p) : Pending t := by
  have hwithdrawn := fun request answer q => effect.withdrawn lost request answer (q := q)
  cases effect with
  | @asked asking oponent name _ _ header sender payload found joinable =>
    obtain ⟨hasking, honly⟩ := alone header asking sender name
      (payloadString_eq_ok_iff.mp payload) oponent found joinable
    refine h.asked hasking (List.mem_of_find?_eq_some found) honly ?_ ?_ ?_ ?_
    · rfl
    · simp [Asks]
    · intro q hne
      simp [State.player_modifyPlayer_of_ne _ _ hne]
    · intro q hq hoponent
      simp only [State.player_pushOut, State.player_modifyPlayer_of_ne _ _ hoponent,
        State.player_modifyPlayer_of_ne _ _ hq]
  | started _ _ askedBy => exact h.started askedBy _ _
  | @gone asking asked _ header sender askedBy =>
    obtain ⟨first, second, hstarted⟩ := accepts header asked sender asking askedBy
    rw [hstarted]
    exact h.started askedBy first second
  | declined _ _ askedBy => exact h.declined askedBy _
  | disconnected _ _ _ closed => exact h.disconnected closed leaving
  | named header | reconnected header | won header | ended header | endedLost header
  | bothLost header | missed header =>
    refine h.keep_of_same (hwithdrawn ?_ ?_) ?_ leaving
    · rw [header]; decide
    · rw [header]; decide
    · simp [handedOver, takeOverName, freeBoth]
  | _ =>
    refine h.keep_of_same (fun q hq => ?_) (fun _ => rfl) leaving
    exact hq.of_eq (fun hlisted => hlisted) rfl

end Pending

/-! ## Nobody is stuck -/

theorem AcceptsWaiting.starts {s t : State} (h : AcceptsWaiting s .runCommand)
    {command : Command} {rest : List Command} (queue : s.commandQueue = command :: rest)
    (header : command.message.header = H_C_ACCEPT_JOIN) {asking asked : PlayerRef}
    (sender : command.message.player = some asked) (asks : Asks s asking asked)
    (exec : System.exec s .runCommand = .ok t) :
    ∃ first second,
      t = ((gameStarted (s.withCommands rest) asking asked).pushOut first).pushOut second := by
  obtain ⟨hdistinct, hwaits⟩ := h rfl command (by rw [queue]; rfl) header asked sender asking asks
  rw [exec_runCommand queue, dispatch_accept header] at exec
  exact acceptJoin_starts sender asks hdistinct hwaits exec

theorem pending_of_requestsAnswered {s : State}
    (h : System.ReachableUnder RequestsAnswered s) : Pending s := by
  apply guarded_invariant h (fun t ht => sound_of_reachable ht.reachable) Pending.initial
  intro t u a hsound hpending hguard hexec hstep
  obtain ⟨hnameless, halone, haccepts, hleaves⟩ := hguard
  have hleaving : ∀ p ∈ t.players, p ∉ u.players → Releases t u p :=
    fun p => hleaves.releases hsound hexec
  cases hstep with
  | quiet hquiet => exact hpending.same hquiet.toSameWorld
  | @accepted fd nameSet =>
    obtain rfl : nameSet = false := hnameless
    exact hpending.addPlayer hsound.registry fd
  | @closed _ v _ _ hquiet hclosed =>
    apply (hpending.same hquiet.toSameWorld).disconnected hclosed
    intro p hp hleft q hq hwithdrawn hparties
    apply hleaving p (hquiet.players ▸ hp) hleft q hq hwithdrawn
    -- counting an invalid packet moves no pointer
    obtain ⟨_, hp'⟩ := hquiet.player p
    obtain ⟨_, hq'⟩ := hquiet.player q
    rwa [Parties, Asks, Asks, hp', hq'] at hparties
  | @handled command rest _ hqueue heffect =>
    have hpop : Pending (t.withCommands rest) :=
      hpending.same (sameWorld_withCommands t rest)
    refine hpop.handled heffect (hsound.lostClosed hqueue) ?_ ?_ hleaving
    · exact halone rfl command (by rw [hqueue]; rfl)
    · intro hheader asked hsender asking hasks
      exact haccepts.starts hqueue hheader hsender hasks hexec

/-- While no command is queued, every withdrawn player has a pending request with a listed one;
    and when a request is answered or abandoned, neither of its players is withdrawn. -/
def NobodyStuck (Guard : State → Action → Prop) (s : State) : Prop :=
  (s.commandQueue = [] → ∀ p, Withdrawn s p → ∃ other ∈ s.players, Parties s p other) ∧
    ∀ a t, System.Enabled s a → Guard s a → System.exec s a = .ok t →
      ∀ asking asked, Asks s asking asked → EndsRequest s a t asking asked →
        ∀ p, p = asking ∨ p = asked → ¬ Withdrawn t p

/-- **Nobody is stuck** in every run in which no request is abandoned, overwritten or accepted too
    late. -/
theorem nobody_is_stuck (s : State) (h : System.ReachableUnder RequestsAnswered s) :
    NobodyStuck RequestsAnswered s := by
  constructor
  · intro _
    exact pending_of_requestsAnswered h
  · intro a t _ hguard hexec asking asked hasks hends p hp hwithdrawn
    rcases hends with ⟨rfl, command, hhead, hsender, hheader⟩ | ⟨x, hlisted, hleft, hx⟩
    · obtain ⟨rest, hqueue⟩ := List.head?_eq_some_iff.mp hhead
      rcases hheader with hheader | hheader
      · -- both are in the game that starts
        obtain ⟨first, second, rfl⟩ :=
          hguard.2.2.1.starts hqueue hheader hsender hasks hexec
        have hfree := hwithdrawn.2.2.2.1
        simp [hp] at hfree
      · rw [exec_runCommand hqueue, dispatch_decline hheader] at hexec
        have havailible := declineJoin_frees (s := s.withCommands rest) hsender hasks hexec
        have hclosed := hwithdrawn.2.2.2.2
        rcases hp with rfl | rfl
        · rw [havailible.1] at hclosed
          cases hclosed
        · rw [havailible.2] at hclosed
          cases hclosed
    · -- one of the two left, and the other one is not withdrawn
      have hnobody := hguard.2.2.2.releases (sound_of_reachable h.reachable) hexec hlisted hleft p
        hwithdrawn.1 hwithdrawn
      have hother : p ≠ x := fun heq => hleft (heq ▸ hwithdrawn.1)
      apply hnobody
      rcases hp with rfl | rfl
      · rcases hx with rfl | rfl
        · exact absurd rfl hother
        · exact Or.inl hasks
      · rcases hx with rfl | rfl
        · exact Or.inr hasks
        · exact absurd rfl hother

/-- `A` has asked `B` for a game. -/
def askOnce : List Action := System.registerTwo ++ System.deliver 5 H_C_JOIN_PLAYER [.str [66]]

theorem nobody_is_stuck_asked :
    Withdrawn (System.machine.after RequestsAnswered askOnce) 0 ∧
      NobodyStuck RequestsAnswered (System.machine.after RequestsAnswered askOnce) :=
  ⟨by decide +kernel, nobody_is_stuck _ (Machine.reachableUnder_after _)⟩

/-- `A` asks `B` for a game and leaves; `B` accepts. -/
def acceptTooLate : List Action :=
  askOnce ++ [.peerClosed 5] ++ System.deliver 6 H_C_ACCEPT_JOIN []

/-- In some run a connected player can neither play nor be asked. -/
theorem somebody_is_stuck :
    ¬ ∀ s, System.Reachable s → NobodyStuck Machine.Unguarded s := by
  intro h
  obtain ⟨other, hlisted, hparties⟩ :=
    (h _ (System.reachable_after acceptTooLate)).1 (by decide +kernel) 1 (by decide +kernel)
  -- `B` is the only one listed, and it has no request with itself
  have honly : ∀ other ∈ (System.after acceptTooLate).players,
      ¬ Parties (System.after acceptTooLate) 1 other := by decide +kernel
  exact honly other hlisted hparties

end UpsServer
