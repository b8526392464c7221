import UpsServer.Network.PlayerList
import UpsServer.Network.References
import UpsServer.Network.Requests

/-!
# Who can be challenged

The list that a client is sent and the test that `proceedPlayerJoining` makes are two ways to say
who can be challenged. They differ for the requester itself and for players without a name, who
are in the list of the server as well.
-/

namespace UpsServer

open Framework CommandManager Sender

/-! ## The test -/

/-- `proceedPlayerJoining` finds a player of this name and takes it for joinable. -/
def Acknowledged (s : State) (name : ByteString) : Prop :=
  ∃ p, Server.getPlayerByName s name = some p ∧ isJoinable s p = true

instance (s : State) (name : ByteString) : Decidable (Acknowledged s name) :=
  decidable_of_iff (∃ p ∈ Server.getPlayerByName s name, isJoinable s p = true) Iff.rfl

/-- The command is answered with `H_S_ACK` exactly when it is acknowledged. -/
theorem proceedPlayerJoining_announces_iff {s t : State} {mess : Message} {name : ByteString}
    (payload : mess.firstName = some name) (h : proceedPlayerJoining s mess = .ok t) :
    Announces s t H_S_ACK ↔ Acknowledged s name := by
  unfold proceedPlayerJoining at h
  rw [payloadString_eq_ok_iff.mpr payload, ok_bind] at h
  have hrefused : refuse s mess = .ok t → ¬ Announces s t H_S_ACK := by
    intro hrefuse hannounced
    obtain ⟨_, packet, -, -, hmessage, rfl⟩ := registerMessage_carries hrefuse
    have hheader : packet.message.header = H_S_ACK := hannounced.singleton rfl
    rw [hmessage, header_compose] at hheader
    exact absurd hheader (by decide)
  cases hfound : Server.getPlayerByName s name with
  | none =>
    rw [hfound] at h
    simp [Acknowledged, hfound, hrefused h]
  | some oponent =>
    rw [hfound] at h
    by_cases hjoinable : isJoinable s oponent = true
    · -- the acknowledgement is the first of two messages
      simp only [hjoinable, if_true] at h
      obtain ⟨_, hack, h⟩ := bind_eq_ok_iff.mp h
      obtain ⟨_, ack, -, -, hmessage, rfl⟩ := registerMessage_carries hack
      obtain ⟨requesting, -, h⟩ := bind_eq_ok_iff.mp h
      unfold askForGame at h
      obtain ⟨_, hrequest, h⟩ := bind_eq_ok_iff.mp h
      obtain ⟨_, request, -, -, -, rfl⟩ := registerMessage_carries hrequest
      obtain rfl := Except.ok.inj h
      refine ⟨fun _ => ⟨oponent, hfound, hjoinable⟩, fun _ => ?_⟩
      refine ⟨[ack, request], List.append_assoc s.pQueue [ack] [request], ack,
        List.mem_cons_self, ?_⟩
      rw [hmessage, header_compose]
    · simp only [hjoinable] at h
      simp [Acknowledged, hfound, hjoinable, hrefused h]

/-- Whoever has a name that is not empty also has the flag. -/
def FlaggedNames (s : State) : Prop := ∀ p, (s.player p).name ≠ [] → (s.player p).nameSet = true

namespace FlaggedNames

variable {s t : State}

theorem keep (h : FlaggedNames s) (name : ∀ p, (t.player p).name = (s.player p).name)
    (nameSet : ∀ p, (t.player p).nameSet = (s.player p).nameSet) : FlaggedNames t := by
  intro p hp
  rw [nameSet]
  exact h p (name p ▸ hp)

/-- `setName` sets the name and the flag. -/
theorem setName (h : FlaggedNames s) (p : PlayerRef) (username : ByteString) :
    FlaggedNames (s.modifyPlayer p (Player.setName username)) := by
  intro q hq
  rw [State.player_modifyPlayer] at hq ⊢
  split at hq
  · rename_i heq
    rw [if_pos heq]
    rfl
  · rename_i hne
    rw [if_neg hne]
    exact h q hq

theorem addPlayer (h : FlaggedNames s) (fd : Int) (nameSet : Bool) :
    FlaggedNames (Server.addPlayer s fd nameSet) := by
  intro p hp
  rw [Server.player_addPlayer] at hp ⊢
  split at hp
  · exact absurd rfl hp
  · rename_i hne
    rw [if_neg hne]
    exact h p hp

theorem disconnected {fd : Int} (h : FlaggedNames s) (closed : Disconnection s fd t) :
    FlaggedNames t := by
  cases closed with
  | left => exact h.keep (by simp) (by simp)
  | stays => exact h.keep (by simp) (by simp)

theorem handled {mess : Message} (h : FlaggedNames s) (effect : Effect s mess t) :
    FlaggedNames t := by
  cases effect with
  | disconnected _ _ _ closed => exact h.disconnected closed
  | @named p username => exact (h.setName p username).keep (by simp) (by simp)
  | @reconnected newP oldP _ _ game =>
    exact (h.setName newP (s.player oldP).name).keep (by simp [handedOver, takeOverName])
      (by simp [handedOver, takeOverName])
  | _ => exact h.keep (by simp [clearRequest, freeBoth]) (by simp [gameStarted, clearRequest])

end FlaggedNames

theorem SameWorld.nameSet {s t : State} (h : SameWorld s t) (p : PlayerRef) :
    (t.player p).nameSet = (s.player p).nameSet := by
  obtain ⟨n, hn⟩ := h.player p
  rw [hn]

theorem flaggedNames_of_reachable {s : State} (h : System.Reachable s) : FlaggedNames s :=
  same_world_invariant h (fun _ _ => trivial) (fun _ _ _ _ => trivial)
    (fun _ hp => absurd rfl hp)
    (fun _ _ hsame hflagged => hflagged.keep hsame.name hsame.nameSet)
    (fun _ fd nameSet _ hflagged _ => hflagged.addPlayer fd nameSet)
    (fun _ _ _ _ hflagged hclosed => hflagged.disconnected hclosed)
    fun _ _ _ _ hflagged heffect => hflagged.handled heffect

/-- What puts a name on the list, in terms of the test that `proceedPlayerJoining` makes. -/
theorem mem_offeredList_iff {s : State} {requester : PlayerRef} {name : ByteString} :
    name ∈ offeredList s requester ↔
      name ≠ (s.player requester).name ∧ ∃ p ∈ s.players, (s.player p).name = name ∧
        isJoinable s p = true ∧ (s.player p).hasName = true := by
  have hoffered : ∀ p, isOffered s requester p = true ↔
      (isJoinable s p = true ∧ (s.player p).hasName = true) ∧
        (s.player p).name ≠ (s.player requester).name := by
    intro p
    simp only [isOffered, isJoinable, Bool.and_eq_true, Bool.not_eq_true', beq_eq_false_iff_ne]
    tauto
  simp only [offeredList, List.mem_map, List.mem_filter, hoffered]
  apply Iff.intro
  · intro h
    obtain ⟨p, ⟨hlisted, ⟨hjoinable, hnamed⟩, hne⟩, rfl⟩ := h
    exact ⟨hne, p, hlisted, rfl, hjoinable, hnamed⟩
  · intro h
    obtain ⟨hne, p, hlisted, rfl, hjoinable, hnamed⟩ := h
    exact ⟨p, ⟨hlisted, ⟨hjoinable, hnamed⟩, hne⟩, rfl⟩

/-- The two ways in which the list and the test can differ do not occur: the name is not the
    requester's own, found under it and joinable; and if it is the empty name, the first entry
    without a name is joinable exactly when some such entry with the flag is. -/
@[mk_iff] structure ListedAsJoined (s : State) (requester : PlayerRef) (name : ByteString) :
    Prop where
  self : name = (s.player requester).name →
    ∀ p ∈ Server.getPlayerByName s name, isJoinable s p = false
  unnamed : name = [] → (s.player requester).name ≠ [] → ∀ p ∈ Server.getPlayerByName s [],
    (isJoinable s p = true ↔ ∃ q ∈ s.players, (s.player q).name = [] ∧
      isJoinable s q = true ∧ (s.player q).hasName = true)

/-- A name that is neither empty nor the requester's is listed exactly when it is joinable. -/
theorem mem_offeredList_iff_acknowledged {s : State} (hunique : UniqueNames s)
    (hflagged : FlaggedNames s) {requester : PlayerRef} {name : ByteString} (hempty : name ≠ [])
    (hother : name ≠ (s.player requester).name) :
    name ∈ offeredList s requester ↔ Acknowledged s name := by
  rw [mem_offeredList_iff]
  apply Iff.intro
  · intro h
    obtain ⟨-, p, hlisted, hname, hjoinable, -⟩ := h
    -- the first entry of the name is the only one
    cases hfound : Server.getPlayerByName s name with
    | none =>
      have hnone := List.find?_eq_none.mp hfound p hlisted
      simp [hname] at hnone
    | some q =>
      have hq_listed : q ∈ s.players := List.mem_of_find?_eq_some hfound
      have hq_name : (s.player q).name = name := by simpa using List.find?_some hfound
      obtain rfl : q = p := hunique.eq_of_name hq_listed hlisted (hq_name.trans hname.symm)
        (hq_name ▸ hempty)
      exact ⟨q, hfound, hjoinable⟩
  · intro h
    obtain ⟨p, hfound, hjoinable⟩ := h
    have hname : (s.player p).name = name := by simpa using List.find?_some hfound
    refine ⟨hother, p, List.mem_of_find?_eq_some hfound, hname, hjoinable, ?_⟩
    exact hflagged p (hname ▸ hempty)

/-! ## Players without a name -/

/-- The player is available, lost, in a request or seated. -/
def Engaged (s : State) (p : PlayerRef) : Prop :=
  (s.player p).availible = true ∨ (s.player p).lost = true ∨ (∃ q, Asks s p q ∨ Asks s q p) ∨
    s.Seated p

/-- Whoever is seated after a command was seated before, takes over the name of a lost player with
    its seat, or is one of the players of an answered request. -/
theorem Effect.seated {s t : State} {mess : Message} (effect : Effect s mess t) {p : PlayerRef}
    (h : t.Seated p) :
    s.Seated p ∨ (∃ oldP, (s.player oldP).lost = true ∧
      (t.player p).name = (s.player oldP).name) ∨ ∃ q, Asks s p q ∨ Asks s q p := by
  have same : (∀ g ∈ t.games, g ∈ s.games) → (∀ g, (t.game g).p1 = (s.game g).p1) →
      (∀ g, (t.game g).p2 = (s.game g).p2) → s.Seated p := by
    intro games p1 p2
    obtain ⟨g, hg, hseat⟩ := h
    rw [Game.Seats, p1, p2] at hseat
    exact ⟨g, games g hg, hseat⟩
  cases effect with
  | disconnected _ _ _ closed => cases closed <;> exact Or.inl h
  | @reconnected newP oldP _ _ game _ _ _ players _ _ _ _ lost =>
    -- the sender has the name of the lost player by now; all the other seats stay
    by_cases hnew : p = newP
    · exact Or.inr (Or.inl ⟨oldP, lost, by simp [handedOver, hnew]⟩)
    · left
      obtain ⟨g, hg, hseat⟩ := h
      obtain ⟨f, hf, hf'⟩ := takeOverSeat_eq (takeOverName s newP oldP) newP game
      refine ⟨g, by simpa using hg, ?_⟩
      -- the seat of the sender is not the seat of `p`
      simp only [State.game_withPlayers, State.game_pushOut, handedOver, hf,
        State.game_modifyGame, game_takeOverName] at hseat
      split at hseat
      · rename_i heq
        subst heq
        rcases hf' with rfl | rfl
        · exact hseat.imp (fun h' => absurd h'.symm hnew) id
        · exact hseat.imp id fun h' => absurd h'.symm hnew
      · exact hseat
  | @started asking asked _ _ _ _ askedBy =>
    obtain ⟨g, hg, hseat⟩ := h
    rw [State.game_pushOut, State.game_pushOut, game_gameStarted] at hseat
    split at hseat
    · -- the new game seats the two of the request
      right
      right
      rcases hseat with rfl | rfl
      · exact ⟨asked, Or.inl askedBy⟩
      · exact ⟨asking, Or.inr askedBy⟩
    · rename_i hne
      have hmem : g ∈ s.games ++ [s.gameHeap.next] := hg
      exact Or.inl ⟨g, (List.mem_append.mp hmem).resolve_right (by simpa using hne), hseat⟩
  | won | ended | endedLost | bothLost =>
    exact Or.inl (same (fun g hg => List.eraseP_sublist.subset hg) (by simp) (by simp))
  | moved => exact Or.inl (same (fun g hg => hg) (by simp) (by simp))
  | _ => exact Or.inl h

/-- The condition on a step: nobody registers under the empty name, and requests come from players
    with a name. -/
def NamesFirst (s : State) (a : Action) : Prop :=
  a = .runCommand → ∀ command ∈ s.commandQueue.head?,
    (command.message.header = H_C_NEW_PL → command.message.firstName ≠ some []) ∧
      (command.message.header = H_C_JOIN_PLAYER →
        ∀ p ∈ command.message.player, (s.player p).name ≠ [])

instance (s : State) (a : Action) : Decidable (NamesFirst s a) :=
  inferInstanceAs (Decidable (_ → ∀ command ∈ s.commandQueue.head?,
    (_ → _) ∧ (_ → ∀ p ∈ command.message.player, _)))

/-- Whoever is engaged has a name. -/
def EngagedNamed (s : State) : Prop := ∀ p, Engaged s p → (s.player p).name ≠ []

namespace EngagedNamed

variable {s t : State}

theorem initial : EngagedNamed State.initial := by
  rintro p (h | h | ⟨q, h | h⟩ | ⟨g, hg, -⟩)
  · cases h
  · cases h
  · cases h
  · cases h
  · exact absurd hg List.not_mem_nil

/-- Names stay, and whoever becomes engaged has one. -/
theorem keep (h : EngagedNamed s)
    (name : ∀ p, (s.player p).name ≠ [] → (t.player p).name ≠ [])
    (availible : ∀ p, (t.player p).availible = true →
      (s.player p).availible = true ∨ (t.player p).name ≠ [])
    (lost : ∀ p, (t.player p).lost = true → (s.player p).lost = true ∨ (t.player p).name ≠ [])
    (asks : ∀ p q, Asks t p q → Asks s p q ∨ (t.player p).name ≠ [] ∧ (t.player q).name ≠ [])
    (seats : ∀ p, t.Seated p → s.Seated p ∨ (t.player p).name ≠ []) : EngagedNamed t := by
  have hkeep : ∀ p, Engaged s p ∨ (t.player p).name ≠ [] → (t.player p).name ≠ [] := by
    rintro p (hbefore | hnamed)
    · exact name p (h p hbefore)
    · exact hnamed
  rintro p (hp | hp | ⟨q, hpq | hqp⟩ | hp)
  · exact hkeep p ((availible p hp).imp_left fun hbefore => Or.inl hbefore)
  · exact hkeep p ((lost p hp).imp_left fun hbefore => Or.inr (Or.inl hbefore))
  · exact hkeep p ((asks p q hpq).imp (fun hbefore => Or.inr (Or.inr (Or.inl ⟨q, Or.inl hbefore⟩)))
      And.left)
  · exact hkeep p ((asks q p hqp).imp (fun hbefore => Or.inr (Or.inr (Or.inl ⟨q, Or.inr hbefore⟩)))
      And.right)
  · exact hkeep p ((seats p hp).imp_left fun hbefore => Or.inr (Or.inr (Or.inr hbefore)))

/-- Names and flags are the same, and nobody asks or is seated anew. -/
theorem keep_of_same (h : EngagedNamed s) (fewer : FewerRequests s t)
    (name : ∀ p, (t.player p).name = (s.player p).name)
    (availible : ∀ p, (t.player p).availible = (s.player p).availible)
    (lost : ∀ p, (t.player p).lost = (s.player p).lost)
    (seats : ∀ p, t.Seated p → s.Seated p) : EngagedNamed t :=
  h.keep (fun p hp => by rwa [name]) (fun p hp => Or.inl (availible p ▸ hp))
    (fun p hp => Or.inl (lost p ▸ hp)) (fun p q hpq => Or.inl (fewer.asks p q hpq))
    fun p hp => Or.inl (seats p hp)

theorem sameWorld (h : EngagedNamed s) (same : SameWorld s t) : EngagedNamed t := by
  refine h.keep_of_same (.of_sameWorld same) same.name (fun p => ?_) same.lost
    fun p ⟨g, hg, hseat⟩ => ?_
  · obtain ⟨n, hn⟩ := same.player p
    rw [hn]
  · rw [same.games] at hg
    rw [same.game] at hseat
    exact ⟨g, hg, hseat⟩

/-- A new player is not engaged. -/
theorem addPlayer (h : EngagedNamed s) (hpointers : Pointers s) (hreg : Registry s) (fd : Int)
    (nameSet : Bool) : EngagedNamed (Server.addPlayer s fd nameSet) := by
  have hseated : ∀ p, s.Seated p → p < s.playerHeap.next := fun p ⟨g, hg, hseat⟩ =>
    hpointers.seats g (hreg.gamesAllocated g hg) p hseat
  intro p hp
  by_cases hnew : p = s.playerHeap.next
  · subst hnew
    rw [Engaged, Server.player_addPlayer, if_pos rfl] at hp
    rcases hp with hp | hp | ⟨q, hp | hp⟩ | hp
    · cases hp
    · cases hp
    · exact absurd (hpointers.askedBy q _ hp.of_addPlayer.1) (Nat.lt_irrefl _)
    · exact absurd rfl hp.of_addPlayer.2
    · exact absurd (hseated _ hp) (Nat.lt_irrefl _)
  · rw [Engaged, Server.player_addPlayer, if_neg hnew] at hp
    rw [Server.player_addPlayer, if_neg hnew]
    apply h p
    rcases hp with hp | hp | ⟨q, hp | hp⟩ | hp
    · exact Or.inl hp
    · exact Or.inr (Or.inl hp)
    · exact Or.inr (Or.inr (Or.inl ⟨q, Or.inl hp.of_addPlayer.1⟩))
    · exact Or.inr (Or.inr (Or.inl ⟨q, Or.inr hp.of_addPlayer.1⟩))
    · exact Or.inr (Or.inr (Or.inr hp))

theorem disconnected {fd : Int} (h : EngagedNamed s) (closed : Disconnection s fd t) :
    EngagedNamed t := by
  have hfewer := FewerRequests.of_disconnection closed
  cases closed with
  | left | stays => exact h.keep_of_same hfewer (by simp) (by simp) (by simp) fun p hp => hp

/-- Whose name leads to a game has a name. -/
theorem of_lookup (h : EngagedNamed s) {p : PlayerRef} {g : GameRef}
    (playing : GameManager.getGameByPlayer s p = some g) :
    (s.player p).name ≠ [] ∧ (s.player (GameManager.otherSeat s g p)).name ≠ [] := by
  obtain ⟨hg, hname⟩ := GameManager.getGameByPlayer_eq_some playing
  have hseats : ∀ q, (s.game g).Seats q → (s.player q).name ≠ [] := fun q hseat =>
    h q (Or.inr (Or.inr (Or.inr ⟨g, hg, hseat⟩)))
  refine ⟨?_, hseats _ ?_⟩
  · simp only [GameManager.seatsName, Bool.or_eq_true, beq_iff_eq] at hname
    rcases hname with hname | hname
    · rw [← hname]
      exact hseats _ (Or.inl rfl)
    · rw [← hname]
      exact hseats _ (Or.inr rfl)
  · unfold GameManager.otherSeat
    split
    · exact Or.inr rfl
    · exact Or.inl rfl

/-- The two of a request have a name. -/
theorem of_asks (h : EngagedNamed s) {asking asked : PlayerRef} (asks : Asks s asking asked) :
    (s.player asking).name ≠ [] ∧ (s.player asked).name ≠ [] :=
  ⟨h asking (Or.inr (Or.inr (Or.inl ⟨asked, Or.inl asks⟩))),
    h asked (Or.inr (Or.inr (Or.inl ⟨asking, Or.inr asks⟩)))⟩

/-- A joinable player is available. -/
theorem of_joinable (h : EngagedNamed s) {p : PlayerRef} (joinable : isJoinable s p = true) :
    (s.player p).name ≠ [] := by
  simp only [isJoinable, Bool.and_eq_true] at joinable
  exact h p (Or.inl joinable.1.1)

/-- Whoever has a name keeps one. -/
theorem name_ne_nil {mess : Message} (h : EngagedNamed s) (effect : Effect s mess t)
    (registers : mess.header = H_C_NEW_PL → mess.firstName ≠ some []) (p : PlayerRef)
    (named : (s.player p).name ≠ []) : (t.player p).name ≠ [] := by
  cases effect with
  | disconnected _ _ _ closed => cases closed <;> simpa using named
  | @named q username _ header sender payload =>
    have husername : username ≠ [] := by
      rintro rfl
      exact registers header (payloadString_eq_ok_iff.mp payload)
    by_cases heq : p = q
    · simpa [heq] using husername
    · simpa [heq] using named
  | @reconnected newP oldP _ _ _ _ _ _ _ _ _ _ _ lost =>
    -- the name of a lost player
    have holdP : (s.player oldP).name ≠ [] := h oldP (Or.inr (Or.inl lost))
    by_cases heq : p = newP
    · simpa [heq] using holdP
    · simpa [heq] using named
  | gone | declined => simpa [clearRequest] using named
  | _ => simpa using named

/-- Those who become available register, were in a request or leave a game. -/
theorem availible_or_named {mess : Message} (h : EngagedNamed s) (effect : Effect s mess t)
    (registers : mess.header = H_C_NEW_PL → mess.firstName ≠ some []) (p : PlayerRef)
    (availible : (t.player p).availible = true) :
    (s.player p).availible = true ∨ (t.player p).name ≠ [] := by
  have hname := h.name_ne_nil effect registers p
  cases effect with
  | disconnected _ _ _ closed => exact Or.inl (by cases closed <;> simpa using availible)
  | @named q username _ header sender payload =>
    by_cases heq : p = q
    · right
      rintro hempty
      have husername : username = [] := by simpa [heq] using hempty
      exact registers header (husername ▸ payloadString_eq_ok_iff.mp payload)
    · exact Or.inl (by simpa [heq] using availible)
  | @reconnected newP =>
    by_cases heq : p = newP
    · simp [handedOver, takeOverName, heq] at availible
    · exact Or.inl (by simpa [handedOver, takeOverName, heq] using availible)
  | @asked asking asked | @started asking asked | @gone asking asked =>
    -- nobody becomes available
    have hother : ¬ p = asked ∧ ¬ p = asking ∧ (s.player p).availible = true := by
      simpa [gameStarted, clearRequest] using availible
    exact Or.inl hother.2.2
  | @declined asking asked _ _ _ askedBy =>
    -- both become available, and both had a name
    obtain ⟨hasking, hasked⟩ := h.of_asks askedBy
    by_cases hfirst : p = asking
    · exact Or.inr (hname (hfirst ▸ hasking))
    · by_cases hsecond : p = asked
      · exact Or.inr (hname (hsecond ▸ hasked))
      · exact Or.inl (by simpa [clearRequest, hfirst, hsecond] using availible)
  | @won q oponent game _ _ _ _ _ _ playing against
  | @ended q oponent game _ _ _ _ playing against =>
    -- the sender's name is the one of a seat, although the sender may not be seated
    obtain ⟨hq, hoponent⟩ := h.of_lookup playing
    rw [← against] at hoponent
    by_cases hfirst : p = q
    · exact Or.inr (hname (hfirst ▸ hq))
    · by_cases hsecond : p = oponent
      · exact Or.inr (hname (hsecond ▸ hoponent))
      · exact Or.inl (by simpa [hfirst, hsecond] using availible)
  | @endedLost q _ _ _ _ _ _ playing =>
    by_cases heq : p = q
    · exact Or.inr (hname (heq ▸ (h.of_lookup playing).1))
    · exact Or.inl (by simpa [heq] using availible)
  | _ => exact Or.inl (by simpa using availible)

/-- Who is lost was seated at a game. -/
theorem lost_or_named {mess : Message} (h : EngagedNamed s) (effect : Effect s mess t)
    (p : PlayerRef) (lost : (t.player p).lost = true) :
    (s.player p).lost = true ∨ (s.player p).name ≠ [] := by
  cases effect with
  | disconnected _ _ _ closed => exact Or.inl (by cases closed <;> simpa using lost)
  | reconnected => exact Or.inl (by simpa [handedOver] using lost)
  | started | gone | declined =>
    exact Or.inl (by simpa [clearRequest] using lost)
  | @missed q _ _ _ _ _ playing | @bothLost q _ _ _ _ _ _ playing =>
    by_cases heq : p = q
    · exact Or.inr (heq ▸ (h.of_lookup playing).1)
    · exact Or.inl (by simpa [State.player_modifyPlayer_of_ne _ _ heq] using lost)
  | _ => exact Or.inl (by simpa using lost)

/-- Requests are made by players with a name, to players who are available. -/
theorem asks_or_named {mess : Message} (h : EngagedNamed s) (effect : Effect s mess t)
    (requests : mess.header = H_C_JOIN_PLAYER →
      ∀ p ∈ mess.player, (s.player p).name ≠ []) (p q : PlayerRef) (asks : Asks t p q) :
    Asks s p q ∨ (s.player p).name ≠ [] ∧ (s.player q).name ≠ [] := by
  rcases effect.requests with hfewer | ⟨asking, asked, hnew⟩
  · exact Or.inl (hfewer.asks p q asks)
  · rcases hnew.asks p q asks with ⟨rfl, rfl⟩ | hbefore
    · exact Or.inr ⟨requests hnew.header p hnew.sender, h.of_joinable hnew.joinable⟩
    · exact Or.inl hbefore

theorem handled {mess : Message} (h : EngagedNamed s) (effect : Effect s mess t)
    (registers : mess.header = H_C_NEW_PL → mess.firstName ≠ some [])
    (requests : mess.header = H_C_JOIN_PLAYER →
      ∀ p ∈ mess.player, (s.player p).name ≠ []) : EngagedNamed t := by
  have hname := h.name_ne_nil effect registers
  apply h.keep hname (h.availible_or_named effect registers)
  · intro p hlost
    exact (h.lost_or_named effect p hlost).imp_right (hname p)
  · intro p q hasks
    exact (h.asks_or_named effect requests p q hasks).imp_right fun hboth =>
      ⟨hname p hboth.1, hname q hboth.2⟩
  · intro p hseated
    rcases effect.seated hseated with hbefore | ⟨oldP, hlost, heq⟩ | ⟨q, hpq | hqp⟩
    · exact Or.inl hbefore
    · exact Or.inr (heq ▸ h oldP (Or.inr (Or.inl hlost)))
    · exact Or.inr (hname p (h.of_asks hpq).1)
    · exact Or.inr (hname p (h.of_asks hqp).2)

end EngagedNamed

theorem engagedNamed_of_namesFirst {s : State} (h : System.ReachableUnder NamesFirst s) :
    EngagedNamed s := by
  have known : ∀ t, System.Reachable t → Registry t ∧ Pointers t := fun t ht =>
    ⟨registry_of_reachable ht, (references_of_reachable ht).pointers⟩
  refine world_invariant h known
    (fun _ _ hquiet hknown => ⟨hknown.1.same hquiet.toSameWorld,
      hknown.2.sameWorld hquiet.toSameWorld⟩) EngagedNamed.initial
    (fun _ _ hquiet hengaged => hengaged.sameWorld hquiet.toSameWorld)
    (fun _ fd nameSet hknown hengaged _ => hengaged.addPlayer hknown.2 hknown.1 fd nameSet)
    (fun _ _ _ _ hengaged hclosed => hengaged.disconnected hclosed) ?_
  intro t u command rest _ hengaged hguard hqueue heffect
  -- the command leaves the queue before it is handled
  have hpopped : EngagedNamed (t.withCommands rest) :=
    hengaged.sameWorld (sameWorld_withCommands t rest)
  have hcommand := hguard rfl command (by rw [hqueue]; rfl)
  exact hpopped.handled heffect hcommand.1 hcommand.2

/-- Under `NamesFirst` a name that is not the requester's is listed exactly when it is joinable: for
    the empty name neither is so. -/
theorem mem_offeredList_iff_of_namesFirst {s : State} (h : System.ReachableUnder NamesFirst s)
    {requester : PlayerRef} {name : ByteString} (hother : name ≠ (s.player requester).name) :
    name ∈ offeredList s requester ↔ Acknowledged s name := by
  by_cases hempty : name = []
  · -- whoever is joinable is available, and so has a name
    have hengaged := engagedNamed_of_namesFirst h
    subst hempty
    have hlisted : [] ∉ offeredList s requester := by
      intro hmem
      obtain ⟨-, p, -, hname, hjoinable, -⟩ := mem_offeredList_iff.mp hmem
      exact hengaged.of_joinable hjoinable hname
    have hacknowledged : ¬ Acknowledged s [] := by
      intro hack
      obtain ⟨p, hfound, hjoinable⟩ := hack
      exact hengaged.of_joinable hjoinable (by simpa using List.find?_some hfound)
    exact iff_of_false hlisted hacknowledged
  · exact mem_offeredList_iff_acknowledged (uniqueNames_of_reachable h.reachable)
      (flaggedNames_of_reachable h.reachable) hempty hother

/-- The list and the test agree about a name exactly under `ListedAsJoined`. -/
theorem listed_iff_acknowledged_iff {s : State} (h : System.Reachable s) (requester : PlayerRef)
    (name : ByteString) : (name ∈ offeredList s requester ↔ Acknowledged s name) ↔
      ListedAsJoined s requester name := by
  have hacknowledged : Acknowledged s name ↔
      ¬ ∀ p ∈ Server.getPlayerByName s name, isJoinable s p = false := by
    simp [Acknowledged]
  rw [listedAsJoined_iff]
  by_cases hself : name = (s.player requester).name
  · -- the own name is never listed
    have hnot : name ∉ offeredList s requester := fun hmem => (mem_offeredList_iff.mp hmem).1 hself
    have hnamed : name = [] → ¬ (s.player requester).name ≠ [] := by
      intro hempty hne
      exact hne (hself ▸ hempty)
    rw [hacknowledged]
    tauto
  · by_cases hempty : name = []
    · subst hempty
      have hlisted : ([] : ByteString) ∈ offeredList s requester ↔ ∃ q ∈ s.players,
          (s.player q).name = [] ∧ isJoinable s q = true ∧ (s.player q).hasName = true := by
        rw [mem_offeredList_iff]
        exact and_iff_right hself
      cases hfound : Server.getPlayerByName s [] with
      | none =>
        -- nobody is without a name
        have hnone := List.find?_eq_none.mp hfound
        have hnobody : ¬ ∃ q ∈ s.players, (s.player q).name = [] ∧ isJoinable s q = true ∧
            (s.player q).hasName = true := by
          intro hexists
          obtain ⟨q, hq, hname, -⟩ := hexists
          exact hnone q hq (by simp [hname])
        simp [hlisted, hnobody, Acknowledged, hfound, hself]
      | some p =>
        have hne : (s.player requester).name ≠ [] := fun heq => hself heq.symm
        simp only [hlisted, Acknowledged, hfound, Option.some.injEq, exists_eq_left',
          Option.mem_def, forall_eq', hself, IsEmpty.forall_iff, true_and, forall_const, hne,
          ne_eq, not_false_eq_true]
        exact Iff.comm
    · have hagree := mem_offeredList_iff_acknowledged (uniqueNames_of_reachable h)
        (flaggedNames_of_reachable h) hempty hself
      simp [hagree, hself, hempty]

/-- **Listed if and only if joinable** holds of a requester and a name in a reachable state
    exactly under `ListedAsJoined`, and under `NamesFirst` for every name but the requester's own.
    The list is the one that the answer joins, and the test is the one that decides about the
    acknowledgement. -/
theorem listed_iff_joinable (s : State) (h : System.Reachable s) :
    (∀ requester, offeredNames s requester
      = (UInt32.ofNat (offeredList s requester).length,
          ([59] : ByteString).intercalate (offeredList s requester))) ∧
    (∀ mess name t, mess.firstName = some name → proceedPlayerJoining s mess = .ok t →
      (Announces s t H_S_ACK ↔ Acknowledged s name)) ∧
    (∀ requester name, (name ∈ offeredList s requester ↔ Acknowledged s name) ↔
      ListedAsJoined s requester name) ∧
    (System.ReachableUnder NamesFirst s → ∀ requester name, name ≠ (s.player requester).name →
      (name ∈ offeredList s requester ↔ Acknowledged s name)) := by
  refine ⟨offeredNames_eq h, fun mess name t => proceedPlayerJoining_announces_iff, ?_, ?_⟩
  · exact listed_iff_acknowledged_iff h
  · intro hnames requester name hother
    exact mem_offeredList_iff_of_namesFirst hnames hother

/-- A player who is free can be asked under its own name, although it is not on its list. -/
theorem not_listed_iff_joinable :
    ¬ ∀ s, System.Reachable s → ∀ requester ∈ s.players,
      (s.player requester).socketSet = true →
        ∀ name, name ∈ offeredList s requester ↔ Acknowledged s name := by
  intro h
  have hboth := h _ (System.reachable_after System.registerTwo) 0 (by decide +kernel)
    (by decide +kernel) [65]
  have hlist : offeredList (System.after System.registerTwo) 0 = [[66]] := by decide +kernel
  rw [hlist] at hboth
  exact absurd (hboth.mpr (by decide +kernel)) (by decide)

/-- `C` is on the list of `A` and can be asked. -/
theorem listed_iff_joinable_registered :
    Acknowledged (System.machine.after NamesFirst System.registerThree) [67] ∧
      [67] ∈ offeredList (System.machine.after NamesFirst System.registerThree) 0 ∧
      ListedAsJoined (System.machine.after NamesFirst System.registerThree) 0 [67] := by
  have hreach : System.ReachableUnder NamesFirst
      (System.machine.after NamesFirst System.registerThree) :=
    Machine.reachableUnder_after System.registerThree
  obtain ⟨-, -, hlisted, hnames⟩ := listed_iff_joinable _ (Machine.ReachableUnder.reachable hreach)
  have hacknowledged :
      Acknowledged (System.machine.after NamesFirst System.registerThree) [67] := by
    decide +kernel
  have hagree := hnames hreach 0 [67] (by decide +kernel)
  exact ⟨hacknowledged, hagree.mpr hacknowledged, (hlisted 0 [67]).mp hagree⟩

end UpsServer
