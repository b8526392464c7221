import UpsServer.Network.Tidy

/-!
# Null pointers

Which commands make a handler dereference a null pointer. The handlers trust that their sender
was asked, or that a look-up by name finds a game. `Supported` says when that is so, in any state.
In orderly runs the `inGame` flag tells whether there is a game, and the commands that are safe
can be told from the flags (`Answerable`).
-/

namespace UpsServer

open Framework CommandManager Sender

/-- A registered game seats a player of this name, so a look-up by the name finds one. -/
def State.NameSeated (s : State) (name : ByteString) : Prop :=
  ∃ g ∈ s.games, (s.player (s.game g).p1).name = name ∨ (s.player (s.game g).p2).name = name

instance (s : State) (name : ByteString) : Decidable (s.NameSeated name) :=
  inferInstanceAs (Decidable (∃ g ∈ s.games, _ ∨ _))

/-- What the handlers expect of the state without checking it. -/
@[mk_iff] structure Supported (s : State) (mess : Message) (p : PlayerRef) : Prop where
  /-- An answer comes from a player who was asked. -/
  asked : mess.header = H_C_ACCEPT_JOIN ∨ mess.header = H_C_DECLIN_JOIN →
    (s.player p).askedForJoiningBy ≠ none
  /-- A move comes from somebody under whose name a game is found. -/
  move : mess.header = H_C_GAME_MOVE → s.NameSeated (s.player p).name
  /-- So does a logout from a game. -/
  logout : mess.header = H_C_PL_LOGOUT → (s.player p).inGame = true →
    s.NameSeated (s.player p).name
  /-- A game seats a player of the lost player's name, or the sender, who gets that name. -/
  reconnect : mess.header = H_C_PL_RECONN → ∀ name ∈ mess.firstName,
    ∀ oldP ∈ Server.getPlayerByName s name, (s.player oldP).lost = true →
      s.NameSeated (s.player oldP).name ∨ s.Seated p

instance (s : State) (mess : Message) (p : PlayerRef) : Decidable (Supported s mess p) :=
  decidable_of_iff' _ (supported_iff s mess p)

/-- What `Supported` comes down to in orderly runs. -/
@[mk_iff] structure Answerable (s : State) (mess : Message) (p : PlayerRef) : Prop where
  /-- An answer comes from a player who was asked. -/
  asked : mess.header = H_C_ACCEPT_JOIN ∨ mess.header = H_C_DECLIN_JOIN →
    (s.player p).askedForJoiningBy ≠ none
  /-- A move comes from a player in a game. -/
  inGame : mess.header = H_C_GAME_MOVE → (s.player p).inGame = true
  /-- The lost player of a reconnection is still in its game, or the sender is in one. -/
  playing : mess.header = H_C_PL_RECONN → ∀ name ∈ mess.firstName,
    ∀ oldP ∈ Server.getPlayerByName s name, (s.player oldP).lost = true →
      (s.player oldP).inGame = true ∨ (s.player p).inGame = true

instance (s : State) (mess : Message) (p : PlayerRef) : Decidable (Answerable s mess p) :=
  decidable_of_iff' _ (answerable_iff s mess p)

/-! ## Faults other than null pointers -/

theorem payloadString_ne_nullPointer {mess : Message} {i : Nat} :
    payloadString mess i ≠ .error .nullPointer := by
  intro h
  obtain ⟨_, _, hfault⟩ := mapError_eq_error_iff.mp h
  cases hfault

theorem payloadInt_ne_nullPointer {mess : Message} {i : Nat} :
    payloadInt mess i ≠ .error .nullPointer := by
  intro h
  obtain ⟨_, _, hfault⟩ := mapError_eq_error_iff.mp h
  cases hfault

theorem assigned_ne_nullPointer {p : Option PlayerRef} :
    assigned p ≠ .error .nullPointer := by
  cases p <;> simp [assigned]

theorem erasePlayerAt_ne_nullPointer {s : State} {index : Int} :
    Server.erasePlayerAt s index ≠ .error .nullPointer := by
  unfold Server.erasePlayerAt
  split <;> simp

theorem deletePlayer_ne_nullPointer {s : State} {p : PlayerRef} :
    Server.deletePlayer s p ≠ .error .nullPointer :=
  erasePlayerAt_ne_nullPointer

theorem deleteGame_ne_nullPointer {s : State} {g : GameRef} :
    GameManager.deleteGame s g ≠ .error .nullPointer := by
  unfold GameManager.deleteGame
  split <;> simp

theorem disconnection_ne_nullPointer {s : State} {fd : Int} :
    Server.proceedPlayerDisconnection s fd ≠ .error .nullPointer := by
  intro h
  unfold Server.proceedPlayerDisconnection at h
  rcases bind_eq_error_iff.mp h with h | ⟨pl, _, h⟩
  · exact assigned_ne_nullPointer h
  · split at h
    · exact erasePlayerAt_ne_nullPointer h
    · cases h

/-- A sequence dereferences no null pointer when neither of its parts does. -/
theorem bind_ne_nullPointer {α β : Type} {x : Except Fault α} {f : α → Except Fault β}
    (first : x ≠ .error .nullPointer) (rest : ∀ a, x = .ok a → f a ≠ .error .nullPointer) :
    (x >>= f) ≠ .error .nullPointer := by
  intro h
  rcases bind_eq_error_iff.mp h with h | ⟨a, ha, h⟩
  · exact first h
  · exact rest a ha h

/-- A message for a known player is registered without a null pointer. -/
theorem tell_ne_nullPointer {s : State} {header : UInt32} {data : List Datum} {p : PlayerRef} :
    registerMessage s (.compose header data (some p)) ≠ .error .nullPointer :=
  registerMessage_ne_nullPointer rfl

/-! ## Which handlers are safe -/

section Handlers

variable {s : State} {mess : Message} {p : PlayerRef}

theorem newPlayer_ne_nullPointer (sender : mess.player = some p) :
    proceedNewPlayerConnection s mess ≠ .error .nullPointer := by
  unfold proceedNewPlayerConnection
  apply bind_ne_nullPointer payloadString_ne_nullPointer
  intro username _
  rw [sender]
  split
  · exact bind_ne_nullPointer (by simp) fun _ _ => tell_ne_nullPointer
  · exact tell_ne_nullPointer

theorem listRequest_ne_nullPointer (sender : mess.player = some p) :
    proceedPlayerListRequest s mess ≠ .error .nullPointer := by
  unfold proceedPlayerListRequest
  rw [sender]
  exact bind_ne_nullPointer (by simp) fun _ _ => tell_ne_nullPointer

theorem joining_ne_nullPointer (sender : mess.player = some p) :
    proceedPlayerJoining s mess ≠ .error .nullPointer := by
  unfold proceedPlayerJoining refuse
  apply bind_ne_nullPointer payloadString_ne_nullPointer
  intro name _
  rw [sender]
  split
  · exact tell_ne_nullPointer
  · split
    · apply bind_ne_nullPointer tell_ne_nullPointer
      intro _ _
      apply bind_ne_nullPointer (by simp)
      intro _ _
      unfold askForGame
      exact bind_ne_nullPointer tell_ne_nullPointer fun _ _ => by simp
    · exact tell_ne_nullPointer

/-- An answer is safe exactly when somebody asked. -/
theorem acceptJoin_ne_nullPointer_iff (sender : mess.player = some p) :
    proceedAcceptJoin s mess ≠ .error .nullPointer ↔
      (s.player p).askedForJoiningBy ≠ none := by
  unfold proceedAcceptJoin
  rw [sender, deref_some, ok_bind]
  cases hasked : (s.player p).askedForJoiningBy with
  | none => simp
  | some asking =>
    -- with the asking player at hand every message goes to a known player
    simp only [deref_some, ok_bind, ne_eq, reduceCtorEq, not_false_eq_true, iff_true]
    split
    · unfold startGame GameManager.registerGame
      split
      · simp
      · apply bind_ne_nullPointer (by simp)
        intro _ _
        exact bind_ne_nullPointer tell_ne_nullPointer fun _ _ => tell_ne_nullPointer
    · split
      · exact tell_ne_nullPointer
      · simp

theorem declineJoin_ne_nullPointer_iff (sender : mess.player = some p) :
    proceedDeclineJoin s mess ≠ .error .nullPointer ↔
      (s.player p).askedForJoiningBy ≠ none := by
  unfold proceedDeclineJoin
  rw [sender, deref_some, ok_bind]
  cases hasked : (s.player p).askedForJoiningBy with
  | none => simp
  | some asking =>
    simp only [deref_some, ok_bind, ne_eq, reduceCtorEq, not_false_eq_true, iff_true]
    refine bind_ne_nullPointer ?_ fun _ _ => by simp
    split
    · exact tell_ne_nullPointer
    · simp

/-- A move is safe exactly when a game is found. -/
theorem gameMove_ne_nullPointer_iff (sender : mess.player = some p) :
    processGameMove s mess ≠ .error .nullPointer ↔ GameManager.getGameByPlayer s p ≠ none := by
  unfold processGameMove
  rw [sender, deref_some, ok_bind]
  cases hgame : GameManager.getGameByPlayer s p with
  | none => simp
  | some game =>
    simp only [deref_some, ok_bind, ne_eq, reduceCtorEq, not_false_eq_true, iff_true]
    -- the three payload entries, the test of the cell, and the two branches of the move
    apply bind_ne_nullPointer payloadInt_ne_nullPointer
    intro _ _
    apply bind_ne_nullPointer payloadInt_ne_nullPointer
    intro _ _
    apply bind_ne_nullPointer payloadInt_ne_nullPointer
    intro _ _
    split
    · simp
    · split
      · unfold winGame
        apply bind_ne_nullPointer tell_ne_nullPointer
        intro _ _
        exact bind_ne_nullPointer tell_ne_nullPointer fun _ _ => deleteGame_ne_nullPointer
      · exact tell_ne_nullPointer

/-- Leaving is safe exactly when a player in a game has one. -/
theorem logout_ne_nullPointer_iff (sender : mess.player = some p) :
    proceedPlayerLogout s mess ≠ .error .nullPointer ↔
      ((s.player p).inGame = true → GameManager.getGameByPlayer s p ≠ none) := by
  unfold proceedPlayerLogout proceedGameEnding
  rw [sender, deref_some, ok_bind, ok_bind]
  cases hinGame : (s.player p).inGame with
  | false =>
    -- the connection is closed, which reads no pointer that may be null
    simpa using disconnection_ne_nullPointer
  | true =>
    cases hgame : GameManager.getGameByPlayer s p with
    | none => simp
    | some game =>
      simp only [deref_some, ok_bind, ne_eq, reduceCtorEq, not_false_eq_true, iff_true,
        if_true, implies_true]
      split
      · exact bind_ne_nullPointer deletePlayer_ne_nullPointer
          fun _ _ => deleteGame_ne_nullPointer
      · exact bind_ne_nullPointer tell_ne_nullPointer fun _ _ => deleteGame_ne_nullPointer

/-- The newcomer's game is found after it took a seat. -/
theorem getPlayersOponent_handedOver_ne_none {newP oldP : PlayerRef} {game : GameRef}
    (hmem : game ∈ s.games) :
    GameManager.getPlayersOponent (handedOver s newP oldP game) newP ≠ none := by
  -- whichever seat was filled, the newcomer holds it under its own new name
  have hseat : GameManager.seatsName (handedOver s newP oldP game)
      ((handedOver s newP oldP game).player newP).name game = true := by
    rw [GameManager.seatsName, Bool.or_eq_true, beq_iff_eq, beq_iff_eq]
    simp only [handedOver, takeOverSeat]
    split
    · exact Or.inl (by simp)
    · exact Or.inr (by simp)
  have hmem' : game ∈ (handedOver s newP oldP game).games := by simpa using hmem
  obtain ⟨g, hfound⟩ := exists_lastMatch _ hmem' hseat
  have hfound' : GameManager.getGameByPlayer (handedOver s newP oldP game) newP = some g := hfound
  rw [GameManager.getPlayersOponent, hfound']
  simp

/-- A reconnection is safe exactly when the lost player it finds still has a game. -/
theorem reconnection_ne_nullPointer_iff (sender : mess.player = some p) :
    proceedPlayerReconnection s mess ≠ .error .nullPointer ↔
      ∀ name ∈ mess.firstName, ∀ oldP ∈ Server.getPlayerByName s name,
        (s.player oldP).lost = true →
        GameManager.getGameByPlayer (takeOverName s p oldP) oldP ≠ none := by
  unfold proceedPlayerReconnection refuse
  cases hpayload : payloadString mess 0 with
  | error fault =>
    -- there is no name in the message, and the fault is one of the codec
    have hname : mess.firstName = none := by
      cases hfirst : mess.firstName with
      | none => rfl
      | some name =>
        rw [payloadString_eq_ok_iff.mpr hfirst] at hpayload
        cases hpayload
    have hfault : fault ≠ .nullPointer := fun heq =>
      payloadString_ne_nullPointer (heq ▸ hpayload)
    simp [hname, hfault]
  | ok name =>
    rw [ok_bind, payloadString_eq_ok_iff.mp hpayload, sender]
    cases hfound : Server.getPlayerByName s name with
    | none => simpa [hfound] using tell_ne_nullPointer
    | some oldP =>
      cases hlost : (s.player oldP).lost with
      | false => simpa [hfound, hlost] using tell_ne_nullPointer
      | true =>
        cases hgame : GameManager.getGameByPlayer (takeOverName s p oldP) oldP with
        | none => simp [hfound, hlost, reconnect, hgame]
        | some game =>
          have hmem := (GameManager.getGameByPlayer_eq_some hgame).1
          have hsafe : reconnect s p oldP ≠ .error .nullPointer := by
            unfold reconnect
            dsimp only
            rw [hgame, deref_some, ok_bind]
            -- an unassigned turn is a fault of its own; the opponent is found
            apply bind_ne_nullPointer assigned_ne_nullPointer
            intro _ _
            cases hoponent : GameManager.getPlayersOponent (handedOver s p oldP game) p with
            | none => exact absurd hoponent (getPlayersOponent_handedOver_ne_none hmem)
            | some oponent =>
              change (deref (GameManager.getPlayersOponent (handedOver s p oldP game) p) >>= _)
                ≠ _
              rw [hoponent, deref_some, ok_bind]
              apply bind_ne_nullPointer tell_ne_nullPointer
              intro _ _
              exact bind_ne_nullPointer tell_ne_nullPointer
                fun _ _ => deletePlayer_ne_nullPointer
          simpa [hfound, hlost, hgame] using hsafe

end Handlers

/-! ## When a game is found -/

section Lookup

variable {s : State}

theorem lookup_ne_none_iff {p : PlayerRef} :
    GameManager.getGameByPlayer s p ≠ none ↔ s.NameSeated (s.player p).name := by
  constructor
  · intro hne
    obtain ⟨g, hfound⟩ := Option.ne_none_iff_exists'.mp hne
    obtain ⟨hg, hname⟩ := GameManager.getGameByPlayer_eq_some hfound
    rw [GameManager.seatsName, Bool.or_eq_true, beq_iff_eq, beq_iff_eq] at hname
    exact ⟨g, hg, hname⟩
  · rintro ⟨g, hg, hname⟩
    have hmatch : GameManager.seatsName s (s.player p).name g = true := by
      rw [GameManager.seatsName, Bool.or_eq_true, beq_iff_eq, beq_iff_eq]
      exact hname
    obtain ⟨g', hfound⟩ := exists_lastMatch _ hg hmatch
    have hfound' : GameManager.getGameByPlayer s p = some g' := hfound
    rw [hfound']
    simp

/-- After the renaming, the game found may also be the newcomer's own. -/
theorem lookup_takeOverName_ne_none_iff {p oldP : PlayerRef} :
    GameManager.getGameByPlayer (takeOverName s p oldP) oldP ≠ none ↔
      s.NameSeated (s.player oldP).name ∨ s.Seated p := by
  rw [lookup_ne_none_iff, name_takeOverName_oldP]
  simp only [State.NameSeated, takeOverName_games, game_takeOverName, name_takeOverName_eq_iff]
  constructor
  · rintro ⟨g, hg, (heq | hname) | (heq | hname)⟩
    · exact Or.inr ⟨g, hg, Or.inl heq⟩
    · exact Or.inl ⟨g, hg, Or.inl hname⟩
    · exact Or.inr ⟨g, hg, Or.inr heq⟩
    · exact Or.inl ⟨g, hg, Or.inr hname⟩
  · rintro (⟨g, hg, hname⟩ | ⟨g, hg, hseat⟩)
    · exact ⟨g, hg, hname.imp Or.inr Or.inr⟩
    · exact ⟨g, hg, hseat.imp Or.inl Or.inl⟩

/-- In a tidy state the name of a listed player is seated exactly when the player is flagged. -/
theorem Tidy.nameSeated_iff (h : Tidy s) (sound : Sound s) {p : PlayerRef}
    (listed : p ∈ s.players) :
    s.NameSeated (s.player p).name ↔ (s.player p).inGame = true := by
  rw [h.flag p listed]
  constructor
  · -- names are unique among the listed players, and seated players are listed
    rintro ⟨g, hg, hname | hname⟩
    · exact ⟨g, hg, Or.inl (h.eq_of_seat_name sound.names hg (Or.inl rfl) listed hname)⟩
    · exact ⟨g, hg, Or.inr (h.eq_of_seat_name sound.names hg (Or.inr rfl) listed hname)⟩
  · rintro ⟨g, hg, hseat⟩
    exact ⟨g, hg, hseat.imp (fun heq => by rw [heq]) fun heq => by rw [heq]⟩

/-- In a tidy state the flags tell what is supported. -/
theorem Tidy.supported_iff_answerable (h : Tidy s) (sound : Sound s) {mess : Message}
    {p : PlayerRef} (listed : p ∈ s.players) : Supported s mess p ↔ Answerable s mess p := by
  have hplaying : ∀ name, ∀ oldP ∈ Server.getPlayerByName s name,
      (s.NameSeated (s.player oldP).name ∨ s.Seated p ↔
        (s.player oldP).inGame = true ∨ (s.player p).inGame = true) :=
    fun name oldP hfound => by
      rw [h.nameSeated_iff sound (List.mem_of_find?_eq_some hfound), h.flag p listed]
  constructor
  · rintro ⟨hasked, hmove, -, hreconnect⟩
    exact ⟨hasked, fun hheader => (h.nameSeated_iff sound listed).mp (hmove hheader),
      fun hheader name hname oldP hfound hlost =>
        (hplaying name oldP hfound).mp (hreconnect hheader name hname oldP hfound hlost)⟩
  · rintro ⟨hasked, hinGame, hreconnect⟩
    -- the flag of a player that logs out of a game is set by the test before
    exact ⟨hasked, fun hheader => (h.nameSeated_iff sound listed).mpr (hinGame hheader),
      fun _ hflag => (h.nameSeated_iff sound listed).mpr hflag,
      fun hheader name hname oldP hfound hlost =>
        (hplaying name oldP hfound).mpr (hreconnect hheader name hname oldP hfound hlost)⟩

end Lookup

/-! ## Client commands -/

/-- A message whose header needs nothing is supported. -/
theorem supported_of_unchecked {s : State} {mess : Message} {p : PlayerRef}
    (header : mess.header ∉
      [H_C_ACCEPT_JOIN, H_C_DECLIN_JOIN, H_C_GAME_MOVE, H_C_PL_LOGOUT, H_C_PL_RECONN]) :
    Supported s mess p where
  asked hheader := by rcases hheader with heq | heq <;> simp [heq] at header
  move hheader := by simp [hheader] at header
  logout hheader := by simp [hheader] at header
  reconnect hheader := by simp [hheader] at header

section Supported

variable {s : State} {mess : Message} {p : PlayerRef}

/-! Of the four conditions only the one for the header of the message counts. -/

theorem supported_answer_iff
    (header : mess.header = H_C_ACCEPT_JOIN ∨ mess.header = H_C_DECLIN_JOIN) :
    Supported s mess p ↔ (s.player p).askedForJoiningBy ≠ none := by
  rw [supported_iff]
  rcases header with heq | heq <;>
    simp [heq, H_C_ACCEPT_JOIN, H_C_DECLIN_JOIN, H_C_GAME_MOVE, H_C_PL_LOGOUT, H_C_PL_RECONN]

theorem supported_move_iff (header : mess.header = H_C_GAME_MOVE) :
    Supported s mess p ↔ s.NameSeated (s.player p).name := by
  rw [supported_iff]
  simp [header, H_C_ACCEPT_JOIN, H_C_DECLIN_JOIN, H_C_GAME_MOVE, H_C_PL_LOGOUT, H_C_PL_RECONN]

theorem supported_logout_iff (header : mess.header = H_C_PL_LOGOUT) :
    Supported s mess p ↔ ((s.player p).inGame = true → s.NameSeated (s.player p).name) := by
  rw [supported_iff]
  simp [header, H_C_ACCEPT_JOIN, H_C_DECLIN_JOIN, H_C_GAME_MOVE, H_C_PL_LOGOUT, H_C_PL_RECONN]

theorem supported_reconnect_iff (header : mess.header = H_C_PL_RECONN) :
    Supported s mess p ↔ ∀ name ∈ mess.firstName, ∀ oldP ∈ Server.getPlayerByName s name,
      (s.player oldP).lost = true → s.NameSeated (s.player oldP).name ∨ s.Seated p := by
  rw [supported_iff]
  simp [header, H_C_ACCEPT_JOIN, H_C_DECLIN_JOIN, H_C_GAME_MOVE, H_C_PL_LOGOUT, H_C_PL_RECONN]

/-- A handler is safe exactly when the state supports the message. -/
theorem dispatch_ne_nullPointer_iff (sender : mess.player = some p)
    (client : mess.header ≠ INTERNAL_PL_LOST) :
    dispatch s mess ≠ .error .nullPointer ↔ Supported s mess p := by
  unfold dispatch
  -- the branch of the server's own header is excluded by `client`
  split_ifs with h₁ h₂ h₃ h₄ h₅ h₆ h₇ h₈
  · exact iff_of_true (newPlayer_ne_nullPointer sender)
      (supported_of_unchecked (by rw [h₁]; decide))
  · rw [reconnection_ne_nullPointer_iff sender, supported_reconnect_iff h₂]
    simp only [lookup_takeOverName_ne_none_iff]
  · exact iff_of_true (listRequest_ne_nullPointer sender)
      (supported_of_unchecked (by rw [h₃]; decide))
  · rw [logout_ne_nullPointer_iff sender, supported_logout_iff h₄, lookup_ne_none_iff]
  · exact iff_of_true (joining_ne_nullPointer sender)
      (supported_of_unchecked (by rw [h₅]; decide))
  · rw [declineJoin_ne_nullPointer_iff sender, supported_answer_iff (Or.inr h₆)]
  · rw [acceptJoin_ne_nullPointer_iff sender, supported_answer_iff (Or.inl h₇)]
  · rw [gameMove_ne_nullPointer_iff sender, supported_move_iff h₈, lookup_ne_none_iff]
  · exact iff_of_true (by simp) (supported_of_unchecked (by simp [h₂, h₄, h₆, h₇, h₈]))

end Supported

/-- **Null safety of client commands**: in every state, a handler dereferences no null pointer
    for a message of a client exactly when the state supports the message; and in every
    orderly run the flags tell whether it does. -/
theorem client_command_null_safe_iff (s : State) (p : PlayerRef) (data : ByteString)
    (mess : Message) (decoded : Serializer.deserialize data = .ok (some mess)) :
    (dispatch s (mess.withPlayer (some p)) ≠ .error .nullPointer ↔ Supported s mess p) ∧
      (System.ReachableUnder Orderly s → p ∈ s.players →
        (Supported s mess p ↔ Answerable s mess p)) := by
  constructor
  · have hsame : Supported s (mess.withPlayer (some p)) p ↔ Supported s mess p := by
      rw [supported_iff, supported_iff]
      rfl
    have hclient : mess.header ≠ INTERNAL_PL_LOST := Serializer.deserialize_ne_internal decoded
    have hdispatch : dispatch s (mess.withPlayer (some p)) ≠ .error .nullPointer ↔
        Supported s (mess.withPlayer (some p)) p := dispatch_ne_nullPointer_iff rfl hclient
    exact hdispatch.trans hsame
  · intro h listed
    exact (tidy_of_orderly h).supported_iff_answerable
      (sound_of_reachable (Machine.ReachableUnder.reachable h)) listed

/-- The first move of the player who asked. -/
def openingMove : Message := ⟨H_C_GAME_MOVE, ['i', 'i', 'i'], [.int 3, .int 0, .int 0], none⟩

theorem client_command_null_safe_iff_move :
    dispatch (System.machine.after Orderly System.playTwo) (openingMove.withPlayer (some 0))
        ≠ .error .nullPointer ∧
      Answerable (System.machine.after Orderly System.playTwo) openingMove 0 :=
  have hsupported : Supported (System.machine.after Orderly System.playTwo) openingMove 0 := by
    decide +kernel
  have hsafe := client_command_null_safe_iff (System.machine.after Orderly System.playTwo) 0
    (System.clientPacket H_C_GAME_MOVE [.int 3, .int 0, .int 0]) openingMove (by decide +kernel)
  ⟨hsafe.1.mpr hsupported,
    (hsafe.2 (Machine.reachableUnder_after _) (by decide +kernel)).mp hsupported⟩

/-- A client that nobody asked crashes the server by accepting. -/
theorem unasked_accept_dereferences_null :
    ¬ ∀ s, System.Reachable s → ∀ p ∈ s.players, (s.player p).hasSocket = true →
      ∀ data mess, Serializer.deserialize data = .ok (some mess) →
        dispatch s (mess.withPlayer (some p)) ≠ .error .nullPointer := by
  intro h
  have hsafe := h _ (System.reachable_after [.accept 5 false]) 0 (by decide +kernel)
    (by decide +kernel) (System.clientPacket H_C_ACCEPT_JOIN []) ⟨H_C_ACCEPT_JOIN, [], [], none⟩
    (by decide +kernel)
  exact (acceptJoin_ne_nullPointer_iff rfl).mp hsafe (by decide +kernel)

end UpsServer
