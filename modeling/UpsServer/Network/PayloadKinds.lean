import UpsServer.Helpers.Exactness
import UpsServer.Network.Steps

/-!
# What the payloads hold

Payload entries are untyped pointers on their way from the decoder through the handlers to the
encoder. Every message that is decoded or sent has one entry for every letter of the format of its
header, of the kind the letter names, so no cast goes wrong on the way.
-/

namespace UpsServer

open Framework CommandManager Sender Serializer

/-- The message has the format that the table gives its header, and a payload that matches it. -/
structure Message.TypeSafe (m : Message) : Prop where
  format : headToFormatMap m.header = some m.msgFormat
  payload : Matches m.payload m.msgFormat

/-- A payload entry was missing or cast to the wrong kind. -/
def Fault.IsCast : Fault → Prop
  | .codec (.payloadRange _) | .codec (.payloadKind _) => True
  | _ => False

namespace Message.TypeSafe

variable {m : Message}

/-- The error branch of `serialize` compares these two lengths. -/
theorem length_eq (h : m.TypeSafe) : m.payload.length = m.msgFormat.length := h.payload.length_eq

/-- The error branch of `addData` asks whether the payload was full before the entry came. -/
theorem length_ne (h : m.TypeSafe) {before after : List Datum} {datum : Datum}
    (hsplit : m.payload = before ++ datum :: after) : before.length ≠ m.msgFormat.length := by
  rw [← h.length_eq, hsplit, List.length_append, List.length_cons]
  omega

theorem withPlayer (h : m.TypeSafe) (player : Option PlayerRef) : (m.withPlayer player).TypeSafe :=
  ⟨h.format, h.payload⟩

/-- The entry at a letter of the format is of its kind. -/
theorem exists_entry (h : m.TypeSafe) {format : List Char} {c : Char} {i : Nat}
    (known : headToFormatMap m.header = some format) (hletter : format[i]? = some c) :
    ∃ datum, m.payload[i]? = some datum ∧ datum.HasKind c := by
  obtain rfl : m.msgFormat = format := Option.some.inj (h.format.symm.trans known)
  obtain ⟨hi, hc⟩ := List.getElem?_eq_some_iff.mp hletter
  obtain ⟨hlen, hkinds⟩ := List.forall₂_iff_get.mp h.payload
  have hkind := hkinds i (hlen ▸ hi) hi
  refine ⟨m.payload.get ⟨i, hlen ▸ hi⟩, List.getElem?_eq_getElem _, ?_⟩
  rw [← hc]
  exact hkind

/-- A string is read where the format announces one. -/
theorem stringAt (h : m.TypeSafe) {format : List Char} {i : Nat}
    (known : headToFormatMap m.header = some format) (hletter : format[i]? = some 's') :
    ∃ value, m.stringAt i = .ok value := by
  obtain ⟨datum, hentry, hkind⟩ := h.exists_entry known hletter
  cases datum with
  | int => exact absurd hkind (by simp [Datum.HasKind])
  | str value => exact ⟨value, by rw [Message.stringAt, hentry]⟩

/-- An integer is read where the format announces one. -/
theorem intAt (h : m.TypeSafe) {format : List Char} {i : Nat}
    (known : headToFormatMap m.header = some format) (hletter : format[i]? = some 'i') :
    ∃ value, m.intAt i = .ok value := by
  obtain ⟨datum, hentry, hkind⟩ := h.exists_entry known hletter
  cases datum with
  | str => exact absurd hkind (by simp [Datum.HasKind])
  | int value => exact ⟨value, by rw [Message.intAt, hentry]⟩

end Message.TypeSafe

/-- The letter of an entry's kind. -/
def Datum.letter : Datum → Char
  | .int _ => 'i'
  | .str _ => 's'

theorem matches_letters (data : List Datum) : Matches data (data.map Datum.letter) := by
  induction data with
  | nil => exact .nil
  | cons datum data ih =>
    refine .cons ?_ ih
    cases datum <;> rfl

/-- A message composed of entries of the kinds that the table gives its header. -/
theorem typeSafe_compose {header : UInt32} {data : List Datum} (player : Option PlayerRef)
    (known : headToFormatMap header = some (data.map Datum.letter)) :
    (Message.compose header data player).TypeSafe := by
  have hcompose : Message.compose header data player
      = ⟨header, data.map Datum.letter, data, player⟩ := by
    rw [Sender.compose_eq, formatOf, known]
    rfl
  rw [hcompose]
  exact ⟨known, matches_letters data⟩

/-- The encoder meets no entry of the wrong kind. -/
theorem serialize_ensures {m : Message} (h : m.TypeSafe) :
    Ensures (serialize m) (fun _ => True) fun e => ¬ (Fault.codec e).IsCast := by
  by_cases hfits : (packetOf m.header m.payload).length < 2 ^ 31
  · rw [serialize_eq ⟨h.format, h.payload, hfits⟩]
    trivial
  · obtain ⟨size, hfault⟩ := serialize_of_large h.payload (Nat.le_of_not_lt hfits)
    rw [hfault]
    simp [Ensures, Fault.IsCast]

/-! ## What a handler sends -/

/-- Between the states only type safe messages were handed to `Sender`. -/
def SentTyped (s t : State) : Prop :=
  ∃ sent, t.pQueue = s.pQueue ++ sent ∧ ∀ packet ∈ sent, packet.message.TypeSafe

namespace SentTyped

variable {s t u : State}

theorem nothing (h : t.pQueue = s.pQueue) : SentTyped s t := ⟨[], by simp [h], by simp⟩

theorem trans (h : SentTyped s t) (h' : SentTyped t u) : SentTyped s u := by
  obtain ⟨sent, hqueue, hsent⟩ := h
  obtain ⟨sent', hqueue', hsent'⟩ := h'
  refine ⟨sent ++ sent', by rw [hqueue', hqueue, List.append_assoc], ?_⟩
  intro packet hpacket
  rcases List.mem_append.mp hpacket with hfirst | hsecond
  · exact hsent packet hfirst
  · exact hsent' packet hsecond

end SentTyped

/-- The computation sends only type safe messages and no cast in it goes wrong. -/
structure SendsTyped (s : State) (x : Except Fault State) : Prop where
  ensures : Ensures x (SentTyped s) fun e => ¬ e.IsCast

/-- The computation returns a value and no cast in it goes wrong. -/
structure CastsWell {α : Type} (x : Except Fault α) : Prop where
  ensures : Ensures x (fun _ => True) fun e => ¬ e.IsCast

namespace SendsTyped

variable {s t : State}

/-- Sending starts from a state with the same queue. -/
theorem after {x : Except Fault State} (h : SendsTyped t x) (sent : SentTyped s t) :
    SendsTyped s x := by
  refine ⟨h.ensures.mono ?_ ?_⟩
  · intro u hu
    exact sent.trans hu
  · intro e he
    exact he

theorem pure (h : t.pQueue = s.pQueue) : SendsTyped s (.ok t) := ⟨SentTyped.nothing h⟩

/-- A fault that has nothing to do with a payload. -/
theorem fault {e : Fault} (h : ¬ e.IsCast) : SendsTyped s (.error e) := ⟨h⟩

/-- Something is looked up, then the rest follows. -/
theorem look {α : Type} {x : Except Fault α} {f : α → Except Fault State} (first : CastsWell x)
    (rest : ∀ a, x = .ok a → SendsTyped s (f a)) : SendsTyped s (x >>= f) :=
  ⟨first.ensures.bind fun a ha _ => (rest a ha).ensures⟩

/-- Something is sent, then the rest follows. -/
theorem send {x : Except Fault State} {f : State → Except Fault State} (first : SendsTyped s x)
    (rest : ∀ t, SendsTyped t (f t)) : SendsTyped s (x >>= f) :=
  ⟨first.ensures.bind fun t _ ht => ((rest t).after ht).ensures⟩

end SendsTyped

/-! ## The operations -/

section Operations

variable {s t : State}

theorem castsWell_deref (p : Option PlayerRef) : CastsWell (deref p) := by
  constructor
  cases p <;> simp [Ensures, deref, Fault.IsCast]

theorem castsWell_assigned (p : Option PlayerRef) : CastsWell (assigned p) := by
  constructor
  cases p <;> simp [Ensures, assigned, Fault.IsCast]

theorem castsWell_payloadString {m : Message} {i : Nat} (h : ∃ value, m.stringAt i = .ok value) :
    CastsWell (payloadString m i) := by
  obtain ⟨value, hvalue⟩ := h
  rw [payloadString, hvalue]
  exact ⟨trivial⟩

theorem castsWell_payloadInt {m : Message} {i : Nat} (h : ∃ value, m.intAt i = .ok value) :
    CastsWell (payloadInt m i) := by
  obtain ⟨value, hvalue⟩ := h
  rw [payloadInt, hvalue]
  exact ⟨trivial⟩

/-- A type safe message is registered as it is. -/
theorem sendsTyped_registerMessage {m : Message} (h : m.TypeSafe) (hqueue : t.pQueue = s.pQueue) :
    SendsTyped s (registerMessage t m) := by
  have hencode : CastsWell ((serialize m).mapError .codec) :=
    ⟨Ensures.mapError (serialize_ensures h)⟩
  apply SendsTyped.look hencode
  intro packet _
  apply SendsTyped.look (castsWell_deref _)
  intro p _
  -- one packet, made of this message
  refine ⟨[_], congrArg (· ++ _) hqueue, ?_⟩
  intro x hx
  rw [List.mem_singleton.mp hx]
  exact h

/-- So is a message composed of the right kinds. -/
theorem sendsTyped_compose {header : UInt32} {data : List Datum} {player : Option PlayerRef}
    (known : headToFormatMap header = some (data.map Datum.letter))
    (hqueue : t.pQueue = s.pQueue) :
    SendsTyped s (registerMessage t (.compose header data player)) :=
  sendsTyped_registerMessage (typeSafe_compose player known) hqueue

/-- A refusal with a reason, whatever the reason. -/
theorem sendsTyped_reason (reason : ByteString) {player : Option PlayerRef}
    (hqueue : t.pQueue = s.pQueue) :
    SendsTyped s (registerMessage t (.compose H_S_NACK_REAS [.str reason] player)) :=
  sendsTyped_compose (by rfl) hqueue

theorem sendsTyped_erasePlayerAt (index : Int) (hqueue : t.pQueue = s.pQueue) :
    SendsTyped s (Server.erasePlayerAt t index) := by
  unfold Server.erasePlayerAt
  split
  · exact .pure hqueue
  · exact .fault (by simp [Fault.IsCast])

theorem sendsTyped_deleteGame (game : GameRef) (hqueue : t.pQueue = s.pQueue) :
    SendsTyped s (GameManager.deleteGame t game) := by
  unfold GameManager.deleteGame
  split
  · exact .pure hqueue
  · exact .fault (by simp [Fault.IsCast])

theorem sendsTyped_disconnection (socket : Int) (hqueue : t.pQueue = s.pQueue) :
    SendsTyped s (Server.proceedPlayerDisconnection t socket) := by
  unfold Server.proceedPlayerDisconnection
  apply SendsTyped.look (castsWell_assigned _)
  intro pl _
  split
  · exact sendsTyped_erasePlayerAt _ hqueue
  · exact .pure hqueue

end Operations

/-! ## The handlers -/

section Handlers

variable {s : State} {mess : Message}

theorem proceedNewPlayerConnection_sendsTyped (h : mess.TypeSafe)
    (header : mess.header = H_C_NEW_PL) : SendsTyped s (proceedNewPlayerConnection s mess) := by
  have known : headToFormatMap mess.header = some ['s'] := by
    rw [header]
    rfl
  unfold proceedNewPlayerConnection
  apply SendsTyped.look (castsWell_payloadString (h.stringAt known rfl))
  intro username _
  split
  · apply SendsTyped.look (castsWell_deref _)
    intro player _
    exact sendsTyped_compose (by rfl) rfl
  · exact sendsTyped_reason _ rfl

theorem proceedPlayerListRequest_sendsTyped : SendsTyped s (proceedPlayerListRequest s mess) := by
  unfold proceedPlayerListRequest
  apply SendsTyped.look (castsWell_deref _)
  intro requester _
  exact sendsTyped_compose (by rfl) rfl

theorem refuse_sendsTyped : SendsTyped s (refuse s mess) := sendsTyped_compose (by rfl) rfl

theorem reconnect_sendsTyped (newP oldP : PlayerRef) : SendsTyped s (reconnect s newP oldP) := by
  unfold reconnect
  apply SendsTyped.look (castsWell_deref _)
  intro game _
  apply SendsTyped.look (castsWell_assigned _)
  intro onTurn _
  apply SendsTyped.look (castsWell_deref _)
  intro oponent _
  -- the newcomer took over name and seat, which leaves the queue alone
  have hqueue : (takeOverSeat (takeOverName s newP oldP) game newP).pQueue = s.pQueue := by
    obtain ⟨f, hf, -⟩ := takeOverSeat_eq (takeOverName s newP oldP) newP game
    rw [hf]
    rfl
  refine SendsTyped.send (sendsTyped_compose (by rfl) hqueue) ?_
  intro t
  refine SendsTyped.send (sendsTyped_compose (by rfl) rfl) ?_
  intro u
  exact sendsTyped_erasePlayerAt _ rfl

theorem proceedPlayerReconnection_sendsTyped (h : mess.TypeSafe)
    (header : mess.header = H_C_PL_RECONN) : SendsTyped s (proceedPlayerReconnection s mess) := by
  have known : headToFormatMap mess.header = some ['s'] := by
    rw [header]
    rfl
  unfold proceedPlayerReconnection
  apply SendsTyped.look (castsWell_payloadString (h.stringAt known rfl))
  intro name _
  split
  · exact refuse_sendsTyped
  · split
    · apply SendsTyped.look (castsWell_deref _)
      intro newP _
      exact reconnect_sendsTyped newP _
    · exact refuse_sendsTyped

theorem askForGame_sendsTyped (requesting oponent : PlayerRef) :
    SendsTyped s (askForGame s requesting oponent) := by
  unfold askForGame
  refine SendsTyped.send (sendsTyped_compose (by rfl) rfl) ?_
  intro t
  exact .pure rfl

theorem proceedPlayerJoining_sendsTyped (h : mess.TypeSafe)
    (header : mess.header = H_C_JOIN_PLAYER) : SendsTyped s (proceedPlayerJoining s mess) := by
  have known : headToFormatMap mess.header = some ['s'] := by
    rw [header]
    rfl
  unfold proceedPlayerJoining
  apply SendsTyped.look (castsWell_payloadString (h.stringAt known rfl))
  intro name _
  split
  · exact refuse_sendsTyped
  · split
    · refine SendsTyped.send (sendsTyped_compose (by rfl) rfl) ?_
      intro t
      apply SendsTyped.look (castsWell_deref _)
      intro requesting _
      exact askForGame_sendsTyped requesting _
    · exact refuse_sendsTyped

theorem startGame_sendsTyped (asking asked : PlayerRef) :
    SendsTyped s (startGame s asking asked) := by
  unfold startGame GameManager.registerGame
  split
  · -- the ids are used up
    exact .fault (by simp [Fault.IsCast])
  · rw [ok_bind]
    refine SendsTyped.send (sendsTyped_compose (by rfl) rfl) ?_
    intro t
    exact sendsTyped_compose (by rfl) rfl

theorem proceedAcceptJoin_sendsTyped : SendsTyped s (proceedAcceptJoin s mess) := by
  unfold proceedAcceptJoin
  apply SendsTyped.look (castsWell_deref _)
  intro asked _
  apply SendsTyped.look (castsWell_deref _)
  intro asking _
  dsimp only
  split
  · exact (startGame_sendsTyped asking asked).after (.nothing rfl)
  · split
    · exact sendsTyped_reason _ rfl
    · exact .pure rfl

theorem proceedDeclineJoin_sendsTyped : SendsTyped s (proceedDeclineJoin s mess) := by
  unfold proceedDeclineJoin
  apply SendsTyped.look (castsWell_deref _)
  intro asked _
  apply SendsTyped.look (castsWell_deref _)
  intro asking _
  apply SendsTyped.send
  · split
    · exact sendsTyped_reason _ rfl
    · exact .pure rfl
  · intro t
    exact .pure rfl

theorem processGameMove_sendsTyped (h : mess.TypeSafe) (header : mess.header = H_C_GAME_MOVE) :
    SendsTyped s (processGameMove s mess) := by
  have known : headToFormatMap mess.header = some ['i', 'i', 'i'] := by
    rw [header]
    rfl
  unfold processGameMove
  apply SendsTyped.look (castsWell_deref _)
  intro turnPlayer _
  apply SendsTyped.look (castsWell_deref _)
  intro game _
  apply SendsTyped.look (castsWell_payloadInt (h.intAt known rfl))
  intro cardType _
  apply SendsTyped.look (castsWell_payloadInt (h.intAt known rfl))
  intro moveI _
  apply SendsTyped.look (castsWell_payloadInt (h.intAt known rfl))
  intro moveJ _
  -- the three entries are sent on in their order
  split
  · exact .fault (by simp [Fault.IsCast])
  · dsimp only
    split
    · unfold winGame
      refine SendsTyped.send (sendsTyped_compose (by rfl) rfl) ?_
      intro t
      refine SendsTyped.send (sendsTyped_compose (by rfl) rfl) ?_
      intro u
      exact sendsTyped_deleteGame _ rfl
    · exact sendsTyped_compose (by rfl) rfl

theorem proceedGameEnding_sendsTyped : SendsTyped s (proceedGameEnding s mess) := by
  unfold proceedGameEnding
  apply SendsTyped.look (castsWell_deref _)
  intro p _
  apply SendsTyped.look (castsWell_deref _)
  intro game _
  dsimp only
  split
  · refine SendsTyped.send (sendsTyped_erasePlayerAt _ rfl) ?_
    intro t
    exact sendsTyped_deleteGame _ rfl
  · refine SendsTyped.send (sendsTyped_compose (by rfl) rfl) ?_
    intro t
    exact sendsTyped_deleteGame _ rfl

theorem proceedPlayerLogout_sendsTyped : SendsTyped s (proceedPlayerLogout s mess) := by
  unfold proceedPlayerLogout
  apply SendsTyped.look (castsWell_deref _)
  intro p _
  split
  · exact proceedGameEnding_sendsTyped
  · exact sendsTyped_disconnection _ rfl

theorem proceedPlayerLost_sendsTyped : SendsTyped s (proceedPlayerLost s mess) := by
  unfold proceedPlayerLost
  apply SendsTyped.look (castsWell_deref _)
  intro lost _
  apply SendsTyped.look (castsWell_deref _)
  intro game _
  dsimp only
  split
  · refine SendsTyped.send (sendsTyped_deleteGame _ rfl) ?_
    intro t
    refine SendsTyped.send (sendsTyped_erasePlayerAt _ rfl) ?_
    intro u
    exact sendsTyped_erasePlayerAt _ rfl
  · exact sendsTyped_compose (by rfl) rfl

/-- Whatever the state, handling a type safe message sends type safe messages only. -/
theorem dispatch_sendsTyped (h : mess.TypeSafe) : SendsTyped s (dispatch s mess) := by
  unfold dispatch
  split_ifs with h₁ h₂ h₃ h₄ h₅ h₆ h₇ h₈ h₉
  · exact proceedNewPlayerConnection_sendsTyped h h₁
  · exact proceedPlayerReconnection_sendsTyped h h₂
  · exact proceedPlayerListRequest_sendsTyped
  · exact proceedPlayerLogout_sendsTyped
  · exact proceedPlayerJoining_sendsTyped h h₅
  · exact proceedDeclineJoin_sendsTyped
  · exact proceedAcceptJoin_sendsTyped
  · exact processGameMove_sendsTyped h h₈
  · exact proceedPlayerLost_sendsTyped
  · exact .pure rfl

end Handlers

/-! ## From the decoder to the encoder -/

/-- **Payloads match their formats**: what the decoder returns is type safe; handling it in any
    reachable state casts every entry to its kind, and what a handler that completes hands to
    `Sender` is type safe again; and in a type safe message the payload never has another length
    than the format, nor did it when its entries were added. -/
theorem payloads_match_their_formats :
    (∀ data m, deserialize data = .ok (some m) → m.TypeSafe) ∧
    (∀ s, System.Reachable s → ∀ data m player, deserialize data = .ok (some m) →
      (∀ t, dispatch s (m.withPlayer player) = .ok t → SentTyped s t) ∧
        ∀ fault, dispatch s (m.withPlayer player) = .error fault → ¬ fault.IsCast) ∧
    (∀ m : Message, m.TypeSafe → m.payload.length = m.msgFormat.length ∧
      ∀ before datum after, m.payload = before ++ datum :: after →
        before.length ≠ m.msgFormat.length) := by
  have hdecoded : ∀ data m, deserialize data = .ok (some m) → m.TypeSafe := by
    intro data m h
    obtain ⟨hformat, hmatches, -⟩ := deserialize_matches h
    exact ⟨hformat, hmatches⟩
  refine ⟨hdecoded, ?_, ?_⟩
  · intro s _ data m player h
    have hsends : SendsTyped s (dispatch s (m.withPlayer player)) :=
      dispatch_sendsTyped ((hdecoded data m h).withPlayer player)
    exact ensures_iff.mp hsends.ensures
  · intro m hm
    exact ⟨hm.length_eq, fun before datum after hsplit => hm.length_ne hsplit⟩

/-- The packet with which `A` asks `B` holds the announced string, and so does the request that `B`
    is sent. -/
theorem payloads_match_their_formats_asked :
    (⟨H_C_JOIN_PLAYER, ['s'], [.str [66]], none⟩ : Message).TypeSafe ∧
      ∃ t, dispatch (System.after System.registerTwo)
          ⟨H_C_JOIN_PLAYER, ['s'], [.str [66]], some 0⟩ = .ok t ∧
        (t.pQueue.drop (System.after System.registerTwo).pQueue.length).map
            (fun packet => (packet.message.header, packet.message.payload))
          = [(H_S_ACK, []), (H_S_JOIN_PLAYER, [.str [65]])] ∧
        SentTyped (System.after System.registerTwo) t := by
  have hdecodes : deserialize (System.clientPacket H_C_JOIN_PLAYER [.str [66]])
      = .ok (some ⟨H_C_JOIN_PLAYER, ['s'], [.str [66]], none⟩) := by decide +kernel
  obtain ⟨hkinds, hhandled, -⟩ := payloads_match_their_formats
  have hsent : ((dispatch (System.after System.registerTwo)
      ⟨H_C_JOIN_PLAYER, ['s'], [.str [66]], some 0⟩).toOption.map fun t =>
        (t.pQueue.drop (System.after System.registerTwo).pQueue.length).map
          fun packet => (packet.message.header, packet.message.payload))
      = some [(H_S_ACK, []), (H_S_JOIN_PLAYER, [.str [65]])] := by decide +kernel
  obtain ⟨t, ht, hsent⟩ := Option.map_eq_some_iff.mp hsent
  have hexec := toOption_eq_some_iff.mp ht
  exact ⟨hkinds _ _ hdecodes, t, hexec, hsent,
    (hhandled _ (System.reachable_after System.registerTwo) _ _ (some 0) hdecodes).1 t hexec⟩

end UpsServer
