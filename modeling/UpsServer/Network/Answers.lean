import UpsServer.Network.Workload

/-!
# Every request is answered once

A registration, a request for a game and a request for the player list are answered to the client
that sent them, once each. A reconnection is answered in the same way when it is refused. So what
a client was answered and what of its requests still waits is what it has requested.
-/

namespace UpsServer

open Framework CommandManager

/-! ## Requests and answers -/

/-- A command of `p` of one of these kinds. -/
def Command.asks (kinds : List UInt32) (p : PlayerRef) (command : Command) : Bool :=
  decide (command.message.player = some p ∧ command.message.header ∈ kinds)

/-- The number of commands of `p` of these kinds. -/
def requests (kinds : List UInt32) (p : PlayerRef) (commands : List Command) : Nat :=
  commands.countP (Command.asks kinds p)

/-- A message to `p` that answers a registration, a request for a game or a reconnection. Only the
    reason tells the refusal of a name from the refusals that players cause. -/
def Message.answers (p : PlayerRef) (mess : Message) : Bool :=
  decide (mess.player = some p ∧ (mess.header = H_S_ACK ∨ mess.header = H_S_NACK ∨
    (mess.header = H_S_NACK_REAS ∧ mess.payload = [.str (text "Username already in use!")])))

/-- A message to `p` with the player list. -/
def Message.lists (p : PlayerRef) (mess : Message) : Bool :=
  decide (mess.player = some p ∧ mess.header = H_S_PL_LIST_ANS)

/-- How often `p` was answered. -/
def State.answered (s : State) (p : PlayerRef) : Nat :=
  (s.outbox.map OutPacket.message).countP (Message.answers p)

/-- How often `p` was sent the player list. -/
def State.listed (s : State) (p : PlayerRef) : Nat :=
  (s.outbox.map OutPacket.message).countP (Message.lists p)

/-! ## What a command is answered -/

section Told

variable {s : State} {p q : PlayerRef} {header : UInt32} {data : List Datum}

theorem answers_compose : Message.answers p (.compose header data (some q))
    = decide (q = p ∧ (header = H_S_ACK ∨ header = H_S_NACK ∨
      (header = H_S_NACK_REAS ∧ data = [.str (text "Username already in use!")]))) := by
  rw [Sender.compose_eq, Message.answers]
  simp only [Option.some.injEq]

theorem lists_compose : Message.lists p (.compose header data (some q))
    = decide (q = p ∧ header = H_S_PL_LIST_ANS) := by
  rw [Sender.compose_eq, Message.lists]
  simp only [Option.some.injEq]

/-- The reasons that players cause are other reasons. -/
theorem reasons_differ : text "Player who asked is gone" ≠ text "Username already in use!" ∧
    text "Oponent declined" ≠ text "Username already in use!" := by
  decide

theorem count_registration (name : ByteString) :
    (toldOnRegistration s q name).countP (Message.answers p) = (if q = p then 1 else 0) ∧
      (toldOnRegistration s q name).countP (Message.lists p) = 0 := by
  unfold toldOnRegistration
  split <;> by_cases hq : q = p <;>
    simp [answers_compose, lists_compose, hq, H_S_ACK, H_S_NACK_REAS, H_S_PL_LIST_ANS]

theorem count_joining (name : ByteString) :
    (toldOnJoining s q name).countP (Message.answers p) = (if q = p then 1 else 0) ∧
      (toldOnJoining s q name).countP (Message.lists p) = 0 := by
  unfold toldOnJoining
  split
  · by_cases hq : q = p <;>
      simp [answers_compose, lists_compose, hq, H_S_NACK, H_S_PL_LIST_ANS]
  · split <;> by_cases hq : q = p <;>
      simp [answers_compose, lists_compose, hq, H_S_ACK, H_S_NACK, H_S_NACK_REAS,
        H_S_JOIN_PLAYER, H_S_PL_LIST_ANS]

theorem count_reconnection (name : ByteString) :
    (toldOnReconnection s q name).countP (Message.answers p) ≤ (if q = p then 1 else 0) ∧
      (toldOnReconnection s q name).countP (Message.lists p) = 0 := by
  unfold toldOnReconnection toldOnHandover
  split
  · by_cases hq : q = p <;>
      simp [answers_compose, lists_compose, hq, H_S_NACK, H_S_PL_LIST_ANS]
  · split
    · split
      · dsimp only
        split <;> simp [answers_compose, lists_compose, H_S_ACK, H_S_NACK, H_S_NACK_REAS,
          H_S_GAME_CON, H_S_PL_LIST_ANS]
      · simp
    · by_cases hq : q = p <;>
        simp [answers_compose, lists_compose, hq, H_S_NACK, H_S_PL_LIST_ANS]

theorem count_listRequest :
    (toldOnListRequest s q).countP (Message.answers p) = 0 ∧
      (toldOnListRequest s q).countP (Message.lists p) = if q = p then 1 else 0 := by
  unfold toldOnListRequest
  by_cases hq : q = p <;>
    simp [answers_compose, lists_compose, hq, H_S_ACK, H_S_NACK, H_S_NACK_REAS, H_S_PL_LIST_ANS]

/-- Neither answers nor lists. -/
def Silent (p : PlayerRef) (messages : List Message) : Prop :=
  messages.countP (Message.answers p) = 0 ∧ messages.countP (Message.lists p) = 0

theorem silent_nil : Silent p [] := ⟨rfl, rfl⟩

theorem silent_accept : Silent p (toldOnAccept s q) := by
  unfold toldOnAccept
  split
  · exact silent_nil
  · split_ifs <;> simp [Silent, answers_compose, lists_compose, reasons_differ, H_S_ACK, H_S_NACK,
      H_S_NACK_REAS, H_S_GAME_START, H_S_PL_LIST_ANS]

theorem silent_decline : Silent p (toldOnDecline s q) := by
  unfold toldOnDecline
  split
  · exact silent_nil
  · split_ifs <;> simp [Silent, answers_compose, lists_compose, reasons_differ, H_S_ACK, H_S_NACK,
      H_S_NACK_REAS, H_S_PL_LIST_ANS]

theorem silent_move (m : Move) : Silent p (toldOnMove s q m) := by
  unfold toldOnMove
  split
  · exact silent_nil
  · dsimp only
    split_ifs <;> simp [Silent, answers_compose, lists_compose, H_S_ACK, H_S_NACK, H_S_NACK_REAS,
      H_S_GAME_WON, H_S_GAME_MOVE, H_S_PL_LIST_ANS]

theorem silent_logout : Silent p (toldOnLogout s q) := by
  unfold toldOnLogout
  split
  · exact silent_nil
  · dsimp only
    split_ifs <;> simp [Silent, answers_compose, lists_compose, H_S_ACK, H_S_NACK, H_S_NACK_REAS,
      H_S_GAME_ENDED, H_S_PL_LIST_ANS]

theorem silent_loss : Silent p (toldOnLoss s q) := by
  unfold toldOnLoss
  split
  · exact silent_nil
  · dsimp only
    split_ifs <;> simp [Silent, answers_compose, lists_compose, H_S_ACK, H_S_NACK, H_S_NACK_REAS,
      H_S_PL_LOSS, H_S_PL_LIST_ANS]

end Told

/-- A request of `p` counts. -/
theorem requests_singleton {kinds : List UInt32} {p q : PlayerRef} {command : Command}
    (sender : command.message.player = some q) : requests kinds p [command]
      = if q = p ∧ command.message.header ∈ kinds then 1 else 0 := by
  simp [requests, Command.asks, sender, List.countP_cons]

/-- What handling a command adds to the answers and to the lists. -/
structure AnsweredOnce (p : PlayerRef) (command : Command) (messages : List Message) : Prop where
  atLeast : requests [H_C_NEW_PL, H_C_JOIN_PLAYER] p [command]
    ≤ messages.countP (Message.answers p)
  atMost : messages.countP (Message.answers p)
    ≤ requests [H_C_NEW_PL, H_C_JOIN_PLAYER, H_C_PL_RECONN] p [command]
  lists : messages.countP (Message.lists p) = requests [H_C_PL_LIST_REQ] p [command]

theorem answeredOnce_told (s : State) (p : PlayerRef) (command : Command) :
    AnsweredOnce p command (told s command.message) := by
  unfold told
  cases hplayer : command.message.player with
  | none =>
    have hnone : ∀ kinds, requests kinds p [command] = 0 := fun kinds => by
      simp [requests, Command.asks, hplayer]
    exact ⟨by simp [hnone], by simp [hnone], by simp [hnone]⟩
  | some q =>
    have hasks : ∀ kinds, command.message.header ∈ kinds →
        requests kinds p [command] = if q = p then 1 else 0 := fun kinds hmem => by
      rw [requests_singleton hplayer]
      simp only [hmem, and_true]
    have hnot : ∀ kinds, command.message.header ∉ kinds → requests kinds p [command] = 0 :=
      fun kinds hmem => by rw [requests_singleton hplayer, if_neg fun h => hmem h.2]
    have silent : ∀ {messages : List Message},
        command.message.header ∉ [H_C_NEW_PL, H_C_JOIN_PLAYER, H_C_PL_RECONN, H_C_PL_LIST_REQ] →
        Silent p messages → AnsweredOnce p command messages := by
      intro messages hother hsilent
      simp only [List.mem_cons, not_or] at hother
      exact ⟨by rw [hnot _ (by simp [hother])]; exact Nat.zero_le _,
        by rw [hsilent.1]; exact Nat.zero_le _, by rw [hsilent.2, hnot _ (by simp [hother])]⟩
    dsimp only
    split_ifs with h₁ h₂ h₃ h₄ h₅ h₆ h₇ h₈ h₉
    · obtain ⟨hanswers, hlists⟩ := count_registration (s := s) (p := p) (q := q)
        (command.message.firstName.getD [])
      exact ⟨by rw [hanswers, hasks _ (by rw [h₁]; decide)],
        by rw [hanswers, hasks _ (by rw [h₁]; decide)],
        by rw [hlists, hnot _ (by rw [h₁]; decide)]⟩
    · obtain ⟨hanswers, hlists⟩ := count_reconnection (s := s) (p := p) (q := q)
        (command.message.firstName.getD [])
      exact ⟨by rw [hnot _ (by rw [h₂]; decide)]; exact Nat.zero_le _,
        by rw [hasks _ (by rw [h₂]; decide)]; exact hanswers,
        by rw [hlists, hnot _ (by rw [h₂]; decide)]⟩
    · obtain ⟨hanswers, hlists⟩ := count_listRequest (s := s) (p := p) (q := q)
      exact ⟨by rw [hnot _ (by rw [h₃]; decide)]; exact Nat.zero_le _,
        by rw [hanswers]; exact Nat.zero_le _, by rw [hlists, hasks _ (by rw [h₃]; decide)]⟩
    · exact silent (by rw [h₄]; decide) silent_logout
    · obtain ⟨hanswers, hlists⟩ := count_joining (s := s) (p := p) (q := q)
        (command.message.firstName.getD [])
      exact ⟨by rw [hanswers, hasks _ (by rw [h₅]; decide)],
        by rw [hanswers, hasks _ (by rw [h₅]; decide)],
        by rw [hlists, hnot _ (by rw [h₅]; decide)]⟩
    · exact silent (by rw [h₆]; decide) silent_decline
    · exact silent (by rw [h₇]; decide) silent_accept
    · cases command.message.move with
      | none => exact silent (by rw [h₈]; decide) silent_nil
      | some m => exact silent (by rw [h₈]; decide) (silent_move m)
    · exact silent (by rw [h₉]; decide) silent_loss
    · exact silent (by simp [h₁, h₂, h₃, h₅]) silent_nil

/-! ## Nothing is lost between the queues -/

/-- The command that a step handles. -/
def handledBy (s : State) : Action → List Command
  | .runCommand => s.commandQueue.head?.toList
  | _ => []

@[simp] theorem requests_nil (kinds : List UInt32) (p : PlayerRef) : requests kinds p [] = 0 :=
  rfl

theorem requests_append (kinds : List UInt32) (p : PlayerRef) (commands more : List Command) :
    requests kinds p (commands ++ more) = requests kinds p commands + requests kinds p more :=
  List.countP_append

theorem requests_of_one {kinds : List UInt32} (internal : INTERNAL_PL_LOST ∉ kinds)
    (p : PlayerRef) {s t : State} {extra : List Command} (h : QueuesOne s t extra) :
    requests kinds p extra = 0 := by
  rcases h.one with rfl | ⟨pl, rfl⟩
  · rfl
  · simp [requests, Command.asks, Server.lostMessage, Message.withPlayer, Message.new, internal]

/-- Requests are in the queue from the moment they are handed over until they are handled. -/
theorem requests_exec {s t : State} {a : Action} (kinds : List UInt32)
    (internal : INTERNAL_PL_LOST ∉ kinds) (p : PlayerRef) (enabled : System.Enabled s a)
    (exec : System.exec s a = .ok t) :
    requests kinds p t.handedLog + requests kinds p s.commandQueue
      = requests kinds p s.handedLog + requests kinds p t.commandQueue
        + requests kinds p (handledBy s a) := by
  have hclosed : ∀ {u : State} {fd : Int}, Disconnection u fd t → u.commandQueue = s.commandQueue →
      u.handedLog = s.handedLog → handledBy s a = [] →
      requests kinds p t.handedLog + requests kinds p s.commandQueue
        = requests kinds p s.handedLog + requests kinds p t.commandQueue
          + requests kinds p (handledBy s a) := by
    intro u fd closed hqueue hlog hnone
    obtain ⟨extra, hextra⟩ := QueuesOne.of_disconnection closed
    rw [closed.sameTraffic.handedLog, hextra.queue, hqueue, hlog, hnone, requests_append,
      requests_of_one internal p hextra]
    rfl
  cases a with
  | accept fd nameSet =>
    simp only [System.exec, Server.acceptConnection] at exec
    split at exec
    · cases exec
    · obtain rfl := Except.ok.inj exec
      rfl
  | receive fd data =>
    obtain ⟨_, _, exec⟩ := bind_eq_ok_iff.mp exec
    obtain rfl := Except.ok.inj exec
    rfl
  | peerClosed fd => exact hclosed (Server.disconnection_effect exec) rfl rfl rfl
  | popPacket =>
    obtain rfl := Except.ok.inj exec
    unfold PacketManager.popPacket
    split <;> rfl
  | resolvePacket =>
    simp only [System.exec] at exec
    split at exec
    · rcases resolvePacket_eq_ok exec with ⟨mess, _, rfl⟩ | ⟨_, hinvalid⟩
      · rfl
      · rcases countInvalid_eq_ok hinvalid with rfl | ⟨q, rfl | hended⟩
        · rfl
        · rfl
        · exact hclosed hended rfl rfl rfl
    · obtain rfl := Except.ok.inj exec
      rfl
  | registerResolved =>
    simp only [System.exec] at exec
    split at exec
    · obtain rfl := Except.ok.inj exec
      simp only [PacketManager.registerResolved, requests_append, handledBy, requests_nil]
      omega
    · obtain rfl := Except.ok.inj exec
      rfl
  | runCommand =>
    obtain ⟨command, rest, hqueue⟩ := List.exists_cons_of_ne_nil enabled
    rw [exec_runCommand hqueue] at exec
    have heffect := dispatch_effect exec
    obtain ⟨extra, hextra, -⟩ := QueuesOne.of_effect heffect
    have hlog : t.handedLog = s.handedLog := heffect.sameTraffic.handedLog
    have hrest : t.commandQueue = rest ++ extra := hextra.queue
    have hsplit := requests_append kinds p [command] rest
    rw [List.singleton_append] at hsplit
    simp only [hlog, hrest, hqueue, handledBy, List.head?_cons, Option.toList_some, hsplit,
      requests_append, requests_of_one internal p hextra]
    omega
  | popOutgoing =>
    obtain rfl := Except.ok.inj exec
    unfold Sender.popOutgoing
    split <;> rfl
  | sendOutgoing =>
    obtain rfl := Except.ok.inj exec
    unfold Sender.sendOutgoing
    split <;> rfl

/-- What a step tells answers the command that it handles. -/
theorem answeredOnce_toldBy (s : State) (a : Action) (p : PlayerRef) :
    (toldBy s a = [] ∧ handledBy s a = []) ∨
      ∃ command, handledBy s a = [command] ∧ AnsweredOnce p command (toldBy s a) := by
  cases a with
  | runCommand =>
    cases hqueue : s.commandQueue with
    | nil => exact Or.inl ⟨by simp [toldBy, hqueue], by simp [handledBy, hqueue]⟩
    | cons command rest =>
      refine Or.inr ⟨command, by simp [handledBy, hqueue], ?_⟩
      simp only [toldBy, hqueue]
      exact answeredOnce_told _ p command
  | _ => exact Or.inl ⟨rfl, rfl⟩

/-! ## Every run -/

/-- **Every request is answered once**: of the registrations and the requests for a game that a
    client has made, each waits in the queue or was answered, a reconnection is answered once at
    most, nothing else is answered, and the player list was sent once for each request for it that
    does not wait. -/
theorem requests_are_answered (s : State) (h : System.Reachable s) (p : PlayerRef) :
    requests [H_C_NEW_PL, H_C_JOIN_PLAYER] p s.handedLog
      ≤ s.answered p + requests [H_C_NEW_PL, H_C_JOIN_PLAYER] p s.commandQueue ∧
    s.answered p + requests [H_C_NEW_PL, H_C_JOIN_PLAYER, H_C_PL_RECONN] p s.commandQueue
      ≤ requests [H_C_NEW_PL, H_C_JOIN_PLAYER, H_C_PL_RECONN] p s.handedLog ∧
    s.listed p + requests [H_C_PL_LIST_REQ] p s.commandQueue
      = requests [H_C_PL_LIST_REQ] p s.handedLog := by
  refine Machine.ReachableFrom.invariant h (I := fun s =>
    requests [H_C_NEW_PL, H_C_JOIN_PLAYER] p s.handedLog
      ≤ s.answered p + requests [H_C_NEW_PL, H_C_JOIN_PLAYER] p s.commandQueue ∧
    s.answered p + requests [H_C_NEW_PL, H_C_JOIN_PLAYER, H_C_PL_RECONN] p s.commandQueue
      ≤ requests [H_C_NEW_PL, H_C_JOIN_PLAYER, H_C_PL_RECONN] p s.handedLog ∧
    s.listed p + requests [H_C_PL_LIST_REQ] p s.commandQueue
      = requests [H_C_PL_LIST_REQ] p s.handedLog) ?_ ?_
  · exact ⟨Nat.le_refl _, Nat.le_refl _, rfl⟩
  · intro t u a _ ⟨hleast, hmost, hlists⟩ henabled _ hexec
    obtain ⟨packets, houtbox, hmessages, -⟩ := (appends_exec henabled hexec).outbox
    have hanswered : u.answered p = t.answered p + (toldBy t a).countP (Message.answers p) := by
      rw [State.answered, State.answered, houtbox, List.map_append, List.countP_append, hmessages]
    have hlisted : u.listed p = t.listed p + (toldBy t a).countP (Message.lists p) := by
      rw [State.listed, State.listed, houtbox, List.map_append, List.countP_append, hmessages]
    have hfirst := requests_exec [H_C_NEW_PL, H_C_JOIN_PLAYER] (by decide) p henabled hexec
    have hsecond := requests_exec [H_C_NEW_PL, H_C_JOIN_PLAYER, H_C_PL_RECONN]
      (by decide) p henabled hexec
    have hthird := requests_exec [H_C_PL_LIST_REQ] (by decide) p henabled hexec
    rcases answeredOnce_toldBy t a p with ⟨hnone, hnobody⟩ | ⟨command, hhandled, honce⟩
    · rw [hnone] at hanswered hlisted
      rw [hnobody] at hfirst hsecond hthird
      simp only [List.countP_nil, requests_nil] at hanswered hlisted hfirst hsecond hthird
      omega
    · have hleast' := honce.atLeast
      have hmost' := honce.atMost
      have hlists' := honce.lists
      rw [hhandled] at hfirst hsecond hthird
      omega

/-- `A` asks `B` for a game, and then for the list. -/
def askAndList : List Action :=
  System.registerTwo ++ System.deliver 5 H_C_JOIN_PLAYER [.str [66]] ++
    System.deliver 5 H_C_PL_LIST_REQ []

/-- `A` was answered twice, and was sent the list once. -/
theorem requests_are_answered_listed :
    requests [H_C_NEW_PL, H_C_JOIN_PLAYER] 0 (System.after askAndList).handedLog = 2 ∧
      (System.after askAndList).answered 0 = 2 ∧ (System.after askAndList).listed 0 = 1 := by
  have hrun : requests [H_C_NEW_PL, H_C_JOIN_PLAYER] 0 (System.after askAndList).handedLog = 2 ∧
      requests [H_C_NEW_PL, H_C_JOIN_PLAYER, H_C_PL_RECONN] 0
        (System.after askAndList).handedLog = 2 ∧
      requests [H_C_PL_LIST_REQ] 0 (System.after askAndList).handedLog = 1 ∧
      (System.after askAndList).commandQueue = [] := by decide +kernel
  obtain ⟨hhanded, hhanded', hlist, hqueue⟩ := hrun
  obtain ⟨hleast, hmost, hlisted⟩ :=
    requests_are_answered (System.after askAndList) (System.reachable_after askAndList) 0
  rw [hqueue] at hleast hmost hlisted
  simp only [requests_nil, Nat.add_zero] at hleast hmost hlisted
  exact ⟨hhanded, by omega, hlisted.trans hlist⟩

end UpsServer
