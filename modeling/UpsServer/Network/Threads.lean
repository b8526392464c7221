import UpsServer.Datatypes.ConcurrentQueue
import UpsServer.Network.Framing

/-!
# The loops of the threads

`System` takes an item from a queue only when there is one. The loops of the source test that in a
step of its own: `empty()` and `pop()` are two critical sections, and the other threads may push in
between. This module splits the two, shows that the finer machine runs like the coarser one, and
follows the packets of a connection through both queues to the commands that are executed.
-/

namespace UpsServer

open Framework CommandManager

/-! ## What a step does to the queues -/

/-- Items may have been pushed, and none of the commands among them is made of a packet. -/
structure OnlyPushes (s t : State) : Prop where
  packetQueue : t.packetQueue = s.packetQueue
  readLog : t.readLog = s.readLog
  handedLog : t.handedLog = s.handedLog
  commandQueue : ∃ new, t.commandQueue = s.commandQueue ++ new ∧ ∀ c ∈ new, c.origin = none
  pQueue : ∃ new, t.pQueue = s.pQueue ++ new

namespace OnlyPushes

variable {s t : State}

/-- Nothing is pushed. -/
theorem of_eq (packetQueue : t.packetQueue = s.packetQueue) (readLog : t.readLog = s.readLog)
    (handedLog : t.handedLog = s.handedLog) (commandQueue : t.commandQueue = s.commandQueue)
    (pQueue : t.pQueue = s.pQueue) : OnlyPushes s t where
  packetQueue := packetQueue
  readLog := readLog
  handedLog := handedLog
  commandQueue := ⟨[], by rw [commandQueue, List.append_nil], by simp⟩
  pQueue := ⟨[], by rw [pQueue, List.append_nil]⟩

/-- Only packets for clients are pushed. -/
theorem of_outgoing (same : SameTraffic s t) (commandQueue : t.commandQueue = s.commandQueue)
    (pQueue : ∃ new, t.pQueue = s.pQueue ++ new) : OnlyPushes s t where
  packetQueue := same.packetQueue
  readLog := same.readLog
  handedLog := same.handedLog
  commandQueue := ⟨[], by rw [commandQueue, List.append_nil], by simp⟩
  pQueue := pQueue

theorem of_disconnection {fd : Int} (closed : Disconnection s fd t) : OnlyPushes s t := by
  cases closed with
  | left => exact of_eq rfl rfl rfl rfl rfl
  | @stays pl =>
    refine ⟨rfl, rfl, rfl, ⟨[⟨Server.lostMessage pl, none⟩], rfl, ?_⟩, ⟨[], ?_⟩⟩
    · intro c hc
      rw [List.mem_singleton.mp hc]
    · rw [List.append_nil]
      rfl

/-- A handler answers, and may end a connection. -/
theorem of_effect {mess : Message} (effect : Effect s mess t) : OnlyPushes s t := by
  have htraffic := effect.sameTraffic
  cases effect with
  | disconnected _ _ _ closed => exact of_disconnection closed
  | ignored | endedLost | bothLost => exact of_eq rfl rfl rfl rfl rfl
  | answered | named | moved | ended | missed => exact of_outgoing htraffic rfl ⟨_, rfl⟩
  | asked | started | won =>
    -- two packets are pushed
    exact of_outgoing htraffic rfl ⟨[_, _], List.append_assoc _ [_] [_]⟩
  | gone | declined => exact of_outgoing htraffic rfl ⟨_, rfl⟩
  | @reconnected newP oldP _ _ game _ first second players =>
    obtain ⟨f, hf, _⟩ := takeOverSeat_eq (takeOverName s newP oldP) newP game
    rw [handedOver, hf] at htraffic ⊢
    exact of_outgoing htraffic rfl ⟨[first, second], List.append_assoc _ [first] [second]⟩

end OnlyPushes

/-- What is left of a queue when a step pops an item or not. -/
def leftOver {α : Type*} (pops : Bool) (queue : List α) : List α :=
  if pops then queue.tail else queue

/-- How a step moves the queues: the loop that takes the step may pop an item, everything else
    goes to the ends. What is made of packets is logged when it is pushed. -/
structure QueuesMove (s : State) (a : Action) (t : State) : Prop where
  packets : ∃ new, t.packetQueue = leftOver (a = .popPacket) s.packetQueue ++ new ∧
    t.readLog = s.readLog ++ new
  commands : ∃ new handed, t.commandQueue = leftOver (a = .runCommand) s.commandQueue ++ new ∧
    t.handedLog = s.handedLog ++ handed ∧ ∀ p, messagesOf p new = messagesOf p handed
  outgoing : ∃ new, t.pQueue = leftOver (a = .popOutgoing) s.pQueue ++ new

/-- Commands without an origin belong to no connection. -/
theorem messagesOf_eq_nil {p : PlayerRef} {commands : List Command}
    (internal : ∀ c ∈ commands, c.origin = none) : messagesOf p commands = [] := by
  have hfilter : commands.filter (fun command => command.origin == some p) = [] := by
    apply List.filter_eq_nil_iff.mpr
    intro c hc
    simp [internal c hc]
  rw [messagesOf, hfilter]
  rfl

/-- A step that pops nothing and only pushes. -/
theorem OnlyPushes.queuesMove {s t : State} {a : Action} (h : OnlyPushes s t)
    (noPop : a ≠ .popPacket ∧ a ≠ .runCommand ∧ a ≠ .popOutgoing) : QueuesMove s a t := by
  obtain ⟨hpacket, hcommand, houtgoing⟩ := noPop
  obtain ⟨new, hcommands, hinternal⟩ := h.commandQueue
  obtain ⟨sent, hsent⟩ := h.pQueue
  refine ⟨⟨[], ?_, ?_⟩, ⟨new, [], ?_, ?_, ?_⟩, ⟨sent, ?_⟩⟩
  · simp [leftOver, hpacket, h.packetQueue]
  · rw [h.readLog, List.append_nil]
  · simp [leftOver, hcommand, hcommands]
  · rw [h.handedLog, List.append_nil]
  · intro p
    rw [messagesOf_eq_nil hinternal]
    rfl
  · simp [leftOver, houtgoing, hsent]

/-- Every step moves the queues like that. -/
theorem queues_move {s t : State} {a : Action} (h : System.exec s a = .ok t) :
    QueuesMove s a t := by
  have same : t = s → OnlyPushes s t := fun heq => heq ▸ .of_eq rfl rfl rfl rfl rfl
  cases a with
  | accept fd nameSet =>
    simp only [System.exec, Server.acceptConnection] at h
    split at h
    · cases h
    · rw [← Except.ok.inj h]
      exact OnlyPushes.queuesMove (.of_eq rfl rfl rfl rfl rfl) (by simp)
  | receive fd data =>
    obtain ⟨owner, _, h⟩ := bind_eq_ok_iff.mp h
    rw [← Except.ok.inj h]
    refine ⟨⟨[Server.processData fd owner data], rfl, rfl⟩, ⟨[], [], ?_, ?_, fun _ => rfl⟩,
      ⟨[], ?_⟩⟩
    all_goals simp [leftOver]
  | peerClosed fd =>
    exact (OnlyPushes.of_disconnection (Server.disconnection_effect h)).queuesMove (by simp)
  | popPacket =>
    rw [← Except.ok.inj h]
    unfold PacketManager.popPacket
    split
    · rename_i hqueue
      exact ⟨⟨[], by simp [leftOver, hqueue]⟩, ⟨[], [], by simp [leftOver]⟩,
        ⟨[], by simp [leftOver]⟩⟩
    · rename_i hqueue
      exact ⟨⟨[], by simp [leftOver, hqueue]⟩, ⟨[], [], by simp [leftOver]⟩,
        ⟨[], by simp [leftOver]⟩⟩
  | resolvePacket =>
    simp only [System.exec] at h
    split at h
    · rename_i packet _
      rcases resolvePacket_eq_ok h with ⟨mess, _, rfl⟩ | ⟨_, hinvalid⟩
      · exact OnlyPushes.queuesMove (.of_eq rfl rfl rfl rfl rfl) (by simp)
      · rcases countInvalid_eq_ok hinvalid with rfl | ⟨p, rfl | hclosed⟩
        · exact OnlyPushes.queuesMove (.of_eq rfl rfl rfl rfl rfl) (by simp)
        · exact OnlyPushes.queuesMove (.of_eq rfl rfl rfl rfl rfl) (by simp)
        · -- the tenth invalid packet ends the connection
          have hpushes := OnlyPushes.of_disconnection hclosed
          have hpushes' : OnlyPushes s t := ⟨hpushes.1, hpushes.2, hpushes.3, hpushes.4, hpushes.5⟩
          exact hpushes'.queuesMove (by simp)
    · exact (same (Except.ok.inj h).symm).queuesMove (by simp)
  | registerResolved =>
    simp only [System.exec] at h
    split at h
    · rename_i command _
      rw [← Except.ok.inj h]
      refine ⟨⟨[], ?_⟩, ⟨[command], [command], rfl, rfl, fun _ => rfl⟩, ⟨[], ?_⟩⟩
      all_goals simp [leftOver, PacketManager.registerResolved]
    · exact (same (Except.ok.inj h).symm).queuesMove (by simp)
  | runCommand =>
    simp only [System.exec, System.runCommand] at h
    split at h
    · rename_i hqueue
      obtain rfl := Except.ok.inj h
      exact ⟨⟨[], by simp [leftOver]⟩, ⟨[], [], by simp [leftOver, hqueue]⟩,
        ⟨[], by simp [leftOver]⟩⟩
    · rename_i command rest hqueue
      have hpushes : OnlyPushes (s.withCommands rest) t := .of_effect (dispatch_effect h)
      obtain ⟨new, hcommands, hinternal⟩ := hpushes.commandQueue
      obtain ⟨sent, hsent⟩ := hpushes.pQueue
      refine ⟨⟨[], ?_, ?_⟩, ⟨new, [], ?_, ?_, ?_⟩, ⟨sent, ?_⟩⟩
      · simpa [leftOver] using hpushes.packetQueue
      · simpa using hpushes.readLog
      · simpa [leftOver, hqueue] using hcommands
      · simpa using hpushes.handedLog
      · intro p
        rw [messagesOf_eq_nil hinternal]
        rfl
      · simpa [leftOver] using hsent
  | popOutgoing =>
    rw [← Except.ok.inj h]
    unfold Sender.popOutgoing
    split
    · rename_i hqueue
      exact ⟨⟨[], by simp [leftOver]⟩, ⟨[], [], by simp [leftOver]⟩,
        ⟨[], by simp [leftOver, hqueue]⟩⟩
    · rename_i hqueue
      exact ⟨⟨[], by simp [leftOver]⟩, ⟨[], [], by simp [leftOver]⟩,
        ⟨[], by simp [leftOver, hqueue]⟩⟩
  | sendOutgoing =>
    rw [← Except.ok.inj h]
    unfold Sender.sendOutgoing
    split <;> exact OnlyPushes.queuesMove (.of_eq rfl rfl rfl rfl rfl) (by simp)

/-! ## Checking and popping as two steps -/

/-- The loops that consume a queue. -/
inductive Loop where
  | packetManager
  | commandManager
  | sender
  deriving DecidableEq, Repr

/-- A step of one thread: a loop looks whether its queue is empty, or one of the other steps is
    taken, a pop among them. -/
inductive ThreadStep where
  | check (loop : Loop)
  | step (a : Action)
  deriving DecidableEq, Repr

/-- The state of the server, and for every queue what its loop saw and what went through it. -/
structure Threads where
  state : State
  packets : ConcurrentQueue.History Packet
  commands : ConcurrentQueue.History Command
  outgoing : ConcurrentQueue.History OutPacket

/-- What ends a run of the threads. -/
inductive ThreadFault where
  | queue (fault : QueueFault)
  | server (fault : Fault)
  deriving DecidableEq, Repr

namespace Threads

/-- Nothing has happened. -/
def initial : Threads := ⟨State.initial, .nothing, .nothing, .nothing⟩

/-- `packetQueue` and its history. -/
def packetQueue (t : Threads) : ConcurrentQueue.Shared Packet := ⟨t.packets, t.state.packetQueue⟩

/-- `commandQueue` and its history. -/
def commandQueue (t : Threads) : ConcurrentQueue.Shared Command :=
  ⟨t.commands, t.state.commandQueue⟩

/-- `pQueue` and its history. -/
def pQueue (t : Threads) : ConcurrentQueue.Shared OutPacket := ⟨t.outgoing, t.state.pQueue⟩

/-- When a step can be taken. A loop pops when it saw its queue non-empty, whatever is in the queue
    by then, and checks again when it is done with the item. -/
def Enabled (t : Threads) : ThreadStep → Prop
  | .check .packetManager => t.state.packetStage.isIdle = true ∧ t.packets.seen = false
  | .check .commandManager => t.commands.seen = false
  | .check .sender => t.state.senderHand = none ∧ t.outgoing.seen = false
  | .step .popPacket => t.state.packetStage.isIdle = true ∧ t.packets.seen = true
  | .step .runCommand => t.commands.seen = true
  | .step .popOutgoing => t.state.senderHand = none ∧ t.outgoing.seen = true
  | .step a => System.Enabled t.state a

instance (t : Threads) : (step : ThreadStep) → Decidable (t.Enabled step)
  | .check .packetManager | .check .sender => inferInstanceAs (Decidable (_ ∧ _))
  | .check .commandManager => inferInstanceAs (Decidable (_ = false))
  | .step .popPacket | .step .popOutgoing => inferInstanceAs (Decidable (_ ∧ _))
  | .step .runCommand => inferInstanceAs (Decidable (_ = true))
  | .step (.accept fd nameSet) =>
    inferInstanceAs (Decidable (System.Enabled t.state (.accept fd nameSet)))
  | .step (.receive fd data) =>
    inferInstanceAs (Decidable (System.Enabled t.state (.receive fd data)))
  | .step (.peerClosed fd) => inferInstanceAs (Decidable (System.Enabled t.state (.peerClosed fd)))
  | .step .resolvePacket => inferInstanceAs (Decidable (System.Enabled t.state .resolvePacket))
  | .step .registerResolved =>
    inferInstanceAs (Decidable (System.Enabled t.state .registerResolved))
  | .step .sendOutgoing => inferInstanceAs (Decidable (System.Enabled t.state .sendOutgoing))

/-- The step pops an empty queue. -/
def popsEmpty (s : State) : Action → Bool
  | .popPacket => ConcurrentQueue.empty s.packetQueue
  | .runCommand => ConcurrentQueue.empty s.commandQueue
  | .popOutgoing => ConcurrentQueue.empty s.pQueue
  | _ => false

/-- What a step does. -/
def exec (t : Threads) : ThreadStep → Except ThreadFault Threads
  | .check .packetManager => .ok { t with packets := t.packets.look t.state.packetQueue }
  | .check .commandManager => .ok { t with commands := t.commands.look t.state.commandQueue }
  | .check .sender => .ok { t with outgoing := t.outgoing.look t.state.pQueue }
  | .step a =>
    if popsEmpty t.state a then .error (.queue .emptyPop)
    else do
      let s ← (System.exec t.state a).mapError .server
      return {
        state := s
        packets := t.packets.advance (a = .popPacket) t.state.packetQueue s.packetQueue
        commands := t.commands.advance (a = .runCommand) t.state.commandQueue s.commandQueue
        outgoing := t.outgoing.advance (a = .popOutgoing) t.state.pQueue s.pQueue }

/-- The threads as a machine. -/
def machine : Machine Threads ThreadStep ThreadFault := ⟨initial, Enabled, exec⟩

instance (t : Threads) (step : ThreadStep) : Decidable (machine.Enabled t step) :=
  inferInstanceAs (Decidable (Enabled t step))

/-- A step of the server in the finer machine. -/
theorem exec_step_eq_ok {t t' : Threads} {a : Action} (h : t.exec (.step a) = .ok t') :
    popsEmpty t.state a = false ∧ System.exec t.state a = .ok t'.state ∧
      t'.packets = t.packets.advance (a = .popPacket) t.state.packetQueue t'.state.packetQueue ∧
      t'.commands = t.commands.advance (a = .runCommand) t.state.commandQueue
        t'.state.commandQueue ∧
      t'.outgoing = t.outgoing.advance (a = .popOutgoing) t.state.pQueue t'.state.pQueue := by
  simp only [exec] at h
  split at h
  · cases h
  · rename_i hpops
    obtain ⟨s, hs, h⟩ := bind_eq_ok_iff.mp h
    obtain rfl := Except.ok.inj h
    exact ⟨by simpa using hpops, mapError_eq_ok_iff.mp hs, rfl, rfl, rfl⟩

/-! ## Every queue is a concurrent queue -/

/-- The threads, seen from one queue, are producers and a consumer: a check is a check or nothing,
    and every other step pops, if it is the pop of this queue, and pushes. -/
theorem queue_reachable {α : Type} (history : Threads → ConcurrentQueue.History α)
    (queue : State → List α) (pop : Action) {t : Threads} (h : machine.Reachable t)
    (start : history initial = .nothing ∧ queue State.initial = [])
    (checks : ∀ t t' loop, t.Enabled (.check loop) → t.exec (.check loop) = .ok t' →
      queue t'.state = queue t.state ∧ (history t' = history t ∨
        (history t).seen = false ∧ history t' = (history t).look (queue t.state)))
    (pops : ∀ t, t.Enabled (.step pop) → popsEmpty t.state pop = false →
      (history t).seen = true ∧ queue t.state ≠ [])
    (advances : ∀ t t' a, t.exec (.step a) = .ok t' → history t'
      = (history t).advance (a = pop) (queue t.state) (queue t'.state))
    (moves : ∀ s a s', System.exec s a = .ok s' →
      ∃ new, queue s' = leftOver (a = pop) (queue s) ++ new) :
    (ConcurrentQueue.machine Unit α).Reachable ⟨history t, queue t.state⟩ := by
  let view (t : Threads) : ConcurrentQueue.Shared α := ⟨history t, queue t.state⟩
  have hstart : view initial = ⟨.nothing, []⟩ := by
    show ConcurrentQueue.Shared.mk (history initial) (queue State.initial) = _
    rw [start.1, start.2]
  have hrun : (ConcurrentQueue.machine Unit α).ReachableFrom Machine.Unguarded (view initial)
      (view t) := by
    apply h.simulate view
    intro t t' step _ henabled _ hexec
    show (ConcurrentQueue.machine Unit α).ReachableFrom Machine.Unguarded
      ⟨history t, queue t.state⟩ ⟨history t', queue t'.state⟩
    cases step with
    | check loop =>
      obtain ⟨hqueue, hsame | ⟨hseen, hlook⟩⟩ := checks t t' loop henabled hexec
      · rw [hqueue, hsame]
        exact .refl
      · rw [hqueue, hlook]
        exact .step .refl (a := .check) hseen trivial rfl
    | step a =>
      obtain ⟨hpops, hstep, -, -, -⟩ := exec_step_eq_ok hexec
      obtain ⟨new, hqueue⟩ := moves t.state a t'.state hstep
      rw [advances t t' a hexec]
      refine ConcurrentQueue.History.reachable_advance () (fun hpop => ?_) hqueue
      obtain rfl : a = pop := of_decide_eq_true hpop
      exact pops t henabled hpops
  rw [hstart] at hrun
  exact hrun

theorem packetQueue_reachable {t : Threads} (h : machine.Reachable t) :
    (ConcurrentQueue.machine Unit Packet).Reachable t.packetQueue := by
  apply queue_reachable packets State.packetQueue .popPacket h ⟨rfl, rfl⟩
  · intro t t' loop henabled hexec
    cases loop with
    | packetManager =>
      obtain rfl := Except.ok.inj hexec
      exact ⟨rfl, Or.inr ⟨henabled.2, rfl⟩⟩
    | commandManager | sender =>
      obtain rfl := Except.ok.inj hexec
      exact ⟨rfl, Or.inl rfl⟩
  · intro t henabled hpops
    exact ⟨henabled.2, by simpa [popsEmpty, ConcurrentQueue.empty] using hpops⟩
  · intro t t' a hexec
    exact (exec_step_eq_ok hexec).2.2.1
  · intro s a s' hexec
    obtain ⟨new, hqueue, -⟩ := (queues_move hexec).packets
    exact ⟨new, hqueue⟩

theorem commandQueue_reachable {t : Threads} (h : machine.Reachable t) :
    (ConcurrentQueue.machine Unit Command).Reachable t.commandQueue := by
  apply queue_reachable commands State.commandQueue .runCommand h ⟨rfl, rfl⟩
  · intro t t' loop henabled hexec
    cases loop with
    | commandManager =>
      obtain rfl := Except.ok.inj hexec
      exact ⟨rfl, Or.inr ⟨henabled, rfl⟩⟩
    | packetManager | sender =>
      obtain rfl := Except.ok.inj hexec
      exact ⟨rfl, Or.inl rfl⟩
  · intro t henabled hpops
    exact ⟨henabled, by simpa [popsEmpty, ConcurrentQueue.empty] using hpops⟩
  · intro t t' a hexec
    exact (exec_step_eq_ok hexec).2.2.2.1
  · intro s a s' hexec
    obtain ⟨new, _, hqueue, -⟩ := (queues_move hexec).commands
    exact ⟨new, hqueue⟩

theorem pQueue_reachable {t : Threads} (h : machine.Reachable t) :
    (ConcurrentQueue.machine Unit OutPacket).Reachable t.pQueue := by
  apply queue_reachable outgoing State.pQueue .popOutgoing h ⟨rfl, rfl⟩
  · intro t t' loop henabled hexec
    cases loop with
    | sender =>
      obtain rfl := Except.ok.inj hexec
      exact ⟨rfl, Or.inr ⟨henabled.2, rfl⟩⟩
    | packetManager | commandManager =>
      obtain rfl := Except.ok.inj hexec
      exact ⟨rfl, Or.inl rfl⟩
  · intro t henabled hpops
    exact ⟨henabled.2, by simpa [popsEmpty, ConcurrentQueue.empty] using hpops⟩
  · intro t t' a hexec
    exact (exec_step_eq_ok hexec).2.2.2.2
  · intro s a s' hexec
    exact (queues_move hexec).outgoing

/-- A pop that a loop may take finds an item, so it is a step that `System` allows. -/
theorem enabled_of_reachable {t : Threads} {a : Action} (h : machine.Reachable t)
    (henabled : t.Enabled (.step a)) :
    System.Enabled t.state a ∧ popsEmpty t.state a = false := by
  have hpackets := (ConcurrentQueue.intact_of_reachable (packetQueue_reachable h)).nonempty
  have hcommands := (ConcurrentQueue.intact_of_reachable (commandQueue_reachable h)).nonempty
  have hout := (ConcurrentQueue.intact_of_reachable (pQueue_reachable h)).nonempty
  cases a with
  | popPacket =>
    have hne : t.state.packetQueue ≠ [] := hpackets henabled.2
    exact ⟨⟨henabled.1, hne⟩, by simpa [popsEmpty, ConcurrentQueue.empty] using hne⟩
  | runCommand =>
    have hne : t.state.commandQueue ≠ [] := hcommands henabled
    exact ⟨hne, by simpa [popsEmpty, ConcurrentQueue.empty] using hne⟩
  | popOutgoing =>
    have hne : t.state.pQueue ≠ [] := hout henabled.2
    exact ⟨⟨henabled.1, hne⟩, by simpa [popsEmpty, ConcurrentQueue.empty] using hne⟩
  | _ => exact ⟨henabled, rfl⟩

/-- **The threads refine the server**: a run of the threads is a run of `System`. -/
theorem state_reachable {t : Threads} (h : machine.Reachable t) : System.Reachable t.state := by
  refine Machine.ReachableFrom.invariant (I := fun t : Threads => System.Reachable t.state) h .refl
    ?_
  intro t t' step hreach hstate henabled _ hexec
  cases step with
  | check loop =>
    have hsame : t'.state = t.state := by
      cases loop <;> (obtain rfl := Except.ok.inj hexec; rfl)
    rw [hsame]
    exact hstate
  | step a =>
    exact hstate.step (enabled_of_reachable hreach henabled).1 trivial (exec_step_eq_ok hexec).2.1

/-! ## What goes through the queues -/

/-- What was pushed is what was read, and what was made of packets. -/
structure Logged (t : Threads) : Prop where
  packets : t.packets.pushed = t.state.readLog
  commands : ∀ p, messagesOf p t.commands.pushed = messagesOf p t.state.handedLog

/-- What is pushed in a step is what the step adds behind the rest. -/
theorem pushed_advance {α : Type} {history : ConcurrentQueue.History α} {pops : Bool}
    {before after new : List α} (appends : after = leftOver pops before ++ new) :
    (history.advance pops before after).pushed = history.pushed ++ new := by
  have hnew : after.drop (leftOver pops before).length = new := by
    rw [appends, List.drop_left]
  show history.pushed ++ after.drop (leftOver pops before).length = _
  rw [hnew]

theorem logged_of_reachable {t : Threads} (h : machine.Reachable t) : Logged t := by
  apply Machine.ReachableFrom.invariant (I := Logged) h ⟨rfl, fun _ => rfl⟩
  intro t t' step _ hlogged _ _ hexec
  cases step with
  | check loop =>
    cases loop <;> (obtain rfl := Except.ok.inj hexec; exact ⟨hlogged.packets, hlogged.commands⟩)
  | step a =>
    obtain ⟨-, hstep, hpackets, hcommands, -⟩ := exec_step_eq_ok hexec
    have hmove := queues_move hstep
    constructor
    · obtain ⟨new, hqueue, hread⟩ := hmove.packets
      rw [hpackets, pushed_advance hqueue, hlogged.packets, hread]
    · intro p
      obtain ⟨new, handed, hqueue, hlog, hsame⟩ := hmove.commands
      rw [hcommands, pushed_advance hqueue, hlog, messagesOf_append, messagesOf_append,
        hlogged.commands, hsame]

/-- No step pops an empty queue, and of every queue the items taken and those still queued are
    the items pushed, in the order they were pushed. The packets pushed are the chunks read. -/
def HandsOver (t : Threads) : Prop :=
  (∀ step, machine.Enabled t step → machine.exec t step ≠ .error (.queue .emptyPop)) ∧
    t.packets.popped ++ t.state.packetQueue = t.packets.pushed ∧
    t.packets.pushed = t.state.readLog ∧
    t.commands.popped ++ t.state.commandQueue = t.commands.pushed ∧
    t.outgoing.popped ++ t.state.pQueue = t.outgoing.pushed

/-- The commands of a connection that were executed, then those that wait, are what the packets
    received on it decode to, in the order they were received; the last packets received may not
    be decoded yet. -/
def InOrder (t : Threads) (p : PlayerRef) : Prop :=
  ∃ decoded, ofConnection p t.state.readLog = decoded ++ ofConnection p t.state.pendingPackets ∧
    PacketManager.handedOver decoded = .ok (messagesOf p t.commands.popped ++
      messagesOf p (t.state.commandQueue ++ t.state.packetStage.command.toList))

theorem handsOver_of_reachable {t : Threads} (h : machine.Reachable t) : HandsOver t := by
  refine ⟨fun step henabled hfault => ?_,
    (ConcurrentQueue.intact_of_reachable (packetQueue_reachable h)).contents,
    (logged_of_reachable h).packets,
    (ConcurrentQueue.intact_of_reachable (commandQueue_reachable h)).contents,
    (ConcurrentQueue.intact_of_reachable (pQueue_reachable h)).contents⟩
  cases step with
  | check loop => cases loop <;> cases hfault
  | step a =>
    have hpops := (enabled_of_reachable h henabled).2
    simp only [machine, exec, hpops, Bool.false_eq_true, if_false] at hfault
    rcases bind_eq_error_iff.mp hfault with hserver | ⟨_, _, hreturn⟩
    · obtain ⟨_, _, hfault⟩ := mapError_eq_error_iff.mp hserver
      cases hfault
    · cases hreturn

theorem inOrder_of_reachable {t : Threads} (h : machine.Reachable t) (p : PlayerRef) :
    InOrder t p := by
  obtain ⟨decoded, hread, hhanded⟩ := tracked_of_reachable (state_reachable h) p
  refine ⟨decoded, hread, ?_⟩
  -- every command of a connection that was registered is executed or waits
  have hcontents := (ConcurrentQueue.intact_of_reachable (commandQueue_reachable h)).contents
  have hpushed : messagesOf p t.commands.popped ++ messagesOf p t.state.commandQueue
      = messagesOf p t.state.handedLog := by
    rw [← (logged_of_reachable h).commands, ← messagesOf_append]
    exact congrArg (messagesOf p) hcontents
  rw [hhanded, State.madeCommands, messagesOf_append, messagesOf_append, ← List.append_assoc,
    hpushed]

end Threads

/-- **Queue hand-over**: a concurrent queue hands its items over in the order they were pushed,
    however many producers push and whenever they do; so do the three queues of the server, and
    the commands of a connection are executed in the order its packets were received. -/
theorem queues_hand_over {Producer α : Type*} (q : ConcurrentQueue.Shared α)
    (hq : (ConcurrentQueue.machine Producer α).Reachable q) (t : Threads)
    (ht : Threads.machine.Reachable t) :
    ConcurrentQueue.HandsOver Producer q ∧ t.HandsOver ∧ ∀ p, t.InOrder p :=
  ⟨(ConcurrentQueue.intact_of_reachable hq).handsOver, Threads.handsOver_of_reachable ht,
    Threads.inOrder_of_reachable ht⟩

/-- Two producers push; the consumer looks before the second push and pops after it. -/
def pushBetween : List (ConcurrentQueue.Step ℕ ℕ) := [.push 0 10, .check, .push 1 11, .pop]

/-- A client connects and sends two chunks; both go through both queues. -/
def executeTwo : List ThreadStep :=
  [.step (.accept 5 false), .step (.receive 5 (System.clientPacket H_C_NEW_PL [.str [65]])),
    .step (.receive 5 (System.clientPacket H_C_PL_LIST_REQ [])),
    .check .packetManager, .step .popPacket, .step .resolvePacket, .step .registerResolved,
    .check .packetManager, .step .popPacket, .step .resolvePacket, .step .registerResolved,
    .check .commandManager, .step .runCommand, .check .commandManager, .step .runCommand]

/-- The player registers before it asks for the list, and the two commands are executed so. -/
theorem queues_hand_over_two :
    ((ConcurrentQueue.machine ℕ ℕ).after Machine.Unguarded pushBetween).popped = [10] ∧
      (Threads.machine.after Machine.Unguarded executeTwo).commands.popped.map
          (fun command => command.message.header) = [H_C_NEW_PL, H_C_PL_LIST_REQ] ∧
      ConcurrentQueue.HandsOver ℕ
        ((ConcurrentQueue.machine ℕ ℕ).after Machine.Unguarded pushBetween) ∧
      (Threads.machine.after Machine.Unguarded executeTwo).HandsOver ∧
      (Threads.machine.after Machine.Unguarded executeTwo).InOrder 0 := by
  have hover := queues_hand_over _
    (Machine.reachableUnder_after (M := ConcurrentQueue.machine ℕ ℕ) pushBetween) _
    (Machine.reachableUnder_after (M := Threads.machine) executeTwo)
  exact ⟨by decide, by decide +kernel, hover.1, hover.2.1, hover.2.2 0⟩

end UpsServer
