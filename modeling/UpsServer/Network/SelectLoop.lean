import UpsServer.Network.Departures
import UpsServer.Network.Workload

/-!
# The loop of the server thread

`System` takes the steps of `Server::run` on one descriptor at any time. The source takes them in
rounds: `select` returns the descriptors that are ready, and a loop over all descriptors handles
the ready ones. The other threads go on meanwhile, and may close a descriptor that the round has
still to visit. Then `ioctl` fails, and `readSize` is still what it was before.
-/

namespace UpsServer

open Framework

/-! ## Rounds -/

/-- `Server::run` between two of its steps, and the rest of the server. -/
structure ServerLoop where
  state : State
  /-- The variable of the loop; `FD_SETSIZE` when the round is over. -/
  fd : Nat
  readSocks : List Int
  readSize : Int

/-- A step of `Server::run` with the answer of the kernel, or a step of another thread. -/
inductive LoopStep where
  /-- `select` returns the descriptors that are ready. -/
  | select (ready : List Int)
  /-- `FD_ISSET` is false. -/
  | skip
  /-- The server socket is ready, and `accept` returns a descriptor. -/
  | accept (clientSocket : Int) (nameSet : Bool)
  /-- `ioctl` reports data, and `recv` reads it. -/
  | read (data : ByteString)
  /-- `ioctl` reports that nothing is left to read. -/
  | empty
  /-- `ioctl` fails, because the descriptor is closed. -/
  | fail
  /-- Another thread takes a step. -/
  | other (a : Action)
  deriving DecidableEq, Repr

namespace ServerLoop

/-- The first descriptor that the loop visits. -/
def firstFd : Nat := 3

/-- `FD_SETSIZE`. -/
def lastFd : Nat := 1024

/-- `FD_ISSET(fd, &clientSocks)`. -/
def Watched (serverSocket : Int) (s : State) (fd : Int) : Prop :=
  fd = serverSocket ∨ s.descriptors fd ≠ none

instance (serverSocket : Int) (s : State) (fd : Int) : Decidable (Watched serverSocket s fd) :=
  inferInstanceAs (Decidable (_ ∨ _))

/-- The loop stands at a descriptor that was ready. -/
def AtReady (t : ServerLoop) : Prop := t.fd < lastFd ∧ (t.fd : Int) ∈ t.readSocks

instance (t : ServerLoop) : Decidable t.AtReady := inferInstanceAs (Decidable (_ ∧ _))

/-- The loop stands at a connection that was ready. -/
def AtConnection (serverSocket : Int) (t : ServerLoop) : Prop :=
  t.AtReady ∧ (t.fd : Int) ≠ serverSocket

instance (serverSocket : Int) (t : ServerLoop) : Decidable (t.AtConnection serverSocket) :=
  inferInstanceAs (Decidable (_ ∧ _))

instance : (a : Action) → Decidable (Inner a)
  | .accept _ _ | .receive _ _ | .peerClosed _ => isFalse id
  | .popPacket | .resolvePacket | .registerResolved | .runCommand | .popOutgoing
  | .sendOutgoing => isTrue trivial

/-- When a step can be taken. -/
def Enabled (serverSocket : Int) (t : ServerLoop) : LoopStep → Prop
  | .select ready => lastFd ≤ t.fd ∧ ready ≠ [] ∧ ∀ fd ∈ ready, Watched serverSocket t.state fd
  | .skip => t.fd < lastFd ∧ (t.fd : Int) ∉ t.readSocks
  | .accept clientSocket _ => t.AtReady ∧ (t.fd : Int) = serverSocket ∧ 0 ≤ clientSocket ∧
      ¬ Watched serverSocket t.state clientSocket
  | .read data => t.AtConnection serverSocket ∧ t.state.descriptors t.fd ≠ none ∧ data ≠ [] ∧
      data.length < 2 ^ 31
  | .empty => t.AtConnection serverSocket ∧ t.state.descriptors t.fd ≠ none
  | .fail => t.AtConnection serverSocket ∧ t.state.descriptors t.fd = none
  | .other a => Inner a ∧ System.Enabled t.state a

instance (serverSocket : Int) (t : ServerLoop) :
    (step : LoopStep) → Decidable (Enabled serverSocket t step)
  | .select _ => inferInstanceAs (Decidable (_ ∧ _ ∧ _))
  | .skip => inferInstanceAs (Decidable (_ ∧ _))
  | .accept _ _ => inferInstanceAs (Decidable (_ ∧ _ ∧ _ ∧ _))
  | .read _ => inferInstanceAs (Decidable (_ ∧ _ ∧ _ ∧ _))
  | .empty => inferInstanceAs (Decidable (_ ∧ _))
  | .fail => inferInstanceAs (Decidable (_ ∧ _))
  | .other _ => inferInstanceAs (Decidable (_ ∧ _))

/-- `fd++`. -/
def next (t : ServerLoop) (s : State) : ServerLoop := { t with state := s, fd := t.fd + 1 }

/-- `recv` fails as well, and the empty buffer is registered. It comes from no connection. -/
def registerBuffer (s : State) (fd : Int) (size : Nat) : State :=
  { s with packetQueue := s.packetQueue ++ [⟨fd, List.replicate size 0, s.playerHeap.next⟩] }

/-- What a step does. -/
def exec (t : ServerLoop) : LoopStep → Except Fault ServerLoop
  | .select ready => .ok { t with fd := firstFd, readSocks := ready }
  | .skip => .ok (t.next t.state)
  | .accept clientSocket nameSet => do
    let s ← Server.acceptConnection t.state clientSocket nameSet
    return t.next s
  | .read data => do
    let s ← Server.readChunk t.state t.fd data
    return { t.next s with readSize := data.length }
  | .empty => do
    let s ← Server.proceedPlayerDisconnection t.state t.fd
    return { t.next s with readSize := 0 }
  | .fail => do
    if 0 < t.readSize then
      return t.next (registerBuffer t.state t.fd t.readSize.toNat)
    else
      let s ← Server.proceedPlayerDisconnection t.state t.fd
      return t.next s
  | .other a => do
    let s ← System.exec t.state a
    return { t with state := s }

/-- The server with its loop. The memory of the new thread decides the first value of
    `readSize`. -/
def machine (serverSocket garbage : Int) : Machine ServerLoop LoopStep Fault where
  init := ⟨State.initial, lastFd, [], garbage⟩
  Enabled := Enabled serverSocket
  exec := exec

instance (serverSocket garbage : Int) (t : ServerLoop) (step : LoopStep) :
    Decidable ((machine serverSocket garbage).Enabled t step) :=
  inferInstanceAs (Decidable (Enabled serverSocket t step))

/-! ## A round visits every ready descriptor once -/

/-- The descriptors that the loop has handled since `select` returned. -/
def recordVisit (t : ServerLoop) (step : LoopStep) (visited : List Nat) : List Nat :=
  match step with
  | .select _ => []
  | .skip | .other _ => visited
  | .accept _ _ | .read _ | .empty | .fail => visited ++ [t.fd]

/-- The ready descriptors in front of the loop variable, from the smallest to the largest. -/
def readyBefore (t : ServerLoop) : List Nat :=
  (List.range' firstFd (t.fd - firstFd)).filter fun fd => (fd : Int) ∈ t.readSocks

theorem readyBefore_next {t : ServerLoop} (h : firstFd ≤ t.fd) (s : State) :
    (t.next s).readyBefore
      = t.readyBefore ++ if (t.fd : Int) ∈ t.readSocks then [t.fd] else [] := by
  have hlength : t.fd + 1 - firstFd = (t.fd - firstFd) + 1 := by omega
  have hlast : firstFd + (t.fd - firstFd) = t.fd := by omega
  simp only [readyBefore, next, hlength, List.range'_concat, List.filter_append, Nat.one_mul,
    hlast]
  split <;> rename_i hready <;> simp [hready] <;> rfl

/-- The loop variable is in its range, and what the loop has visited is what was ready. -/
structure InRound (t : ServerLoop) (visited : List Nat) : Prop where
  first : firstFd ≤ t.fd
  last : t.fd ≤ lastFd
  visited : visited = t.readyBefore

namespace InRound

variable {t : ServerLoop} {visited : List Nat}

theorem initial (serverSocket garbage : Int) : InRound (machine serverSocket garbage).init [] :=
  ⟨(by decide : firstFd ≤ lastFd), Nat.le_refl _, by simp [readyBefore, machine]⟩

theorem select (ready : List Int) :
    InRound { t with fd := firstFd, readSocks := ready } [] :=
  ⟨Nat.le_refl _, (by decide : firstFd ≤ lastFd), by simp [readyBefore]⟩

/-- The round goes on with the next descriptor. -/
theorem skip (h : InRound t visited) (more : t.fd < lastFd) (idle : (t.fd : Int) ∉ t.readSocks)
    (s : State) : InRound (t.next s) visited where
  first := Nat.le_succ_of_le h.first
  last := more
  visited := by rw [readyBefore_next h.first, if_neg idle, List.append_nil, h.visited]

theorem visit (h : InRound t visited) (ready : t.AtReady) (s : State) :
    InRound (t.next s) (visited ++ [t.fd]) where
  first := Nat.le_succ_of_le h.first
  last := ready.1
  visited := by rw [readyBefore_next h.first, if_pos ready.2, h.visited]

/-- Only the loop variable and the ready descriptors count. -/
theorem congr {u : ServerLoop} (h : InRound t visited) (fd : u.fd = t.fd)
    (readSocks : u.readSocks = t.readSocks) : InRound u visited := by
  refine ⟨fd ▸ h.first, fd ▸ h.last, h.visited.trans ?_⟩
  rw [readyBefore, readyBefore, fd, readSocks]

end InRound

/-- Every step of the loop visits the next ready descriptor at most. -/
theorem inRound_exec {serverSocket : Int} {t u : ServerLoop} {step : LoopStep}
    {visited : List Nat} (h : InRound t visited) (enabled : Enabled serverSocket t step)
    (exec_ : exec t step = .ok u) : InRound u (recordVisit t step visited) := by
  cases step with
  | select ready =>
    obtain rfl := Except.ok.inj exec_
    exact .select ready
  | skip =>
    obtain rfl := Except.ok.inj exec_
    exact h.skip enabled.1 enabled.2 _
  | accept clientSocket nameSet =>
    obtain ⟨s, _, hs⟩ := bind_eq_ok_iff.mp exec_
    obtain rfl := Except.ok.inj hs
    exact h.visit enabled.1 s
  | read data =>
    obtain ⟨s, _, hs⟩ := bind_eq_ok_iff.mp exec_
    obtain rfl := Except.ok.inj hs
    exact (h.visit enabled.1.1 s).congr rfl rfl
  | empty =>
    obtain ⟨s, _, hs⟩ := bind_eq_ok_iff.mp exec_
    obtain rfl := Except.ok.inj hs
    exact (h.visit enabled.1.1 s).congr rfl rfl
  | fail =>
    simp only [exec] at exec_
    split at exec_
    · obtain rfl := Except.ok.inj exec_
      exact h.visit enabled.1.1 _
    · obtain ⟨s, _, hs⟩ := bind_eq_ok_iff.mp exec_
      obtain rfl := Except.ok.inj hs
      exact h.visit enabled.1.1 s
  | other a =>
    obtain ⟨s, _, hs⟩ := bind_eq_ok_iff.mp exec_
    obtain rfl := Except.ok.inj hs
    exact h.congr rfl rfl

/-! ## When the loop is a run of the server -/

/-- No other thread closes a descriptor that the round has still to visit. -/
def KeepsReady (t : ServerLoop) : LoopStep → Prop
  | .other a => ∀ call ∈ disconnects t.state a, call.2 ∈ t.readSocks → call.2 < t.fd
  | _ => True

instance (t : ServerLoop) : (step : LoopStep) → Decidable (t.KeepsReady step)
  | .other a => inferInstanceAs (Decidable (∀ call ∈ disconnects t.state a, _ → _))
  | .select _ | .skip | .accept _ _ | .read _ | .empty | .fail => isTrue trivial

/-- Whatever the round has still to visit is open. -/
def ReadyOpen (serverSocket : Int) (t : ServerLoop) : Prop :=
  ∀ fd ∈ t.readSocks, (t.fd : Int) ≤ fd → Watched serverSocket t.state fd

namespace ReadyOpen

variable {serverSocket : Int} {t : ServerLoop}

/-- The step closes no other descriptor than the one that it visits. -/
theorem advance (h : ReadyOpen serverSocket t) {s : State} (readSize : Int)
    (kept : ∀ fd, fd ≠ (t.fd : Int) → t.state.descriptors fd ≠ none → s.descriptors fd ≠ none) :
    ReadyOpen serverSocket { t.next s with readSize := readSize } := by
  intro fd hready hahead
  have hlater : (t.fd : Int) + 1 ≤ fd := by simpa [next] using hahead
  have hwatched : Watched serverSocket t.state fd := h fd hready (by omega)
  exact hwatched.imp id (kept fd (by omega))

/-- A connection that the loop stands at is open. -/
theorem opened (h : ReadyOpen serverSocket t) (here : t.AtConnection serverSocket) :
    t.state.descriptors t.fd ≠ none :=
  (h t.fd here.1.2 (Int.le_refl _)).resolve_left here.2

end ReadyOpen

theorem descriptors_of_disconnection {s u : State} {fd : Int} (closed : Disconnection s fd u)
    {x : Int} (hne : x ≠ fd) (hopen : s.descriptors x ≠ none) : u.descriptors x ≠ none := by
  have hkept : u.descriptors x = s.descriptors x := by cases closed <;> exact if_neg hne
  rwa [hkept]

/-- Another thread closes the descriptor of a call only. -/
theorem descriptors_of_exec {s u : State} {a : Action} (exec : System.exec s a = .ok u) {x : Int}
    (hopen : s.descriptors x ≠ none) (untouched : ∀ call ∈ disconnects s a, call.2 ≠ x) :
    u.descriptors x ≠ none := by
  cases call_step exec with
  | calls call closed =>
    apply descriptors_of_disconnection closed (untouched _ call).symm
    rwa [(disconnects_eq_some call).1.descriptors]
  | handles _ _ _ _ sockets => rwa [sockets.descriptors]
  | @accepts fd nameSet now =>
    simp only [Server.addPlayer_descriptors]
    split
    · exact Option.some_ne_none _
    · exact hopen
  | quiet _ same => rwa [same.descriptors]

theorem readyOpen_exec {serverSocket : Int} {t u : ServerLoop} {step : LoopStep}
    (h : ReadyOpen serverSocket t) (enabled : Enabled serverSocket t step)
    (keeps : KeepsReady t step) (exec_ : exec t step = .ok u) : ReadyOpen serverSocket u := by
  cases step with
  | select ready =>
    obtain rfl := Except.ok.inj exec_
    exact fun fd hready _ => enabled.2.2 fd hready
  | skip =>
    obtain rfl := Except.ok.inj exec_
    exact h.advance t.readSize fun _ _ hopen => hopen
  | accept clientSocket nameSet =>
    obtain ⟨s, hs, hu⟩ := bind_eq_ok_iff.mp exec_
    obtain rfl := Except.ok.inj hu
    exact h.advance t.readSize fun _ _ hopen =>
      descriptors_of_exec (a := .accept clientSocket nameSet) hs hopen (by simp [disconnects])
  | read data =>
    obtain ⟨s, hs, hu⟩ := bind_eq_ok_iff.mp exec_
    obtain rfl := Except.ok.inj hu
    exact h.advance _ fun _ _ hopen =>
      descriptors_of_exec (a := .receive t.fd data) hs hopen (by simp [disconnects])
  | empty =>
    obtain ⟨s, hs, hu⟩ := bind_eq_ok_iff.mp exec_
    obtain rfl := Except.ok.inj hu
    exact h.advance _ fun _ hne hopen =>
      descriptors_of_disconnection (Server.disconnection_effect hs) hne hopen
  | fail => exact absurd enabled.2 (h.opened enabled.1)
  | other a =>
    obtain ⟨s, hs, hu⟩ := bind_eq_ok_iff.mp exec_
    obtain rfl := Except.ok.inj hu
    refine fun fd hready hahead => (h fd hready hahead).imp id fun hopen => ?_
    refine descriptors_of_exec hs hopen fun call hcall heq => ?_
    have hbehind := keeps call hcall (heq ▸ hready)
    rw [heq] at hbehind
    exact absurd hahead (not_le.mpr hbehind)

/-- A condition on the steps of the other threads. -/
def OthersMeet (Guard : State → Action → Prop) (t : ServerLoop) : LoopStep → Prop
  | .other a => Guard t.state a
  | _ => True

instance (Guard : State → Action → Prop) [∀ s a, Decidable (Guard s a)] (t : ServerLoop) :
    (step : LoopStep) → Decidable (OthersMeet Guard t step)
  | .other a => inferInstanceAs (Decidable (Guard t.state a))
  | .select _ | .skip | .accept _ _ | .read _ | .empty | .fail => isTrue trivial

/-- A step of the loop is a step of the server or none. -/
theorem exec_reaches {Guard : State → Action → Prop} {serverSocket : Int} {t u : ServerLoop}
    {step : LoopStep} (outer : ∀ s a, ¬ Inner a → Guard s a) (h : ReadyOpen serverSocket t)
    (enabled : Enabled serverSocket t step) (others : OthersMeet Guard t step)
    (exec_ : exec t step = .ok u) : System.machine.ReachableFrom Guard t.state u.state := by
  cases step with
  | select | skip =>
    obtain rfl := Except.ok.inj exec_
    exact .refl
  | accept clientSocket nameSet =>
    obtain ⟨s, hs, hu⟩ := bind_eq_ok_iff.mp exec_
    obtain rfl := Except.ok.inj hu
    have hfresh : t.state.descriptors clientSocket = none :=
      not_not.mp fun hopen => enabled.2.2.2 (Or.inr hopen)
    exact .step .refl (a := .accept clientSocket nameSet) ⟨enabled.2.2.1, hfresh⟩ (outer _ _ id)
      hs
  | read data =>
    obtain ⟨s, hs, hu⟩ := bind_eq_ok_iff.mp exec_
    obtain rfl := Except.ok.inj hu
    obtain ⟨_, hopen, hdata, hlength⟩ := enabled
    exact .step .refl (a := .receive t.fd data) ⟨hdata, hlength, hopen⟩ (outer _ _ id)
      hs
  | empty =>
    obtain ⟨s, hs, hu⟩ := bind_eq_ok_iff.mp exec_
    obtain rfl := Except.ok.inj hu
    exact .step .refl (a := .peerClosed t.fd) enabled.2 (outer _ _ id) hs
  | fail => exact absurd enabled.2 (h.opened enabled.1)
  | other a =>
    obtain ⟨s, hs, hu⟩ := bind_eq_ok_iff.mp exec_
    obtain rfl := Except.ok.inj hu
    exact .step .refl enabled.2 others hs

/-- The server with its loop, and the descriptors that the round has visited. -/
abbrev visiting (serverSocket garbage : Int) : Machine (ServerLoop × List Nat) LoopStep Fault :=
  (machine serverSocket garbage).recorded [] recordVisit

instance (serverSocket garbage : Int) (y : ServerLoop × List Nat) (step : LoopStep) :
    Decidable ((visiting serverSocket garbage).Enabled y step) :=
  inferInstanceAs (Decidable (Enabled serverSocket y.1 step))

/-- The rest of a round in which nothing is ready any more. -/
def finishRound (fd : Nat) : List LoopStep := List.replicate (lastFd - fd) .skip

/-- Two connections; the second one logs out, and its connection is closed while a round that has
    read a byte from the first one has still to visit it. -/
def closeAhead : List LoopStep :=
  [.select [3], .accept 5 false] ++ finishRound 4 ++ [.select [3], .accept 6 false] ++
    finishRound 4 ++ [.select [6], .skip, .skip, .skip,
      .read (System.clientPacket H_C_PL_LOGOUT [])] ++ finishRound 7 ++
    [.other .popPacket, .other .resolvePacket, .other .registerResolved, .select [5, 6], .skip,
      .skip, .read [65], .other .runCommand]

/-- Without the condition `ioctl` fails, and a byte that nobody sent is registered. -/
theorem nobodys_byte_is_registered :
    Enabled 3 ((machine 3 0).after Machine.Unguarded closeAhead) .fail ∧
      ((machine 3 0).after Machine.Unguarded (closeAhead ++ [.fail])).state.packetQueue.map
        (fun packet => (packet.socket, packet.data)) = [(5, [65]), (6, [0])] := by
  decide +kernel

end ServerLoop

end UpsServer
