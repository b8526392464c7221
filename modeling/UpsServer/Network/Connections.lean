import UpsServer.Network.Registry

/-!
# Connections

A player has a socket exactly as long as an open descriptor leads to it, and the descriptor is
its socket. So a descriptor finds its player, when that player is listed, and nobody else.
-/

namespace UpsServer

open Framework CommandManager

/-! ## Who touches a socket -/

/-- Both states have the same open descriptors and the same players' sockets. -/
structure SameSockets (s t : State) : Prop where
  descriptors : t.descriptors = s.descriptors
  nextPlayer : t.playerHeap.next = s.playerHeap.next
  socket : ∀ p, (t.player p).socket = (s.player p).socket
  socketSet : ∀ p, (t.player p).socketSet = (s.player p).socketSet

/-- A logout of a free player ends a connection, and all other handlers leave them alone. -/
theorem Effect.sockets {s t : State} {mess : Message} (effect : Effect s mess t) :
    (mess.header = H_C_PL_LOGOUT ∧ ∃ p, mess.player = some p ∧ (s.player p).inGame = false ∧
      Disconnection s (s.player p).socket t) ∨ SameSockets s t := by
  cases effect with
  | disconnected header sender free closed => exact Or.inl ⟨header, _, sender, free, closed⟩
  | reconnected =>
    -- the newcomer keeps its own socket, the lost player keeps none
    exact Or.inr ⟨by simp [handedOver], by simp [handedOver, takeOverName], by simp [handedOver],
      by simp [handedOver]⟩
  | _ =>
    exact Or.inr ⟨rfl, rfl, by simp [clearRequest, freeBoth], by simp [clearRequest, freeBoth]⟩

/-! ## Sockets and descriptors -/

/-- Sockets and open descriptors belong together. -/
structure Connections (s : State) : Prop where
  socketOpen : ∀ p, (s.player p).socketSet = true →
    s.descriptors (s.player p).socket = some p
  owner : ∀ fd p, s.descriptors fd = some p →
    p < s.playerHeap.next ∧ (s.player p).socketSet = true ∧ (s.player p).socket = fd

namespace Connections

variable {s t : State}

theorem initial : Connections State.initial where
  socketOpen p hp := by cases hp
  owner fd p hfd := by cases hfd

/-- Steps that open and close nothing. -/
theorem keep (h : Connections s) (descriptors : t.descriptors = s.descriptors)
    (next : t.playerHeap.next = s.playerHeap.next)
    (socket : ∀ p, (t.player p).socket = (s.player p).socket)
    (socketSet : ∀ p, (t.player p).socketSet = (s.player p).socketSet) : Connections t where
  socketOpen p hp := by
    rw [socketSet] at hp
    rw [descriptors, socket]
    exact h.socketOpen p hp
  owner fd p hfd := by
    rw [descriptors] at hfd
    rw [next, socketSet, socket]
    exact h.owner fd p hfd

theorem addPlayer (h : Connections s) {fd : Int} (nameSet : Bool)
    (fresh : s.descriptors fd = none) : Connections (Server.addPlayer s fd nameSet) where
  socketOpen p hp := by
    rw [Server.player_addPlayer] at hp ⊢
    split at hp
    · rename_i heq
      rw [if_pos heq, heq]
      simp [Player.ofSocket]
    · -- an older player's socket is open, so it is not the descriptor just given out
      rename_i hne
      have hopen := h.socketOpen p hp
      have hfd : (s.player p).socket ≠ fd := fun heq => by simp [heq, fresh] at hopen
      simp [hne, hfd, hopen]
  owner fd' p hfd' := by
    change (if fd' = fd then _ else _) = _ at hfd'
    rw [Server.player_addPlayer, Server.addPlayer_playerHeap, Heap.next_alloc]
    split at hfd'
    · rename_i heq
      obtain rfl := Option.some.inj hfd'
      exact ⟨Nat.lt_succ_self _, by simp [Player.ofSocket], by simp [Player.ofSocket, heq]⟩
    · obtain ⟨hlt, hset, hsocket⟩ := h.owner fd' p hfd'
      rw [if_neg (Nat.ne_of_lt hlt)]
      exact ⟨Nat.lt_succ_of_lt hlt, hset, hsocket⟩

/-- A closed connection takes the socket of its player with it. -/
theorem close (h : Connections s) {fd : Int} {pl : PlayerRef}
    (found : Server.getPlayerBySocket s fd = some pl) {f : Player → Player}
    (closed : ∀ x, (f x).socketSet = false) :
    Connections ((s.closeSocket fd).modifyPlayer pl f) := by
  obtain ⟨-, hsocket⟩ := Server.getPlayerBySocket_eq_some found
  simp only [hasThisSocket, Player.hasSocket, Bool.and_eq_true, beq_iff_eq] at hsocket
  have hopen : s.descriptors fd = some pl := hsocket.2 ▸ h.socketOpen pl hsocket.1
  refine ⟨fun p hp => ?_, fun fd' p hfd' => ?_⟩
  · rw [State.player_modifyPlayer] at hp ⊢
    split at hp
    · rw [closed] at hp
      cases hp
    · -- the closed descriptor led to `pl` only, so nobody else's socket is closed
      rename_i hne
      have hp_open := h.socketOpen p hp
      have hfd : (s.player p).socket ≠ fd := fun heq => by
        rw [heq, hopen] at hp_open
        exact hne (Option.some.inj hp_open).symm
      simp [hne, hfd, hp_open]
  · change (if fd' = fd then _ else _) = _ at hfd'
    split at hfd'
    · cases hfd'
    · rename_i hfd
      obtain ⟨hlt, hset, hsock⟩ := h.owner fd' p hfd'
      have hne : p ≠ pl := fun heq => hfd (by rw [← hsock, heq, hsocket.2])
      rw [State.player_modifyPlayer_of_ne _ _ hne]
      exact ⟨hlt, hset, hsock⟩

theorem disconnected {fd : Int} (h : Connections s) (closed : Disconnection s fd t) :
    Connections t := by
  cases closed with
  | left found => exact (h.close found fun _ => rfl).keep rfl rfl (fun _ => rfl) fun _ => rfl
  | stays found => exact (h.close found fun _ => rfl).keep rfl rfl (fun _ => rfl) fun _ => rfl

theorem handled {mess : Message} (h : Connections s) (effect : Effect s mess t) :
    Connections t := by
  rcases effect.sockets with ⟨-, _, -, -, closed⟩ | same
  · exact h.disconnected closed
  · exact h.keep same.descriptors same.nextPlayer same.socket same.socketSet

/-- A look-up by descriptor finds the listed player the descriptor leads to. -/
theorem getPlayerBySocket_eq_some_iff (h : Connections s) {fd : Int} {p : PlayerRef} :
    Server.getPlayerBySocket s fd = some p ↔ s.descriptors fd = some p ∧ p ∈ s.players := by
  constructor
  · intro hfound
    obtain ⟨hlisted, hsocket⟩ := Server.getPlayerBySocket_eq_some hfound
    simp only [hasThisSocket, Player.hasSocket, Bool.and_eq_true, beq_iff_eq] at hsocket
    exact ⟨hsocket.2 ▸ h.socketOpen p hsocket.1, hlisted⟩
  · rintro ⟨hopen, hlisted⟩
    obtain ⟨-, hset, hsocket⟩ := h.owner fd p hopen
    -- the search finds somebody, and two players cannot have the same open socket
    cases hfound : Server.getPlayerBySocket s fd with
    | none =>
      have hnone := List.find?_eq_none.mp hfound p hlisted
      simp [Player.hasSocket, hset, hsocket] at hnone
    | some q =>
      obtain ⟨-, hq⟩ := Server.getPlayerBySocket_eq_some hfound
      simp only [hasThisSocket, Player.hasSocket, Bool.and_eq_true, beq_iff_eq] at hq
      have hq_open : s.descriptors fd = some q := hq.2 ▸ h.socketOpen q hq.1
      rw [← hq_open, hopen]

/-- Nobody but the player found has the socket. -/
theorem eq_of_hasThisSocket (h : Connections s) {fd : Int} {p q : PlayerRef}
    (found : Server.getPlayerBySocket s fd = some p) (hsame : hasThisSocket s fd q = true) :
    q = p := by
  have hopen := (h.getPlayerBySocket_eq_some_iff.mp found).1
  have howner := h.socketOpen q (Bool.and_eq_true_iff.mp hsame).1
  rw [beq_iff_eq.mp (Bool.and_eq_true_iff.mp hsame).2, hopen] at howner
  exact (Option.some.inj howner).symm

/-- Erasing by socket erases the player found and nobody else. -/
theorem mem_erasedBySocket_iff (h : Connections s) (hreg : Registry s) {fd : Int}
    {p : PlayerRef} (found : Server.getPlayerBySocket s fd = some p) (q : PlayerRef) :
    q ∈ s.players.eraseP (hasThisSocket s fd) ↔ q ∈ s.players ∧ q ≠ p := by
  obtain ⟨hlisted, hsocket⟩ := Server.getPlayerBySocket_eq_some found
  apply mem_eraseP_of_unique hreg.playersNodup hlisted hsocket
  intro r _ hsame
  exact h.eq_of_hasThisSocket found hsame

end Connections

/-- Sockets and open descriptors belong together in every reachable state. -/
theorem connections_of_reachable {s : State} (h : System.Reachable s) : Connections s :=
  same_world_invariant h (fun _ _ => trivial) (fun _ _ _ _ => trivial) Connections.initial
    (fun _ _ hsame hconn =>
      hconn.keep hsame.descriptors hsame.nextPlayer hsame.socket hsame.socketSet)
    (fun _ _ nameSet _ hconn hfresh => hconn.addPlayer nameSet hfresh)
    (fun _ _ _ _ hconn hclosed => hconn.disconnected hclosed)
    fun _ _ _ _ hconn heffect => hconn.handled heffect

/-! ## The range of sockets -/

/-- A player without a connection has the socket `-1`, which no client has, and the descriptors
    of clients fit into an `fd_set`. -/
structure ClientSockets (s : State) : Prop where
  removed : ∀ p, (s.player p).socketSet = false → (s.player p).socket = -1
  range : ∀ fd p, s.descriptors fd = some p → 0 ≤ fd ∧ fd < Server.fdSetSize

namespace ClientSockets

variable {s t : State}

/-- Steps that open and close nothing. -/
theorem keep (h : ClientSockets s) (descriptors : t.descriptors = s.descriptors)
    (socket : ∀ p, (t.player p).socket = (s.player p).socket)
    (socketSet : ∀ p, (t.player p).socketSet = (s.player p).socketSet) : ClientSockets t where
  removed p hp := by
    rw [socket]
    exact h.removed p (socketSet p ▸ hp)
  range fd p hfd := h.range fd p (descriptors ▸ hfd)

theorem addPlayer (h : ClientSockets s) {fd : Int} (nameSet : Bool)
    (hfd : 0 ≤ fd ∧ fd < Server.fdSetSize) :
    ClientSockets (Server.addPlayer s fd nameSet) where
  removed p hp := by
    rw [Server.player_addPlayer] at hp ⊢
    split at hp
    · cases hp
    · rename_i hne
      rw [if_neg hne]
      exact h.removed p hp
  range fd' p hopen := by
    change (if fd' = fd then _ else _) = _ at hopen
    split at hopen
    · rename_i heq
      rw [heq]
      exact hfd
    · exact h.range fd' p hopen

theorem close (h : ClientSockets s) (fd : Int) (pl : PlayerRef) (f : Player → Player)
    (removed : ∀ x, (f x).socket = -1) :
    ClientSockets ((s.closeSocket fd).modifyPlayer pl f) where
  removed p hp := by
    rw [State.player_modifyPlayer] at hp ⊢
    split at hp
    · rename_i heq
      rw [if_pos heq]
      exact removed _
    · rename_i hne
      rw [if_neg hne]
      exact h.removed p hp
  range fd' p hopen := by
    change (if fd' = fd then _ else _) = _ at hopen
    split at hopen
    · cases hopen
    · exact h.range fd' p hopen

theorem disconnected {fd : Int} (h : ClientSockets s) (closed : Disconnection s fd t) :
    ClientSockets t := by
  cases closed with
  | @left pl =>
    exact (h.close fd pl (fun p => { p.removeSocket with joiningPlayer := none })
      fun _ => rfl).keep rfl (fun _ => rfl) fun _ => rfl
  | @stays pl =>
    exact (h.close fd pl Player.removeSocket fun _ => rfl).keep rfl (fun _ => rfl) fun _ => rfl

theorem handled {mess : Message} (h : ClientSockets s) (effect : Effect s mess t) :
    ClientSockets t := by
  rcases effect.sockets with ⟨-, _, -, -, closed⟩ | same
  · exact h.disconnected closed
  · exact h.keep same.descriptors same.socket same.socketSet

end ClientSockets

/-- `accept` does not survive a descriptor that no `fd_set` holds. -/
theorem Server.lt_fdSetSize_of_accept {s t : State} {fd : Int} {nameSet : Bool}
    (h : Server.acceptConnection s fd nameSet = .ok t) : fd < Server.fdSetSize := by
  unfold Server.acceptConnection at h
  split at h
  · cases h
  · rename_i hsmall
    exact Int.not_le.mp hsmall

theorem clientSockets_of_reachable {s : State} (h : System.Reachable s) : ClientSockets s := by
  apply Machine.ReachableFrom.invariant h
  · exact ⟨fun _ _ => rfl, fun _ _ hopen => by cases hopen⟩
  · intro t u a hreach hsockets henabled _ hexec
    cases exec_step (stageFromPacket_of_reachable hreach) henabled hexec with
    | quiet hquiet => exact hsockets.keep hquiet.descriptors hquiet.socket hquiet.socketSet
    | accepted =>
      have hsmall := Server.lt_fdSetSize_of_accept hexec
      exact hsockets.addPlayer _ ⟨henabled.1, hsmall⟩
    | closed hquiet hclosed =>
      have hmiddle := hsockets.keep hquiet.descriptors hquiet.socket hquiet.socketSet
      exact hmiddle.disconnected hclosed
    | @handled command rest _ _ heffect =>
      have hpopped : ClientSockets (t.withCommands rest) :=
        hsockets.keep rfl (fun _ => rfl) fun _ => rfl
      exact hpopped.handled heffect

end UpsServer
