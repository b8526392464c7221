import UpsServer.Helpers.WireFormat
import UpsServer.Network.Steps

/-!
# From chunks to messages

`recv` cuts the byte stream of a connection into chunks, every chunk becomes a packet, and every
packet is decoded on its own: neither the size word of a message nor the size of the packet is
used to find where a message ends. This module says which chunkings are read as the messages
that were sent.
-/

namespace UpsServer

open Framework

/-! ## What a client sends -/

/-- The headers that a client sends. -/
def clientHeaders : List UInt32 :=
  [H_C_NACK, H_C_ACK, H_C_PING, H_C_NEW_PL, H_C_PL_RECONN, H_C_PL_LOGOUT, H_C_PL_LIST_REQ,
    H_C_JOIN_PLAYER, H_C_DECLIN_JOIN, H_C_ACCEPT_JOIN, H_C_GAME_MOVE]

/-- A well-formed message of a client. -/
structure ClientMessage where
  header : UInt32
  payload : List Datum
  checkSum : UInt8
  known : header ∈ clientHeaders
  wellTyped : Matches payload (formatOf header)
  fits : 9 + (encodePayload payload).length < 2 ^ 31

namespace ClientMessage

/-- The bytes that are sent. -/
def wire (m : ClientMessage) : ByteString :=
  wordBytes m.header ++ (wordBytes (UInt32.ofNat (9 + (encodePayload m.payload).length)) ++
    (encodePayload m.payload ++ [m.checkSum]))

/-- The message that the server should make of them; its player is looked up later. -/
def received (m : ClientMessage) : Message := ⟨m.header, formatOf m.header, m.payload, none⟩

/-- No format of a client message has a field after a string. -/
theorem stringsLast (m : ClientMessage) : StringsLast (formatOf m.header) := by
  have hall : clientHeaders.all (fun header => StringsLast (formatOf header)) = true := by
    decide +kernel
  simpa using List.all_eq_true.mp hall m.header m.known

theorem headToFormatMap_header (m : ClientMessage) :
    headToFormatMap m.header = some (formatOf m.header) := by
  have hall : clientHeaders.all
      (fun header => headToFormatMap header = some (formatOf header)) = true := by
    decide +kernel
  simpa using List.all_eq_true.mp hall m.header m.known

theorem length_wire (m : ClientMessage) :
    m.wire.length = 9 + (encodePayload m.payload).length := by
  simp [wire]
  omega

end ClientMessage

/-- Stored fields are as long as encoded ones. -/
theorem Stored.length {payload : List Datum} {bytes : ByteString} (h : Stored payload bytes) :
    bytes.length = (encodePayload payload).length := by
  induction h with
  | nil => rfl
  | int value _ ih => simp [Datum.encode, ih]
  | str length value fits => simp [Datum.encode]

/-- The decoder reads a payload back from its encoding. -/
theorem stored_encodePayload {payload : List Datum} {format : List Char}
    (hmatches : Matches payload format) (hstrings : StringsLast format)
    (fits : (encodePayload payload).length < 2 ^ 31) : Stored payload (encodePayload payload) := by
  induction hmatches with
  | nil => exact .nil
  | @cons datum c payload format hkind _ ih =>
    rw [encodePayload_cons, List.length_append] at fits
    rcases hstrings with ⟨rfl, hrest⟩ | ⟨rfl, rfl⟩
    · -- an entry of the other kind does not match the letter
      cases datum with
      | int value => exact .int value (ih hrest (by omega))
      | str value => exact absurd hkind (by simp [Datum.HasKind])
    · cases datum with
      | int value => exact absurd hkind (by simp [Datum.HasKind])
      | str value =>
        rename_i hnil
        cases hnil
        rw [encodePayload_cons, encodePayload_nil, List.append_nil]
        apply Stored.str _ value
        -- a packet below `2 ^ 31` bytes keeps the length word from becoming negative
        have hlen : value.length < 2 ^ 31 := by
          simp only [Datum.encode, List.length_append, length_wordBytes] at fits
          omega
        rw [UInt32.toNat_ofNat', Nat.mod_eq_of_lt (by omega), asInt,
          Int.bmod_eq_of_le (by omega) (by omega), Int.toNat_natCast]

/-! ## Which chunkings are read right -/

/-- The chunks carry the messages, one message a chunk, between chunks with an unknown header.
    What follows the fields of a message in its chunk does not matter. -/
inductive Aligned : List ByteString → List ClientMessage → Prop where
  | nil : Aligned [] []
  /-- The chunk begins with no known header. -/
  | skipped {chunks : List ByteString} {msgs : List ClientMessage} (header size : UInt32)
      (rest : ByteString) (unknown : headToFormatMap header = none)
      (later : Aligned chunks msgs) :
      Aligned ((wordBytes header ++ (wordBytes size ++ rest)) :: chunks) msgs
  /-- The chunk begins with the next message, up to its size word. -/
  | carried {chunks : List ByteString} {msgs : List ClientMessage} (m : ClientMessage)
      (size : UInt32) (fields rest : ByteString) (stored : Stored m.payload fields)
      (later : Aligned chunks msgs) :
      Aligned ((wordBytes m.header ++ (wordBytes size ++ (fields ++ rest))) :: chunks)
        (m :: msgs)

/-- A chunk is decoded to a client message exactly when it begins with it. -/
theorem deserialize_eq_received_iff {data : ByteString} (m : ClientMessage) :
    Serializer.deserialize data = .ok (some m.received) ↔
      ∃ size fields rest, Stored m.payload fields ∧
        data = wordBytes m.header ++ (wordBytes size ++ (fields ++ rest)) := by
  have hstrings : StringsLast (formatOf m.received.header) := m.stringsLast
  rw [Serializer.deserialize_eq_ok_some_iff hstrings]
  constructor
  · rintro ⟨-, -, -, h⟩
    exact h
  · exact fun h => ⟨m.headToFormatMap_header, rfl, m.wellTyped, h⟩

/-- The loop hands the messages of the first packet and then those of the rest. -/
theorem handedOver_cons_eq_ok_iff {packet : Packet} {packets : List Packet}
    {messages : List Message} :
    PacketManager.handedOver (packet :: packets) = .ok messages ↔
      (Serializer.deserialize packet.data = .ok none ∧
        PacketManager.handedOver packets = .ok messages) ∨
      ∃ mess later, Serializer.deserialize packet.data = .ok (some mess) ∧
        PacketManager.handedOver packets = .ok later ∧ messages = mess :: later := by
  rw [PacketManager.handedOver, bind_eq_ok_iff]
  constructor
  · rintro ⟨result, hresult, h⟩
    cases result with
    | none => exact Or.inl ⟨hresult, h⟩
    | some mess =>
      obtain ⟨later, hlater, h⟩ := bind_eq_ok_iff.mp h
      exact Or.inr ⟨mess, later, hresult, hlater, (Except.ok.inj h).symm⟩
  · rintro (⟨hresult, h⟩ | ⟨mess, later, hresult, hlater, rfl⟩)
    · exact ⟨none, hresult, h⟩
    · exact ⟨some mess, hresult, bind_eq_ok_iff.mpr ⟨later, hlater, rfl⟩⟩

/-- The loop hands over exactly the messages that the packets carry. -/
theorem handedOver_eq_ok_iff_aligned {packets : List Packet} {msgs : List ClientMessage} :
    PacketManager.handedOver packets = .ok (msgs.map ClientMessage.received) ↔
      Aligned (packets.map Packet.data) msgs := by
  constructor
  · intro h
    induction packets generalizing msgs with
    | nil =>
      have hnil : msgs = [] := List.map_eq_nil_iff.mp (Except.ok.inj h).symm
      rw [hnil]
      exact .nil
    | cons packet packets ih =>
      rw [List.map_cons]
      -- the first packet is skipped, or it is the first of the messages
      rcases handedOver_cons_eq_ok_iff.mp h with ⟨hnone, h⟩ | ⟨mess, later, hmess, h, heq⟩
      · obtain ⟨header, size, rest, hdata, hunknown⟩ :=
          Serializer.deserialize_eq_ok_none_iff.mp hnone
        rw [hdata]
        exact .skipped header size rest hunknown (ih h)
      · cases msgs with
        | nil => cases heq
        | cons m msgs =>
          obtain ⟨rfl, rfl⟩ := List.cons.inj heq
          obtain ⟨size, fields, rest, hstored, hdata⟩ := (deserialize_eq_received_iff m).mp hmess
          rw [hdata]
          exact .carried m size fields rest hstored (ih h)
  · intro h
    induction packets generalizing msgs with
    | nil =>
      cases h
      rfl
    | cons packet packets ih =>
      rw [List.map_cons] at h
      rw [handedOver_cons_eq_ok_iff, Serializer.deserialize_eq_ok_none_iff]
      generalize packet.data = data at h ⊢
      cases h with
      | skipped header size rest unknown later =>
        exact Or.inl ⟨⟨header, size, rest, rfl, unknown⟩, ih later⟩
      | carried m size fields rest stored later =>
        exact Or.inr ⟨_, _, (deserialize_eq_received_iff m).mpr ⟨size, fields, rest, stored, rfl⟩,
          ih later, rfl⟩

/-- What a longer sequence of packets adds. -/
theorem handedOver_append {before after : List Packet} {earlier later : List Message}
    (h : PacketManager.handedOver before = .ok earlier)
    (h' : PacketManager.handedOver after = .ok later) :
    PacketManager.handedOver (before ++ after) = .ok (earlier ++ later) := by
  induction before generalizing earlier with
  | nil =>
    obtain rfl : [] = earlier := Except.ok.inj h
    exact h'
  | cons packet before ih =>
    rw [List.cons_append, handedOver_cons_eq_ok_iff]
    rcases handedOver_cons_eq_ok_iff.mp h with ⟨hnone, hrest⟩ | ⟨mess, rest, hmess, hrest, rfl⟩
    · exact Or.inl ⟨hnone, ih hrest⟩
    · exact Or.inr ⟨mess, rest ++ later, hmess, ih hrest, rfl⟩

/-! ## In a run of the server -/

section Run

variable (s : State) (p : PlayerRef)

/-- The packets that wait to be decoded. -/
def State.pendingPackets : List Packet := s.packetStage.packet.toList ++ s.packetQueue

/-- The commands made of packets, the last of which may not be registered yet. -/
def State.madeCommands : List Command := s.handedLog ++ s.packetStage.command.toList

/-- The packets of one connection. -/
def ofConnection (packets : List Packet) : List Packet :=
  packets.filter fun packet => packet.owner == p

/-- The messages of one connection, before their players are looked up. -/
def messagesOf (commands : List Command) : List Message :=
  (commands.filter fun command => command.origin == some p).map fun command =>
    command.message.withPlayer none

/-- The chunks that were read from a connection. -/
def State.chunksFrom : List ByteString := (ofConnection p s.readLog).map Packet.data

/-- The messages that were handed to `registerCommand` for a connection. -/
def State.handedFrom : List Message := messagesOf p s.handedLog

/-- Nothing that was read from the connection is still in `PacketManager`. -/
def State.Settled : Prop :=
  ofConnection p s.pendingPackets = [] ∧ messagesOf p s.packetStage.command.toList = []

/-- Of the packets read from a connection some are decoded and the others wait. -/
def Tracked : Prop :=
  ∃ decoded, ofConnection p s.readLog = decoded ++ ofConnection p s.pendingPackets ∧
    PacketManager.handedOver decoded = .ok (messagesOf p s.madeCommands)

variable {s p} {t : State}

@[simp] theorem ofConnection_append (xs ys : List Packet) :
    ofConnection p (xs ++ ys) = ofConnection p xs ++ ofConnection p ys := List.filter_append ..

@[simp] theorem messagesOf_append (xs ys : List Command) :
    messagesOf p (xs ++ ys) = messagesOf p xs ++ messagesOf p ys := by
  simp [messagesOf]

theorem Tracked.same (h : Tracked s p) (same : SameTraffic s t) : Tracked t p := by
  obtain ⟨decoded, hread, hhanded⟩ := h
  refine ⟨decoded, ?_, ?_⟩
  · rw [State.pendingPackets, same.readLog, same.packetStage, same.packetQueue]
    exact hread
  · rw [State.madeCommands, same.handedLog, same.packetStage]
    exact hhanded

/-- A single packet with a message is handed over for its own connection only. -/
theorem handedOver_ofConnection_some {packet : Packet} {mess : Message}
    (player : Option PlayerRef)
    (decodes : Serializer.deserialize packet.data = .ok (some mess)) :
    PacketManager.handedOver (ofConnection p [packet])
      = .ok (messagesOf p [⟨mess.withPlayer player, some packet.owner⟩]) := by
  obtain ⟨-, hplayer⟩ := Serializer.deserialize_eq_ok_some decodes
  by_cases howner : packet.owner = p
  · -- taking the player away again gives back what was decoded
    have hmess : (mess.withPlayer player).withPlayer none = mess := by
      rw [Message.withPlayer, Message.withPlayer, ← hplayer]
    simp [ofConnection, messagesOf, howner, hmess, PacketManager.handedOver, decodes]
  · simp [ofConnection, messagesOf, howner, PacketManager.handedOver]

theorem handedOver_ofConnection_none {packet : Packet}
    (decodes : Serializer.deserialize packet.data = .ok none) :
    PacketManager.handedOver (ofConnection p [packet]) = .ok [] := by
  by_cases howner : packet.owner = p <;>
    simp [ofConnection, howner, PacketManager.handedOver, decodes]

/-- The packet in hand moves behind those decoded before. -/
theorem Tracked.decode (h : Tracked s p) {packet : Packet} {stage : PacketStage}
    (hand : s.packetStage = .popped packet) (hstage : stage.packet = none)
    (made : PacketManager.handedOver (ofConnection p [packet])
      = .ok (messagesOf p stage.command.toList)) :
    Tracked { s with packetStage := stage } p := by
  obtain ⟨decoded, hread, hhanded⟩ := h
  refine ⟨decoded ++ ofConnection p [packet], ?_, ?_⟩
  · rw [hread, State.pendingPackets, hand, State.pendingPackets, hstage, List.append_assoc,
      ← ofConnection_append]
    rfl
  · have hold : s.madeCommands = s.handedLog := by
      rw [State.madeCommands, hand]
      exact List.append_nil _
    rw [hold] at hhanded
    rw [State.madeCommands, messagesOf_append]
    exact handedOver_append hhanded made

/-- What one step preserves. -/
theorem Tracked.step (h : Tracked s p) (step : TrafficStep s t) : Tracked t p := by
  cases step with
  | unchanged same => exact h.same same
  -- a resolved packet leaves the pending ones and joins the decoded ones
  | decoded hand decodes same =>
    exact (h.decode hand rfl (handedOver_ofConnection_some _ decodes)).same same
  | dropped hand decodes same =>
    exact (h.decode hand rfl (handedOver_ofConnection_none decodes)).same same
  | read same =>
    -- a new chunk is pending
    obtain ⟨decoded, hread, hhanded⟩ := h
    refine Tracked.same ⟨decoded, ?_, ?_⟩ same
    · simp only [ofConnection_append, hread, State.pendingPackets, List.append_assoc]
    · exact hhanded
  | popped queued idle same =>
    -- the popped packet is still pending, in front of the queue
    obtain ⟨decoded, hread, hhanded⟩ := h
    refine Tracked.same ⟨decoded, ?_, ?_⟩ same
    · simpa [State.pendingPackets, queued, idle, PacketStage.packet] using hread
    · simpa [State.madeCommands, idle, PacketStage.command] using hhanded
  | handed hand same =>
    -- the command in hand was counted as made already
    obtain ⟨decoded, hread, hhanded⟩ := h
    refine Tracked.same ⟨decoded, ?_, ?_⟩ same
    · simpa [State.pendingPackets, hand, PacketStage.packet] using hread
    · simpa [State.madeCommands, hand, PacketStage.command] using hhanded

end Run

/-- Every reachable state keeps track of every connection. -/
theorem tracked_of_reachable {s : State} (h : System.Reachable s) (p : PlayerRef) :
    Tracked s p :=
  Machine.ReachableFrom.invariant (I := fun s => Tracked s p) h ⟨[], rfl, rfl⟩
    fun _ _ _ _ htracked henabled _ hexec => htracked.step (traffic_step henabled hexec)

/-- Once everything is decoded, the messages handed over are those of the chunks. -/
theorem handedOver_readLog {s : State} (h : System.Reachable s) {p : PlayerRef}
    (settled : s.Settled p) :
    PacketManager.handedOver (ofConnection p s.readLog) = .ok (s.handedFrom p) := by
  obtain ⟨decoded, hread, hhanded⟩ := tracked_of_reachable h p
  rw [hread, settled.1, List.append_nil, hhanded, State.madeCommands, messagesOf_append, settled.2,
    List.append_nil, State.handedFrom]

/-! ## One message a chunk -/

/-- The client did not send `H_C_NACK`, whose header and size begin with zeros only. -/
def NoNack (msgs : List ClientMessage) : Prop := ∀ m ∈ msgs, m.header ≠ H_C_NACK

/-- A stream of whole messages is read right when every chunk is one of them. -/
theorem aligned_wires (msgs : List ClientMessage) :
    Aligned (msgs.map ClientMessage.wire) msgs := by
  induction msgs with
  | nil => exact .nil
  | cons m msgs ih =>
    have hfits := m.fits
    exact .carried m _ (encodePayload m.payload) [m.checkSum]
      (stored_encodePayload m.wellTyped m.stringsLast (by omega)) ih

/-- A chunk that carries a message has all its bytes but the checksum. -/
theorem length_carried (m : ClientMessage) (size : UInt32) {fields : ByteString}
    (rest : ByteString) (stored : Stored m.payload fields) :
    (wordBytes m.header ++ (wordBytes size ++ (fields ++ rest))).length + 1
      = m.wire.length + rest.length := by
  rw [m.length_wire, ← stored.length]
  simp
  omega

/-- Only `H_C_NACK` begins with a word that is also found one byte later. -/
theorem header_eq_nack_of_shift (m : ClientMessage) {b : UInt8} {x y : ByteString}
    (h : b :: (wordBytes m.header ++ x) = wordBytes m.header ++ y) : m.header = H_C_NACK := by
  have hall : clientHeaders.all (fun header =>
      (header >>> 8).toUInt8 = header.toUInt8 → header = H_C_NACK) = true := by
    decide +kernel
  have hbytes := of_decide_eq_true (List.all_eq_true.mp hall m.header m.known)
  simp only [wordBytes, List.cons_append, List.cons.injEq] at h
  exact hbytes h.2.2.2.1

/-- A message does not carry itself behind its first byte. -/
theorem wire_ne_of_shift (m : ClientMessage) (hnack : m.header ≠ H_C_NACK) {x : ByteString}
    (hx : x ≠ []) (size : UInt32) {fields : ByteString} (stored : Stored m.payload fields)
    (rest y : ByteString) :
    x ++ (wordBytes m.header ++ (wordBytes size ++ (fields ++ rest))) ++ y ≠ m.wire := by
  intro hwire
  have hlen := length_carried m size rest stored
  have hwireLen := congrArg List.length hwire
  simp only [List.length_append] at hwireLen hlen
  have hpos : 0 < x.length := List.length_pos_iff.mpr hx
  -- the lengths leave room for one byte in front, and then the header repeats one byte later
  obtain ⟨b, rfl⟩ := List.length_eq_one_iff.mp (show x.length = 1 by omega)
  simp only [ClientMessage.wire, List.append_assoc] at hwire
  exact hnack (header_eq_nack_of_shift m hwire)

theorem NoNack.tail {m : ClientMessage} {msgs : List ClientMessage} (h : NoNack (m :: msgs)) :
    NoNack msgs :=
  fun m' hm' => h m' (List.mem_cons_of_mem _ hm')

/-- Chunks that begin behind the start of a message do not carry it and what follows. -/
theorem Aligned.not_overrun {chunks : List ByteString} {msgs : List ClientMessage}
    (h : Aligned chunks msgs) (noNack : NoNack msgs) {x : ByteString} (hx : x ≠ []) :
    x ++ chunks.flatten ≠ (msgs.map ClientMessage.wire).flatten := by
  -- by induction on the chunks, with everything before them collected in `x`
  induction h generalizing x with
  | nil => simpa using hx
  | skipped header size rest unknown _ ih =>
    rw [List.flatten_cons, ← List.append_assoc]
    exact ih noNack (by simp [hx])
  | carried m size fields rest stored _ ih =>
    intro heq
    have hshift := wire_ne_of_shift m (noNack m List.mem_cons_self) hx size stored rest
    rw [List.flatten_cons, List.map_cons, List.flatten_cons, ← List.append_assoc] at heq
    -- the chunk ends inside the first message, or the message ends inside the chunk
    rcases List.append_eq_append_iff.mp heq with ⟨y, hwire, -⟩ | ⟨y, hwire, hlater⟩
    · exact hshift y hwire.symm
    · have hy : y ≠ [] := fun hy => hshift [] (by rw [hwire, hy]; simp)
      exact ih noNack.tail hy hlater.symm

/-- Chunks that begin with the checksum of the previous message carry nothing whole. -/
theorem Aligned.not_after_checkSum {chunks : List ByteString} {msgs : List ClientMessage}
    (h : Aligned chunks msgs) (noNack : NoNack msgs) (checkSum : UInt8) :
    chunks.flatten ≠ checkSum :: (msgs.map ClientMessage.wire).flatten := by
  intro heq
  cases h with
  | nil => cases heq
  | skipped header size rest unknown later =>
    -- the rest of the chunk belongs to the next message
    rw [List.flatten_cons] at heq
    obtain ⟨-, htail⟩ := List.cons.inj heq
    exact later.not_overrun noNack (by simp) htail
  | carried m size fields rest stored later =>
    -- the chunk repeats the header of the next message one byte too early
    rw [List.flatten_cons, List.map_cons, List.flatten_cons] at heq
    simp only [ClientMessage.wire, List.append_assoc] at heq
    exact noNack m List.mem_cons_self (header_eq_nack_of_shift m heq.symm)

/-- Without `H_C_NACK`, a sent stream is read right exactly when every chunk is one message. -/
theorem aligned_iff_one_message_per_chunk {chunks : List ByteString}
    {msgs : List ClientMessage} (noNack : NoNack msgs)
    (sent : chunks.flatten = (msgs.map ClientMessage.wire).flatten) :
    Aligned chunks msgs ↔ chunks = msgs.map ClientMessage.wire := by
  constructor
  · intro h
    induction h with
    | nil => rfl
    | @skipped chunks msgs header size rest unknown _ _ =>
      -- the stream begins with a known header
      cases msgs with
      | nil => simp [wordBytes] at sent
      | cons m msgs =>
        simp only [List.flatten_cons, List.map_cons, ClientMessage.wire, List.append_assoc] at sent
        rw [wordBytes_append_inj sent, m.headToFormatMap_header] at unknown
        cases unknown
    | @carried chunks msgs m size fields rest stored later ih =>
      have hlen := length_carried m size rest stored
      rw [List.flatten_cons, List.map_cons, List.flatten_cons] at sent
      rcases List.append_eq_append_iff.mp sent with ⟨y, hwire, hlater⟩ | ⟨y, hwire, hlater⟩
      · have hwireLen := congrArg List.length hwire
        simp only [List.length_append] at hwireLen hlen
        cases y with
        | nil =>
          rw [List.map_cons, hwire, List.append_nil, ih noNack.tail hlater]
        | cons b y =>
          -- the chunk lacks the checksum, with which the next one begins
          rw [List.length_cons] at hwireLen
          have hy : y = [] := List.length_eq_zero_iff.mp (by omega)
          rw [hy] at hlater
          exact absurd hlater (later.not_after_checkSum noNack.tail b)
      · -- the chunk holds the whole message, and nothing may follow it there
        by_cases hy : y = []
        · rw [hy, List.append_nil] at hwire
          rw [List.map_cons, hwire, ih noNack.tail (by rw [hlater, hy, List.nil_append])]
        · exact absurd hlater.symm (later.not_overrun noNack.tail hy)
  · rintro rfl
    exact aligned_wires msgs

/-! ## Framing -/

/-- **Framing**: the messages that `PacketManager` hands over for a connection are the ones
    that were sent exactly when the chunks carry them. The first part is about the loop, with
    every over-read as a failure, and the second about every run of the server. -/
theorem connection_is_framed_iff (msgs : List ClientMessage) :
    (∀ fd owner chunks,
      PacketManager.handedOver (chunks.map (Server.processData fd owner))
          = .ok (msgs.map ClientMessage.received) ↔ Aligned chunks msgs) ∧
      ∀ s, System.Reachable s → ∀ p, s.Settled p →
        (s.handedFrom p = msgs.map ClientMessage.received ↔ Aligned (s.chunksFrom p) msgs) := by
  constructor
  · intro fd owner chunks
    have hdata : (chunks.map (Server.processData fd owner)).map Packet.data = chunks := by
      simp [Server.processData, Function.comp_def]
    rw [handedOver_eq_ok_iff_aligned, hdata]
  · intro s h p settled
    rw [State.chunksFrom, ← handedOver_eq_ok_iff_aligned, handedOver_readLog h settled,
      Except.ok.injEq]

/-- The client's `H_C_PING`. -/
def pingMessage : ClientMessage := ⟨H_C_PING, [], 117, by decide, by decide, by decide⟩

/-- Two messages that arrive in one chunk are read as one. -/
theorem coalesced_message_is_lost :
    ¬ ∀ msgs : List ClientMessage, ∀ chunks : List ByteString, (∀ chunk ∈ chunks, chunk ≠ []) →
      chunks.flatten = (msgs.map ClientMessage.wire).flatten → ∀ fd owner,
      PacketManager.handedOver (chunks.map (Server.processData fd owner))
        = .ok (msgs.map ClientMessage.received) := by
  intro h
  have hread := h [pingMessage, pingMessage] [pingMessage.wire ++ pingMessage.wire] (by decide)
    (by decide) 5 0
  exact absurd hread (by decide +kernel)

end UpsServer
