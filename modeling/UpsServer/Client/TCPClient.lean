import UpsServer.Client.Envelope

/-!
# Receiving at the client

`TCPClient.run` reads into one buffer of a thousand bytes again and again, and hands on the array
that `copyAndCut` returns. That array is the buffer itself and not the part that was read. So what
is handed on is what was read only if every read fills the buffer, and since no packet of a
thousand bytes passes the size check, the listener never decodes a message.
-/

namespace UpsServer.Client

open Framework

/-- A call of the `NetworkManagerCallback`, or `NetworkManager.clientOff`. -/
inductive Report where
  | rcvRawMessage (bytes : Bytes)
  | rcvMessage (message : Message)
  | rcvBadMsg (thrown : Thrown)
  | clientOff

namespace NetworkManager

/-- The part of `NetworkManager.processRawMessage` that may throw. -/
def decode (bytes : Bytes) : Except Thrown Message := do
  MessageSerializer.checkMessage bytes
  let message ← MessageSerializer.initMessage bytes
  MessageSerializer.deserializeMessage message

/-- `NetworkManager.processRawMessage`: what is reported, and what is thrown. -/
def processRawMessage (serialize : Bool) (bytes : Bytes) : List Report × Option Thrown :=
  if serialize then
    match decode bytes with
    | .ok message => ([.rcvRawMessage bytes, .rcvMessage message], none)
    | .error thrown => ([.rcvRawMessage bytes], some thrown)
  else ([.rcvRawMessage bytes], none)

end NetworkManager

namespace TCPClient

/-! ## The listener -/

/-- `TCPClient.BUFF_SIZE`. -/
def BUFF_SIZE : Nat := 1000

/-- A call of `in.read(buff)` that returns data: the bytes read, at least one and at most as many
    as the buffer holds, and the flag `serialize` at that time. -/
structure Read where
  bytes : Bytes
  nonempty : 0 < bytes.length
  fits : bytes.length ≤ BUFF_SIZE
  serialize : Bool

/-- How the loop of `TCPClient.run` ends. -/
inductive Ending where
  | endOfStream
  | socketException
  | ioException

/-- `new byte[BUFF_SIZE]`. -/
def newBuff : Bytes := List.replicate BUFF_SIZE 0

theorem length_newBuff : newBuff.length = BUFF_SIZE := List.length_replicate

/-- `in.read(buff)` overwrites the front of the buffer. -/
def fill (buff bytes : Bytes) : Bytes := bytes ++ buff.drop bytes.length

/-- `TCPClient.copyAndCut`: the copy is made and the buffer is returned. -/
def copyAndCut (buff : Bytes) (len : Nat) : Bytes :=
  let _bytes := buff.take len
  buff

/-- One call of `processRawMessage` and the `catch` clause around it. -/
def handle (serialize : Bool) (bytes : Bytes) : List Report :=
  match NetworkManager.processRawMessage serialize bytes with
  | (reports, none) => reports
  | (reports, some thrown) => reports ++ [.rcvBadMsg thrown]

/-- The loop of `TCPClient.run` as long as data is read. -/
def listen : Bytes → List Read → List Report
  | _, [] => []
  | buff, read :: reads =>
    let buff := fill buff read.bytes
    handle read.serialize (copyAndCut buff read.bytes.length) ++ listen buff reads

/-- What is reported when the loop ends; it may also still be waiting for data. -/
def reportEnding : Option Ending → List Report
  | none => []
  | some .endOfStream => [.clientOff]
  | some .socketException => []
  | some .ioException => [.clientOff]

/-- `TCPClient.run`. -/
def run (reads : List Read) (ending : Option Ending) : List Report :=
  listen newBuff reads ++ reportEnding ending

/-! ## What is handed on -/

/-- The array that `processRawMessage` was called with. -/
def arrayOf : Report → Option Bytes
  | .rcvRawMessage bytes => some bytes
  | _ => none

/-- The arrays that `processRawMessage` was called with. -/
def handedOn (reports : List Report) : List Bytes := reports.filterMap arrayOf

theorem handedOn_append (reports reports' : List Report) :
    handedOn (reports ++ reports') = handedOn reports ++ handedOn reports' :=
  List.filterMap_append

/-- Every call reports the array it was given. -/
theorem handedOn_handle (serialize : Bool) (bytes : Bytes) :
    handedOn (handle serialize bytes) = [bytes] := by
  unfold handle NetworkManager.processRawMessage
  cases serialize with
  | false => rfl
  | true =>
    cases NetworkManager.decode bytes with
    | ok message => rfl
    | error thrown => rfl

theorem handedOn_reportEnding (ending : Option Ending) : handedOn (reportEnding ending) = [] := by
  rcases ending with _ | ending
  · rfl
  · cases ending <;> rfl

/-- The buffer keeps its size. -/
theorem length_fill {buff : Bytes} (read : Read) (h : buff.length = BUFF_SIZE) :
    (fill buff read.bytes).length = BUFF_SIZE := by
  have hfits := read.fits
  rw [fill, List.length_append, List.length_drop, h]
  omega

/-- A read that fills the buffer leaves nothing of what stood there. -/
theorem fill_of_full {buff : Bytes} {read : Read} (h : buff.length = BUFF_SIZE)
    (hfull : read.bytes.length = BUFF_SIZE) : fill buff read.bytes = read.bytes := by
  rw [fill, List.drop_eq_nil_of_le (by omega), List.append_nil]

/-- Every read hands on as many bytes as the buffer has. -/
theorem length_handedOn {buff : Bytes} (h : buff.length = BUFF_SIZE) (reads : List Read) :
    (handedOn (listen buff reads)).flatten.length = reads.length * BUFF_SIZE := by
  induction reads generalizing buff with
  | nil => simp [listen, handedOn]
  | cons read reads ih =>
    have hfill := length_fill read h
    rw [listen, handedOn_append, handedOn_handle, List.flatten_append, List.length_append,
      ih hfill, List.length_cons, Nat.add_one_mul]
    show (copyAndCut (fill buff read.bytes) read.bytes.length ++ []).length + _ = _
    rw [List.append_nil, copyAndCut, hfill, Nat.add_comm]

/-- No more bytes are read than the buffer has each time, and as many only if every read fills
    it. -/
theorem full_of_length (reads : List Read) :
    (reads.flatMap Read.bytes).length ≤ reads.length * BUFF_SIZE ∧
      ((reads.flatMap Read.bytes).length = reads.length * BUFF_SIZE →
        ∀ read ∈ reads, read.bytes.length = BUFF_SIZE) := by
  induction reads with
  | nil => exact ⟨Nat.zero_le _, fun _ _ hmem => absurd hmem List.not_mem_nil⟩
  | cons read reads ih =>
    obtain ⟨hle, hfull⟩ := ih
    have hfits := read.fits
    rw [List.flatMap_cons, List.length_append, List.length_cons, Nat.add_one_mul]
    refine ⟨by omega, ?_⟩
    intro heq
    exact List.forall_mem_cons.mpr ⟨by omega, hfull (by omega)⟩

/-! ## When what is handed on is what was read -/

/-- What a listener reports that hands on exactly the bytes of each read. -/
def expected (reads : List Read) (ending : Option Ending) : List Report :=
  (reads.flatMap fun read => handle read.serialize read.bytes) ++ reportEnding ending

/-- The bytes handed on are the bytes read, and each read is checked and decoded as the bytes
    that came in it. -/
structure Faithful (reads : List Read) (ending : Option Ending) : Prop where
  stream : (handedOn (run reads ending)).flatten = reads.flatMap Read.bytes
  packets : run reads ending = expected reads ending

/-- Full reads are handed on as they come. -/
theorem listen_of_full {buff : Bytes} (h : buff.length = BUFF_SIZE) {reads : List Read}
    (hfull : ∀ read ∈ reads, read.bytes.length = BUFF_SIZE) :
    listen buff reads = reads.flatMap fun read => handle read.serialize read.bytes := by
  induction reads generalizing buff with
  | nil => rfl
  | cons read reads ih =>
    obtain ⟨hread, hreads⟩ := List.forall_mem_cons.mp hfull
    have hfill := fill_of_full h hread
    rw [listen, List.flatMap_cons, copyAndCut, hfill, ih hread hreads]

theorem handedOn_expected (reads : List Read) (ending : Option Ending) :
    (handedOn (expected reads ending)).flatten = reads.flatMap Read.bytes := by
  rw [expected, handedOn_append, handedOn_reportEnding, List.append_nil]
  induction reads with
  | nil => rfl
  | cons read reads ih =>
    rw [List.flatMap_cons, handedOn_append, handedOn_handle, List.flatten_append, ih,
      List.flatMap_cons]
    congr 1
    exact List.append_nil _

/-- **The receive path**: what is handed on is what was read exactly when every read fills the
    buffer. -/
theorem faithful_iff (reads : List Read) (ending : Option Ending) :
    Faithful reads ending ↔ ∀ read ∈ reads, read.bytes.length = BUFF_SIZE := by
  constructor
  · intro h
    have hlength := length_handedOn length_newBuff reads
    have hstream := congrArg List.length h.stream
    rw [run, handedOn_append, handedOn_reportEnding, List.append_nil, hlength] at hstream
    exact (full_of_length reads).2 hstream.symm
  · intro hfull
    have hrun : run reads ending = expected reads ending := by
      rw [run, expected, listen_of_full length_newBuff hfull]
    refine ⟨?_, hrun⟩
    rw [hrun]
    exact handedOn_expected reads ending

/-- A packet of nine bytes is handed on with the 991 zero bytes behind it. -/
theorem not_faithful :
    ¬ ∀ (reads : List Read) (ending : Option Ending), Faithful reads ending := by
  intro h
  let read : Read :=
    { bytes := [0, 0, 0, 1, 0, 0, 0, 9, 118]
      nonempty := by decide
      fits := by decide
      serialize := true }
  have hlength := length_handedOn length_newBuff [read]
  have hstream := congrArg List.length (h [read] none).stream
  rw [run, handedOn_append, handedOn_reportEnding, List.append_nil, hlength] at hstream
  revert hstream
  decide

/-! ## What the listener makes of it -/

/-- The size check fails on every array that is handed on. -/
theorem decode_of_length {bytes : Bytes} (h : bytes.length = BUFF_SIZE) :
    NetworkManager.decode bytes = .error .badLength := by
  have hlong : 9 ≤ bytes.length := by
    rw [h]
    decide
  obtain ⟨h₀, h₁, h₂, h₃, l₀, l₁, l₂, l₃, body, c, rfl⟩ := exists_envelope hlong
  rw [length_envelope] at h
  have hbyte := l₃.toInt_lt
  have hsize : ((9 + body.length : Nat) : Int) ≠ l₃.toInt := by
    rw [h, BUFF_SIZE]
    omega
  rw [NetworkManager.decode, MessageSerializer.checkMessage,
    MessageSerializer.checkMinimalSize_envelope, ok_bind,
    MessageSerializer.checkTotalSize_envelope, if_pos hsize, error_bind, error_bind]

/-- Handing on a whole buffer reports no message. -/
theorem rcvMessage_not_mem_handle (serialize : Bool) {bytes : Bytes}
    (h : bytes.length = BUFF_SIZE) (message : Message) :
    Report.rcvMessage message ∉ handle serialize bytes := by
  unfold handle NetworkManager.processRawMessage
  rw [decode_of_length h]
  cases serialize <;> simp

theorem rcvMessage_not_mem_listen {buff : Bytes} (h : buff.length = BUFF_SIZE)
    (reads : List Read) (message : Message) :
    Report.rcvMessage message ∉ listen buff reads := by
  induction reads generalizing buff with
  | nil => exact List.not_mem_nil
  | cons read reads ih =>
    intro hmem
    have hfill := length_fill read h
    rcases List.mem_append.mp hmem with hhere | hthere
    · exact rcvMessage_not_mem_handle read.serialize hfill message hhere
    · exact ih hfill hthere

/-- **Nothing is received**: whatever is read, no message is ever decoded. -/
theorem rcvMessage_not_mem_run (reads : List Read) (ending : Option Ending) (message : Message) :
    Report.rcvMessage message ∉ run reads ending := by
  intro hmem
  rcases List.mem_append.mp hmem with hloop | hend
  · exact rcvMessage_not_mem_listen length_newBuff reads message hloop
  · rcases ending with _ | ending
    · cases hend
    · cases ending <;> simp [reportEnding] at hend

end TCPClient

end UpsServer.Client
