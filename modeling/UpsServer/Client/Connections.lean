import UpsServer.Client.MessageSerializer
import UpsServer.Client.TCPClient
import UpsServer.Framework.Machine
import UpsServer.Framework.PointerHeap

/-!
# The connections of the client

`NetworkManager` keeps one `TCPClient`, and every `TCPClient` that has connected runs a listener
of its own. A listener that leaves its loop calls `clientOff`, which clears the field `client`
whichever `TCPClient` it holds by then. So the calls of the application and the listeners
interleave statement by statement: one machine takes all of these steps in any order.

A connection is leaked when it is open and listened to and the field no longer holds it: nobody
can close it any more. This never happens as long as `connect` is called only when no listener can
still call `clientOff`, and every other call of `connect` may leak.
-/

namespace UpsServer.Client

open Framework

/-! ## One connection -/

/-- A `TCPClient`: its socket and its listener. -/
inductive Link where
  /-- No socket was opened: `socket`, `in` and `out` are null. -/
  | created
  /-- The socket is open and the listener reads. -/
  | listening
  /-- `stop` has closed the socket and the listener has not noticed it. -/
  | stopped
  /-- The listener has left its loop and will call `clientOff`. -/
  | leaving (closed : Bool)
  /-- The listener is gone. -/
  | finished (closed : Bool)
  deriving DecidableEq

/-- The listener has left its loop and will call `clientOff`. -/
def Link.left : Link → Bool
  | .leaving _ => true
  | _ => false

theorem Link.left_iff {link : Link} : link.left = true ↔ ∃ closed, link = .leaving closed := by
  cases link <;> simp [Link.left]

/-- The listener may still call `clientOff`. -/
def Link.busy : Link → Bool
  | .listening => true
  | .leaving _ => true
  | _ => false

namespace TCPClient

/-- `TCPClient.connect`; whether the socket can be opened is up to the network. -/
def connect (succeeds : Bool) (link : Link) : Link := if succeeds then .listening else link

/-- `TCPClient.stop`. -/
def stop : Link → Except Thrown Link
  | .created => .error .nullPointer
  | .listening => .ok .stopped
  | .stopped => .ok .stopped
  | .leaving _ => .ok (.leaving true)
  | .finished _ => .ok (.finished true)

/-- `TCPClient.sendMessage`: what is written. The exception of a closed socket is caught. -/
def sendMessage (bytes : Bytes) : Link → Except Thrown (List Bytes)
  | .created => .error .nullPointer
  | .listening => .ok [bytes]
  | .stopped => .ok []
  | .leaving closed => .ok (if closed then [] else [bytes])
  | .finished closed => .ok (if closed then [] else [bytes])

/-- The loop of `TCPClient.run` ends. A `SocketException` is not followed by `clientOff`. -/
def leave (ending : Ending) : Link → Link
  | .listening =>
    match ending with
    | .endOfStream => .leaving false
    | .socketException => .finished false
    | .ioException => .leaving false
  | .stopped => .finished true
  | link => link

/-- A read on an open socket may end the loop in any way, one on a closed socket throws. -/
def mayLeave : Ending → Link → Bool
  | _, .listening => true
  | .socketException, .stopped => true
  | _, _ => false

end TCPClient

namespace NetworkManager

/-! ## The network manager and its threads -/

/-- Where the calling thread stands. -/
inductive Caller where
  | idle
  /-- In `connect`, after the assignment. -/
  | connecting
  /-- In `disconnect`, after `client.stop()`. -/
  | stopping
  /-- In `sendRawMessage` or `sendMessage`, with the bytes to be sent. -/
  | sending (bytes : Bytes)
  deriving DecidableEq

/-- The bytes that are still to be sent. -/
def Caller.message : Caller → Option Bytes
  | .sending bytes => some bytes
  | _ => none

/-- All `TCPClient`s, the field `client`, what was written to which of them, and what was thrown
    to the application. -/
structure State where
  links : Heap Link
  client : Option Nat
  caller : Caller
  written : List (Nat × Bytes)
  thrown : List Thrown

namespace State

def init : State := ⟨.empty .created, none, .idle, [], []⟩

/-- The call ends with an exception. -/
def raise (s : State) (thrown : Thrown) : State :=
  { s with caller := .idle, thrown := s.thrown ++ [thrown] }

end State

/-- `isConnected`. -/
def isConnected (s : State) : Bool := s.client.isSome

/-- `connect`, up to the assignment to `client`. -/
def connect (s : State) : State :=
  { s with links := s.links.alloc .created, client := some s.links.next, caller := .connecting }

/-- `connect`, the call of `client.connect()`. -/
def connectClient (succeeds : Bool) (s : State) : State :=
  match s.client with
  | none => s.raise .nullPointer
  | some l => { s with links := s.links.modify l (TCPClient.connect succeeds), caller := .idle }

/-- `disconnect`, the call of `client.stop()`. -/
def disconnect (s : State) : State :=
  match s.client with
  | none => s.raise .nullPointer
  | some l =>
    match TCPClient.stop (s.links.get l) with
    | .error thrown => s.raise thrown
    | .ok link => { s with links := s.links.modify l fun _ => link, caller := .stopping }

/-- `disconnect`, the assignment of null. -/
def forgetClient (s : State) : State := { s with client := none, caller := .idle }

/-- `sendRawMessage`, the check. -/
def sendRawMessage (bytes : Bytes) (s : State) : State :=
  if isConnected s then { s with caller := .sending bytes } else s

/-- `sendMessage`, the check and the call of `serializer.serializeMessage`. -/
def sendMessage (message : Message) (s : State) : State :=
  if isConnected s then
    match MessageSerializer.serializeMessage message with
    | .error thrown => s.raise thrown
    | .ok bytes => { s with caller := .sending bytes }
  else s

/-- `sendRawMessage` and `sendMessage`, the call of `client.sendMessage(bytes)`. -/
def sendToClient (bytes : Bytes) (s : State) : State :=
  match s.client with
  | none => s.raise .nullPointer
  | some l =>
    match TCPClient.sendMessage bytes (s.links.get l) with
    | .error thrown => s.raise thrown
    | .ok sent => { s with caller := .idle, written := s.written ++ sent.map fun x => (l, x) }

/-- `clientOff`, called by the listener of `l`. -/
def clientOff (l : Nat) (s : State) : State :=
  { s with
    client := none
    links := s.links.modify l fun link =>
      match link with
      | .leaving closed => .finished closed
      | link => link }

/-- The steps of the calling thread and of the listeners. -/
inductive Step where
  | connect
  | connectClient (succeeds : Bool)
  | disconnect
  | forgetClient
  | sendRawMessage (bytes : Bytes)
  | sendMessage (message : Message)
  | sendToClient
  | leave (l : Nat) (ending : TCPClient.Ending)
  | clientOff (l : Nat)

/-- The calling thread goes on where it stands, and a listener as far as it has come. -/
def Enabled (s : State) : Step → Prop
  | .connect => s.caller = .idle
  | .connectClient _ => s.caller = .connecting
  | .disconnect => s.caller = .idle
  | .forgetClient => s.caller = .stopping
  | .sendRawMessage _ => s.caller = .idle
  | .sendMessage _ => s.caller = .idle
  | .sendToClient => s.caller.message.isSome
  | .leave l ending => TCPClient.mayLeave ending (s.links.get l)
  | .clientOff l => (s.links.get l).left

instance (s : State) : (a : Step) → Decidable (Enabled s a)
  | .connect => inferInstanceAs (Decidable (s.caller = .idle))
  | .connectClient _ => inferInstanceAs (Decidable (s.caller = .connecting))
  | .disconnect => inferInstanceAs (Decidable (s.caller = .idle))
  | .forgetClient => inferInstanceAs (Decidable (s.caller = .stopping))
  | .sendRawMessage _ => inferInstanceAs (Decidable (s.caller = .idle))
  | .sendMessage _ => inferInstanceAs (Decidable (s.caller = .idle))
  | .sendToClient => inferInstanceAs (Decidable (s.caller.message.isSome = true))
  | .leave l ending =>
    inferInstanceAs (Decidable (TCPClient.mayLeave ending (s.links.get l) = true))
  | .clientOff l => inferInstanceAs (Decidable ((s.links.get l).left = true))

/-- One step. -/
def exec (s : State) : Step → State
  | .connect => connect s
  | .connectClient succeeds => connectClient succeeds s
  | .disconnect => disconnect s
  | .forgetClient => forgetClient s
  | .sendRawMessage bytes => sendRawMessage bytes s
  | .sendMessage message => sendMessage message s
  | .sendToClient =>
    match s.caller.message with
    | some bytes => sendToClient bytes s
    | none => s
  | .leave l ending => { s with links := s.links.modify l (TCPClient.leave ending) }
  | .clientOff l => clientOff l s

/-- The client, from its first call on. An exception ends a call and not the client. -/
def machine : Machine State Step Empty where
  init := .init
  Enabled := Enabled
  exec s a := .ok (exec s a)

instance (s : State) (a : Step) : Decidable (machine.Enabled s a) :=
  inferInstanceAs (Decidable (Enabled s a))

/-! ## Leaks -/

/-- A connection is open and listened to, and the field `client` does not hold it. -/
def State.Leaks (s : State) : Prop := ∃ l, s.links.get l = .listening ∧ s.client ≠ some l

/-- No listener can call `clientOff` any more. -/
def State.Quiet (s : State) : Prop := ∀ l < s.links.next, (s.links.get l).busy = false

instance (s : State) : Decidable s.Quiet :=
  inferInstanceAs (Decidable (∀ l < s.links.next, (s.links.get l).busy = false))

/-- `connect` is called only when no listener can call `clientOff` any more. -/
def Careful (s : State) : Step → Prop
  | .connect => s.Quiet
  | _ => True

instance (s : State) : (a : Step) → Decidable (Careful s a)
  | .connect => inferInstanceAs (Decidable s.Quiet)
  | .connectClient _ | .disconnect | .forgetClient | .sendRawMessage _ | .sendMessage _
  | .sendToClient | .leave _ _ | .clientOff _ => isTrue trivial

/-- What careful runs keep. -/
structure Kept (s : State) : Prop where
  blank : ∀ l, s.links.next ≤ l → s.links.get l = .created
  /-- What is listened to is held. -/
  held : ∀ l, s.links.get l = .listening → s.client = some l
  /-- What `clientOff` will clear is the connection it is called for. -/
  own : ∀ l closed l', s.links.get l = .leaving closed → s.client = some l' → l' = l
  fresh : s.caller = .connecting →
    ∃ l < s.links.next, s.client = some l ∧ s.links.get l = .created
  stopping : s.caller = .stopping → ∀ l, s.links.get l ≠ .listening

theorem kept_init : Kept .init where
  blank _ _ := rfl
  held _ h := by cases h
  own _ _ _ h := by cases h
  fresh h := by cases h
  stopping h := by cases h

section Steps

variable {s : State}

/-- Steps that change neither the connections nor the field. -/
theorem Kept.other (h : Kept s) {t : State} (links : t.links = s.links)
    (client : t.client = s.client) (connecting : t.caller ≠ .connecting)
    (stopping : t.caller ≠ .stopping) : Kept t where
  blank := by rw [links]; exact h.blank
  held := by rw [links, client]; exact h.held
  own := by rw [links, client]; exact h.own
  fresh hcaller := absurd hcaller connecting
  stopping hcaller := absurd hcaller stopping

theorem Kept.raise (h : Kept s) (thrown : Thrown) : Kept (s.raise thrown) :=
  h.other rfl rfl (by simp [State.raise]) (by simp [State.raise])

/-- A busy connection was created by `connect`. -/
theorem Kept.lt_next (h : Kept s) {l : Nat} (busy : (s.links.get l).busy = true) :
    l < s.links.next := by
  by_contra hle
  rw [h.blank l (Nat.le_of_not_lt hle)] at busy
  cases busy

theorem Kept.connect (h : Kept s) (quiet : s.Quiet) : Kept (connect s) := by
  -- the new connection is not busy, and neither is any other
  have hidle : ∀ l, ((s.links.alloc .created).get l).busy = false := by
    intro l
    rw [Heap.get_alloc]
    split
    · rfl
    · by_contra hbusy
      rw [Bool.not_eq_false] at hbusy
      rw [quiet l (h.lt_next hbusy)] at hbusy
      cases hbusy
  refine ⟨?_, ?_, ?_, ?_, ?_⟩
  · intro l hle
    have hle' : s.links.next + 1 ≤ l := hle
    exact (Heap.get_alloc _ _ _).trans ((if_neg (by omega)).trans (h.blank l (by omega)))
  · intro l hlink
    have hbusy := hidle l
    rw [show (s.links.alloc .created).get l = .listening from hlink] at hbusy
    cases hbusy
  · intro l closed l' hlink _
    have hbusy := hidle l
    rw [show (s.links.alloc .created).get l = .leaving closed from hlink] at hbusy
    cases hbusy
  · intro _
    exact ⟨s.links.next, Nat.lt_succ_self _, rfl, (Heap.get_alloc _ _ _).trans (if_pos rfl)⟩
  · intro hcaller
    cases hcaller

/-- One connection of the heap changes to a state in which it is not listened to unless it was,
    and its listener leaves its loop only if the field holds it. -/
theorem Kept.modify (h : Kept s) {t : State} {l : Nat} {f : Link → Link} (lt : l < s.links.next)
    (links : t.links = s.links.modify l f) (client : t.client = s.client)
    (connecting : t.caller = .connecting → s.caller = .connecting ∧ s.links.get l ≠ .created)
    (listens : f (s.links.get l) = .listening → s.client = some l ∧ t.caller ≠ .stopping)
    (leaves : ∀ closed, f (s.links.get l) = .leaving closed → ∀ l', s.client = some l' → l' = l)
    (stopping : t.caller = .stopping → ∀ l' ≠ l, s.links.get l' ≠ .listening) : Kept t := by
  have hself : t.links.get l = f (s.links.get l) := by rw [links, Heap.get_modify_self]
  have hother : ∀ l' ≠ l, t.links.get l' = s.links.get l' := fun l' hne => by
    rw [links, Heap.get_modify_of_ne _ _ hne]
  refine ⟨?_, ?_, ?_, ?_, ?_⟩
  · intro l' hle
    rw [links, Heap.next_modify] at hle
    rw [hother l' (by omega)]
    exact h.blank l' hle
  · intro l' hlink
    rw [client]
    by_cases heq : l' = l
    · subst heq
      exact (listens (hself ▸ hlink)).1
    · exact h.held l' (hother l' heq ▸ hlink)
  · intro l' closed l'' hlink hclient
    rw [client] at hclient
    by_cases heq : l' = l
    · subst heq
      exact leaves closed (hself ▸ hlink) l'' hclient
    · exact h.own l' closed l'' (hother l' heq ▸ hlink) hclient
  · intro hcaller
    obtain ⟨hcaller', hcreated⟩ := connecting hcaller
    obtain ⟨l', hlt, hclient, hlink⟩ := h.fresh hcaller'
    refine ⟨l', by rw [links]; exact hlt, by rw [client]; exact hclient, ?_⟩
    rw [hother l' fun heq => hcreated (heq ▸ hlink)]
    exact hlink
  · intro hcaller l' hlink
    by_cases heq : l' = l
    · subst heq
      exact (listens (hself ▸ hlink)).2 hcaller
    · exact stopping hcaller l' heq (hother l' heq ▸ hlink)

theorem Kept.connectClient (h : Kept s) (succeeds : Bool) (caller : s.caller = .connecting) :
    Kept (connectClient succeeds s) := by
  obtain ⟨l, hlt, hclient, hlink⟩ := h.fresh caller
  simp only [NetworkManager.connectClient, hclient]
  refine h.modify (f := TCPClient.connect succeeds) hlt rfl hclient.symm ?_ ?_ ?_ ?_
  · intro hcaller
    cases hcaller
  · intro _
    exact ⟨hclient, fun hcaller => by cases hcaller⟩
  · intro closed hleaving
    rw [hlink, TCPClient.connect] at hleaving
    cases succeeds <;> cases hleaving
  · intro hcaller
    cases hcaller

/-- `stop` does not start a listener, and it makes none leave its loop. -/
theorem stop_ok {link link' : Link} (h : TCPClient.stop link = .ok link') :
    link ≠ .created ∧ link' ≠ .listening ∧
      ∀ closed, link' = .leaving closed → ∃ closed', link = .leaving closed' := by
  cases link <;> cases h <;> simp

theorem Kept.disconnect (h : Kept s) : Kept (disconnect s) := by
  unfold NetworkManager.disconnect
  cases hclient : s.client with
  | none => exact h.raise _
  | some l =>
    cases hstop : TCPClient.stop (s.links.get l) with
    | error thrown => simpa only [hstop] using h.raise thrown
    | ok link =>
      simp only [hstop]
      obtain ⟨hcreated, hlistening, hleaving⟩ := stop_ok hstop
      have hlt : l < s.links.next := by
        by_contra hle
        exact hcreated (h.blank l (Nat.le_of_not_lt hle))
      refine h.modify (f := fun _ => link) hlt rfl hclient.symm ?_ ?_ ?_ ?_
      · intro hcaller
        cases hcaller
      · intro hlink
        exact absurd hlink hlistening
      · intro closed hlink l' hclient'
        obtain ⟨closed', hlink'⟩ := hleaving closed hlink
        exact h.own l closed' l' hlink' hclient'
      · intro _ l' hne hlink
        have hheld := h.held l' hlink
        rw [hclient] at hheld
        exact hne (Option.some.inj hheld).symm

theorem Kept.forgetClient (h : Kept s) (caller : s.caller = .stopping) :
    Kept (forgetClient s) where
  blank := h.blank
  held l hlink := absurd hlink (h.stopping caller l)
  own _ _ _ _ hclient := by cases hclient
  fresh hcaller := by cases hcaller
  stopping hcaller := by cases hcaller

theorem Kept.sendRawMessage (h : Kept s) (bytes : Bytes) (caller : s.caller = .idle) :
    Kept (sendRawMessage bytes s) := by
  unfold NetworkManager.sendRawMessage
  split
  · exact h.other rfl rfl (by simp) (by simp)
  · exact h.other rfl rfl (by simp [caller]) (by simp [caller])

theorem Kept.sendMessage (h : Kept s) (message : Message) (caller : s.caller = .idle) :
    Kept (sendMessage message s) := by
  unfold NetworkManager.sendMessage
  split
  · cases hbytes : MessageSerializer.serializeMessage message with
    | error thrown => exact h.raise thrown
    | ok bytes => exact h.other rfl rfl (by simp) (by simp)
  · exact h.other rfl rfl (by simp [caller]) (by simp [caller])

theorem Kept.sendToClient (h : Kept s) (bytes : Bytes) : Kept (sendToClient bytes s) := by
  unfold NetworkManager.sendToClient
  cases hclient : s.client with
  | none => exact h.raise _
  | some l =>
    cases hsend : TCPClient.sendMessage bytes (s.links.get l) with
    | error thrown => simpa only [hsend] using h.raise thrown
    | ok sent =>
      simp only [hsend]
      exact h.other rfl hclient.symm (by simp) (by simp)

/-- A loop that ends starts no listener, and only a listener whose socket is open will call
    `clientOff`. -/
theorem leave_of_mayLeave {ending : TCPClient.Ending} {link : Link}
    (h : TCPClient.mayLeave ending link = true) :
    link ≠ .created ∧ TCPClient.leave ending link ≠ .listening ∧
      ∀ closed, TCPClient.leave ending link = .leaving closed → link = .listening := by
  cases link with
  | listening => cases ending <;> simp [TCPClient.leave]
  | stopped => simp [TCPClient.leave]
  | _ => cases ending <;> cases h

theorem Kept.leave (h : Kept s) {l : Nat} {ending : TCPClient.Ending}
    (ends : TCPClient.mayLeave ending (s.links.get l) = true) :
    Kept { s with links := s.links.modify l (TCPClient.leave ending) } := by
  obtain ⟨hcreated, hlistening, hleaving⟩ := leave_of_mayLeave ends
  have hlt : l < s.links.next := by
    by_contra hle
    exact hcreated (h.blank l (Nat.le_of_not_lt hle))
  refine h.modify (f := TCPClient.leave ending) hlt rfl rfl ?_ ?_ ?_ ?_
  · intro hcaller
    exact ⟨hcaller, hcreated⟩
  · intro hlink
    exact absurd hlink hlistening
  · intro closed hlink l' hclient
    rw [h.held l (hleaving closed hlink)] at hclient
    exact (Option.some.inj hclient).symm
  · intro hcaller l' _
    exact h.stopping hcaller l'

/-- What a stale listener clears is its own connection, so nothing that is listened to. -/
theorem Kept.clientOff (h : Kept s) {l : Nat} {closed : Bool}
    (leaving : s.links.get l = .leaving closed) : Kept (clientOff l s) := by
  have hnone : ∀ l', s.links.get l' ≠ .listening := by
    intro l' hlink
    have heq := h.own l closed l' leaving (h.held l' hlink)
    rw [heq, leaving] at hlink
    cases hlink
  have hself : (NetworkManager.clientOff l s).links.get l = .finished closed := by
    rw [NetworkManager.clientOff, Heap.get_modify_self, leaving]
  have hother : ∀ l' ≠ l, (NetworkManager.clientOff l s).links.get l' = s.links.get l' :=
    fun l' hne => by rw [NetworkManager.clientOff, Heap.get_modify_of_ne _ _ hne]
  have hlistening : ∀ l', (NetworkManager.clientOff l s).links.get l' ≠ .listening := by
    intro l' hlink
    by_cases heq : l' = l
    · rw [heq, hself] at hlink
      cases hlink
    · exact hnone l' (hother l' heq ▸ hlink)
  refine ⟨?_, fun l' hlink => absurd hlink (hlistening l'), ?_, ?_, fun _ => hlistening⟩
  · intro l' hle
    have hlt := h.lt_next (l := l) (by rw [leaving]; rfl)
    have hle' : s.links.next ≤ l' := hle
    rw [hother l' (by omega)]
    exact h.blank l' hle'
  · intro _ _ _ _ hclient
    cases hclient
  · intro hcaller
    -- a new connection is not the one that is left, so `clientOff` cannot come now
    obtain ⟨l', _, hclient, hlink⟩ := h.fresh hcaller
    rw [h.own l closed l' leaving hclient, leaving] at hlink
    cases hlink

/-- Careful steps keep what they should. -/
theorem Kept.exec (h : Kept s) {a : Step} (enabled : Enabled s a) (careful : Careful s a) :
    Kept (exec s a) := by
  cases a with
  | connect => exact h.connect careful
  | connectClient succeeds => exact h.connectClient succeeds enabled
  | disconnect => exact h.disconnect
  | forgetClient => exact h.forgetClient enabled
  | sendRawMessage bytes => exact h.sendRawMessage bytes enabled
  | sendMessage message => exact h.sendMessage message enabled
  | sendToClient =>
    cases hmessage : s.caller.message with
    | none =>
      simp only [NetworkManager.Enabled, hmessage] at enabled
      cases enabled
    | some bytes =>
      simp only [NetworkManager.exec, hmessage]
      exact h.sendToClient bytes
  | leave l ending => exact h.leave enabled
  | clientOff l =>
    obtain ⟨closed, hlink⟩ := Link.left_iff.mp enabled
    exact h.clientOff hlink

end Steps

theorem kept {s : State} (h : machine.ReachableUnder Careful s) : Kept s := by
  apply Machine.ReachableFrom.invariant h kept_init
  intro t u a _ hkept henabled hcareful hexec
  cases hexec
  exact hkept.exec henabled hcareful

/-! ## When connections are leaked -/

theorem Kept.not_leaks {s : State} (h : Kept s) : ¬ s.Leaks := by
  rintro ⟨l, hlink, hclient⟩
  exact hclient (h.held l hlink)

/-- A second `connect` takes the field from the connection that is listened to. -/
theorem leaks_connect {s : State} {l : Nat} (lt : l < s.links.next)
    (link : s.links.get l = .listening) : (connect s).Leaks := by
  refine ⟨l, ?_, fun hclient => ?_⟩
  · rw [connect, Heap.get_alloc, if_neg (by omega)]
    exact link
  · have heq : s.links.next = l := Option.some.inj hclient
    omega

/-- A listener that has left its loop clears the field when the new connection is open. -/
theorem leaks_clientOff {s : State} {l : Nat} (lt : l < s.links.next) :
    (clientOff l (connectClient true (connect s))).Leaks := by
  refine ⟨s.links.next, ?_, fun hclient => by cases hclient⟩
  rw [clientOff, Heap.get_modify_of_ne _ _ (by omega)]
  show ((connect s).links.modify s.links.next (TCPClient.connect true)).get s.links.next = _
  rw [Heap.get_modify_self]
  rfl

/-- Whenever `connect` would not be careful, a run that starts with it leaks. -/
theorem leaks_of_not_quiet {s : State} (idle : s.caller = .idle) (busy : ¬ s.Quiet) :
    ∃ t, machine.ReachableFrom Machine.Unguarded s t ∧ t.Leaks := by
  simp only [State.Quiet, not_forall, Bool.not_eq_false] at busy
  obtain ⟨l, hlt, hbusy⟩ := busy
  have hconnect : machine.ReachableFrom Machine.Unguarded s (connect s) :=
    .step (a := .connect) .refl idle trivial rfl
  cases hlink : s.links.get l with
  | listening => exact ⟨_, hconnect, leaks_connect hlt hlink⟩
  | leaving closed =>
    have hopened : machine.ReachableFrom Machine.Unguarded s (connectClient true (connect s)) :=
      .step (a := .connectClient true) hconnect rfl trivial rfl
    have hleft : (connectClient true (connect s)).links.get l = .leaving closed := by
      show ((connect s).links.modify s.links.next (TCPClient.connect true)).get l = _
      rw [Heap.get_modify_of_ne _ _ (by omega), connect, Heap.get_alloc, if_neg (by omega)]
      exact hlink
    exact ⟨_, .step (a := .clientOff l) hopened (Link.left_iff.mpr ⟨closed, hleft⟩) trivial rfl,
      leaks_clientOff hlt⟩
  | _ =>
    rw [hlink] at hbusy
    cases hbusy

/-- **No connection is leaked** as long as `connect` is called only when no listener can call
    `clientOff` any more, and `connect` finds the `TCPClient` that it has just created. A call of
    `connect` at any other time can leak a connection. -/
theorem connections_are_kept (s : State) (h : machine.ReachableUnder Careful s) :
    ¬ s.Leaks ∧
      (s.caller = .connecting → ∃ l, s.client = some l ∧ s.links.get l = .created) ∧
      (s.caller = .idle → ¬ s.Quiet →
        ∃ t, machine.ReachableFrom Machine.Unguarded s t ∧ t.Leaks) := by
  have hkept := kept h
  refine ⟨hkept.not_leaks, ?_, leaks_of_not_quiet⟩
  intro hcaller
  obtain ⟨l, _, hclient, hlink⟩ := hkept.fresh hcaller
  exact ⟨l, hclient, hlink⟩

/-- The server closes the first connection, and a second one is opened. -/
def connectTwice : List Step :=
  [.connect, .connectClient true, .leave 0 .endOfStream, .clientOff 0, .connect,
    .connectClient true]

/-- The second connection is not leaked, and a third `connect` would leak it. -/
theorem connections_are_kept_twice :
    ¬ (machine.after Careful connectTwice).Leaks ∧
      (machine.after Careful connectTwice).client = some 1 ∧
      ∃ t, machine.ReachableFrom Machine.Unguarded (machine.after Careful connectTwice) t ∧
        t.Leaks := by
  obtain ⟨hkept, -, hleaks⟩ :=
    connections_are_kept (machine.after Careful connectTwice) (Machine.reachableUnder_after _)
  exact ⟨hkept, by decide, hleaks (by decide) (by decide)⟩

end NetworkManager

end UpsServer.Client
