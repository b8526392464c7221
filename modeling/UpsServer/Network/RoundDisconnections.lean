import UpsServer.Network.Disconnections
import UpsServer.Network.SelectLoop

/-!
# Whose connection ends in a round

`Server::run` handles the descriptors that `select` returned, one after the other, and calls
`proceedPlayerDisconnection` when nothing can be read from one of them. When another thread has
closed that descriptor in the meantime, the call finds nobody. This module follows all calls over
the runs of `ServerLoop`.
-/

namespace UpsServer

open Framework

namespace ServerLoop

/-! ## The calls -/

/-- The call of `proceedPlayerDisconnection` that a step makes: the state at that moment and the
    socket. -/
def calls (t : ServerLoop) : LoopStep → Option (State × Int)
  | .empty => some (t.state, t.fd)
  | .fail => if 0 < t.readSize then none else some (t.state, t.fd)
  | .other a => disconnects t.state a
  | .select _ | .skip | .accept _ _ | .read _ => none

/-- What the step does to the server is the call. -/
theorem exec_of_calls {t : ServerLoop} {step : LoopStep} {u : State} {fd : Int}
    (h : t.calls step = some (u, fd)) :
    (exec t step).map ServerLoop.state = Server.proceedPlayerDisconnection u fd := by
  have map_bind : ∀ (x : Except Fault State) (f : State → ServerLoop),
      (∀ s, (f s).state = s) → (x >>= fun s => pure (f s)).map ServerLoop.state = x := by
    intro x f hf
    cases x with
    | error e => rfl
    | ok s => exact congrArg Except.ok (hf s)
  cases step with
  | select | skip | accept | read => cases h
  | empty =>
    obtain ⟨rfl, rfl⟩ := Prod.mk.inj (Option.some.inj h)
    exact map_bind _ _ fun _ => rfl
  | fail =>
    simp only [calls] at h
    split at h
    · cases h
    · rename_i hsize
      obtain ⟨rfl, rfl⟩ := Prod.mk.inj (Option.some.inj h)
      simp only [exec, if_neg hsize]
      exact map_bind _ _ fun _ => rfl
  | other a =>
    rw [← exec_of_disconnects h]
    exact map_bind _ _ fun _ => rfl

/-- Nothing is closed before the call. -/
theorem descriptors_of_calls {t : ServerLoop} {step : LoopStep} {u : State} {fd : Int}
    (h : t.calls step = some (u, fd)) : u.descriptors = t.state.descriptors := by
  cases step with
  | select | skip | accept | read => cases h
  | empty =>
    obtain ⟨rfl, rfl⟩ := Prod.mk.inj (Option.some.inj h)
    rfl
  | fail =>
    simp only [calls] at h
    split at h
    · cases h
    · obtain ⟨rfl, rfl⟩ := Prod.mk.inj (Option.some.inj h)
      rfl
  | other a => exact (disconnects_eq_some h).1.descriptors

/-! ## Runs in which every call finds its player -/

/-- The condition on a step: it is orderly, no free player logs out without a socket, and no
    other thread closes a descriptor that the round has still to visit. -/
def LogsOutBehind (t : ServerLoop) (step : LoopStep) : Prop :=
  t.OthersMeet LogsOutOnce step ∧ t.KeepsReady step

instance (t : ServerLoop) (step : LoopStep) : Decidable (t.LogsOutBehind step) :=
  inferInstanceAs (Decidable (_ ∧ _))

/-- The server in such a run, and what the round has still to visit. -/
theorem reachable_of_logsOutBehind {serverSocket garbage : Int} {t : ServerLoop}
    (h : (machine serverSocket garbage).ReachableUnder LogsOutBehind t) :
    System.ReachableUnder LogsOutOnce t.state ∧ ReadyOpen serverSocket t := by
  have outer : ∀ s a, ¬ Inner a → LogsOutOnce s a := by
    rintro s a hinner
    refine ⟨?_, ?_⟩ <;> rintro rfl <;> exact absurd trivial hinner
  -- while everything ahead is open, a round is a run of the server
  refine Machine.ReachableFrom.invariant h
    (I := fun t => System.ReachableUnder LogsOutOnce t.state ∧ ReadyOpen serverSocket t)
    ?_ ?_
  · exact ⟨Machine.ReachableFrom.refl, fun _ hready => (List.not_mem_nil hready).elim⟩
  rintro t u step _ ⟨hreach, hopen⟩ henabled ⟨hothers, hkeeps⟩ hexec
  exact ⟨hreach.trans (exec_reaches outer hopen henabled hothers hexec),
    readyOpen_exec hopen henabled hkeeps hexec⟩

/-- Every call of `proceedPlayerDisconnection` finds its player, and every open descriptor belongs
    to exactly one entry. -/
def CallsFind (serverSocket : Int) (Guard : ServerLoop → LoopStep → Prop) (t : ServerLoop) :
    Prop :=
  (∀ fd p, t.state.descriptors fd = some p →
      t.state.players.filter (hasThisSocket t.state fd) = [p]) ∧
    ∀ step, Enabled serverSocket t step → Guard t step → ∀ u fd, t.calls step = some (u, fd) →
      (exec t step).map ServerLoop.state = Server.proceedPlayerDisconnection u fd ∧ EndsOne u fd

end ServerLoop

open ServerLoop

/-- Two connections on the descriptors 5 and 6; a logout of the second one waits to be handled. -/
def aboutToLogOut : List LoopStep :=
  [.select [3], .accept 5 false] ++ finishRound 4 ++ [.select [3], .accept 6 false] ++
    finishRound 4 ++ [.select [6], .skip, .skip, .skip,
      .read (System.clientPacket H_C_PL_LOGOUT [])] ++ finishRound 7 ++
    [.other .popPacket, .other .resolvePacket, .other .registerResolved]

/-- A client in no game sends `H_C_PL_LOGOUT` twice, and the first one was handled. -/
def logoutTwice : List LoopStep :=
  [.select [3], .accept 5 false] ++ finishRound 4 ++ [.select [5], .skip, .skip,
      .read (System.clientPacket H_C_PL_LOGOUT [])] ++ finishRound 6 ++
    [.select [5], .skip, .skip, .read (System.clientPacket H_C_PL_LOGOUT [])] ++
    [.popPacket, .resolvePacket, .registerResolved, .popPacket, .resolvePacket, .registerResolved,
      .runCommand].map .other

/-- The first connection ends in a round that has still to visit the second one; then the logout
    of the second one is handled. -/
def closedAhead : List LoopStep :=
  aboutToLogOut ++ [.select [5, 6], .skip, .skip, .empty, .other .runCommand]

/-- In some run in which nobody logs out twice, the round calls `proceedPlayerDisconnection` for a
    descriptor that another thread has closed. -/
theorem stale_round_finds_nobody :
    ¬ ∀ t, (machine 3 0).ReachableUnder (OthersMeet LogsOutOnce) t →
      CallsFind 3 (OthersMeet LogsOutOnce) t := by
  intro h
  have hstep : Enabled 3 ((machine 3 0).after (OthersMeet LogsOutOnce) closedAhead) .fail ∧
      (((machine 3 0).after (OthersMeet LogsOutOnce) closedAhead).calls .fail).map Prod.snd
          = some 6 ∧
        ((machine 3 0).after (OthersMeet LogsOutOnce) closedAhead).state.descriptors 6 = none := by
    decide +kernel
  obtain ⟨henabled, hcall, hclosed⟩ := hstep
  obtain ⟨⟨u, socket⟩, hcall, rfl⟩ := Option.map_eq_some_iff.mp hcall
  obtain ⟨-, hfind⟩ := h _ (Machine.reachableUnder_after closedAhead)
  obtain ⟨-, pl, -, hopen, -⟩ := hfind .fail henabled trivial u _ hcall
  rw [descriptors_of_calls hcall, hclosed] at hopen
  cases hopen

end UpsServer
