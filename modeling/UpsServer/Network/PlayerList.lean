import UpsServer.Framework.Separated
import UpsServer.Network.Orderly

/-!
# The list of players

`proceedPlayerListRequest` answers with a count and the offered names joined by `;`. Nothing keeps
that character out of a name, so the answer tells the names only when none of them contains it.
-/

namespace UpsServer

open Framework CommandManager Sender

/-! ## The answer -/

/-- The names of the players that are connected, named, available, in no game and named
    differently from the requester, in the order of the list. -/
def offeredList (s : State) (requester : PlayerRef) : List ByteString :=
  (s.players.filter (isOffered s requester)).map fun p => (s.player p).name

/-- The pieces of the answer: none when the count is zero, else what stands between the `;`. -/
def pieces (answer : UInt32 × ByteString) : List ByteString :=
  if answer.1 = 0 then [] else answer.2.splitOn 59

/-- Splitting the answer gives as many pieces as it counts, and these are the offered names. -/
def ListDecodable (s : State) (requester : PlayerRef) : Prop :=
  pieces (offeredNames s requester) = offeredList s requester ∧
    (pieces (offeredNames s requester)).length = (offeredNames s requester).1.toNat

/-- Offered players have different descriptors, and an `fd_set` holds no more than that. -/
theorem length_offeredList_le {s : State} (h : System.Reachable s) (requester : PlayerRef) :
    (offeredList s requester).length ≤ 1024 := by
  have hconn := connections_of_reachable h
  have hsockets := clientSockets_of_reachable h
  have hopen : ∀ p ∈ s.players.filter (isOffered s requester),
      s.descriptors (s.player p).socket = some p := by
    intro p hp
    have hoffered := (List.mem_filter.mp hp).2
    simp only [isOffered, Bool.and_eq_true] at hoffered
    exact hconn.socketOpen p hoffered.1.1.2
  have hnodup : (s.players.filter (isOffered s requester)).Nodup :=
    (registry_of_reachable h).playersNodup.filter _
  rw [offeredList, List.length_map, ← List.toFinset_card_of_nodup hnodup,
    ← Finset.card_range 1024]
  apply Finset.card_le_card_of_injOn fun p => (s.player p).socket.toNat
  · intro p hp
    obtain ⟨hlow, hhigh⟩ := hsockets.range _ _ (hopen p (by simpa using hp))
    have hmax : Server.fdSetSize = 1024 := rfl
    simp only [Finset.coe_range, Set.mem_Iio]
    omega
  · intro p hp q hq heq
    have hp_open := hopen p (by simpa using hp)
    have hq_open := hopen q (by simpa using hq)
    have hp_range := (hsockets.range _ _ hp_open).1
    have hq_range := (hsockets.range _ _ hq_open).1
    have hsame : (s.player p).socket = (s.player q).socket := by
      simp only at heq
      omega
    rw [hsame, hq_open] at hp_open
    exact (Option.some.inj hp_open).symm

/-- The loop of `proceedPlayerListRequest` counts and joins the offered names. -/
theorem offeredNames_eq {s : State} (h : System.Reachable s) (requester : PlayerRef) :
    offeredNames s requester
      = (UInt32.ofNat (offeredList s requester).length,
          ([59] : ByteString).intercalate (offeredList s requester)) := by
  have hlen := length_offeredList_le h requester
  have hloop := foldl_join (59 : UInt8) (isOffered s requester) (fun p => (s.player p).name)
    s.players [] (by rw [List.nil_append]; exact lt_of_le_of_lt hlen (by decide))
  rw [List.nil_append] at hloop
  exact hloop

/-- The answer can be split exactly when no offered name contains the separator. -/
theorem listDecodable_iff {s : State} (h : System.Reachable s) (requester : PlayerRef) :
    ListDecodable s requester ↔ ∀ name ∈ offeredList s requester, (59 : UInt8) ∉ name := by
  have hlen := length_offeredList_le h requester
  have hcount : (UInt32.ofNat (offeredList s requester).length).toNat
      = (offeredList s requester).length :=
    UInt32.toNat_ofNat_of_lt' (lt_of_le_of_lt hlen (by decide))
  rw [ListDecodable, offeredNames_eq h requester]
  cases hnames : offeredList s requester with
  | nil => simp [pieces]
  | cons first names =>
    rw [hnames] at hcount
    have hpos : UInt32.ofNat (first :: names).length ≠ 0 := by
      intro hzero
      rw [hzero] at hcount
      simp at hcount
    rw [pieces, if_neg hpos, hcount]
    apply Iff.intro
    · intro hdecodable
      exact (splitOn_intercalate_iff (by simp)).mp hdecodable.1
    · intro hplain
      have hsplit := (splitOn_intercalate_iff (x := (59 : UInt8)) (by simp)).mpr hplain
      exact ⟨hsplit, by rw [hsplit]⟩

/-- Requests for the list are answered with it. -/
theorem proceedPlayerListRequest_answer {s t : State} {mess : Message} {requester : PlayerRef}
    (sender : mess.player = some requester) (h : proceedPlayerListRequest s mess = .ok t) :
    ∃ packet, t = s.pushOut packet ∧ packet.message = .compose H_S_PL_LIST_ANS
      [.int (offeredNames s requester).1, .str (offeredNames s requester).2]
        (some requester) := by
  unfold proceedPlayerListRequest at h
  rw [sender, deref_some, ok_bind] at h
  obtain ⟨packet, -, hmessage, hpush⟩ := registerMessage_compose_carries h
  exact ⟨packet, hpush, hmessage⟩

/-! ## Runs without the separator in a name -/

/-- The condition on a step: nobody registers under a name with a `;` in it. -/
def PlainNames (s : State) (a : Action) : Prop :=
  a = .runCommand → ∀ command ∈ s.commandQueue.head?, command.message.header = H_C_NEW_PL →
    ∀ name ∈ command.message.firstName, (59 : UInt8) ∉ name

instance (s : State) (a : Action) : Decidable (PlainNames s a) :=
  inferInstanceAs (Decidable (_ → ∀ command ∈ s.commandQueue.head?, _ →
    ∀ name ∈ command.message.firstName, _))

/-- Nobody's name contains the separator. -/
def NamedPlainly (s : State) : Prop := ∀ p, (59 : UInt8) ∉ (s.player p).name

namespace NamedPlainly

variable {s t : State}

theorem keep (h : NamedPlainly s) (name : ∀ p, (t.player p).name = (s.player p).name) :
    NamedPlainly t := by
  intro p
  rw [name]
  exact h p

theorem addPlayer (h : NamedPlainly s) (fd : Int) (nameSet : Bool) :
    NamedPlainly (Server.addPlayer s fd nameSet) := by
  intro p
  rw [Server.player_addPlayer]
  split
  · simp [Player.ofSocket]
  · exact h p

theorem disconnected {fd : Int} (h : NamedPlainly s) (closed : Disconnection s fd t) :
    NamedPlainly t := by
  cases closed with
  | left => exact h.keep (by simp)
  | stays => exact h.keep (by simp)

theorem handled {mess : Message} (h : NamedPlainly s) (effect : Effect s mess t)
    (plain : mess.header = H_C_NEW_PL → ∀ name ∈ mess.firstName, (59 : UInt8) ∉ name) :
    NamedPlainly t := by
  cases effect with
  | disconnected _ _ _ closed => exact h.disconnected closed
  | @named p username _ header _ payload =>
    intro q
    have hname := plain header username (payloadString_eq_ok_iff.mp payload)
    simp only [State.player_pushOut, State.name_modifyPlayer, Player.setAvailible_name,
      implies_true, State.name_setName]
    split
    · exact hname
    · exact h q
  | @reconnected newP oldP =>
    -- the newcomer gets the name of the lost player
    intro q
    simp only [State.player_withPlayers, State.player_pushOut, name_handedOver]
    split
    · exact h oldP
    · exact h q
  | _ => exact h.keep (by simp [clearRequest, freeBoth])

end NamedPlainly

theorem namedPlainly_of_plainNames {s : State} (h : System.ReachableUnder PlainNames s) :
    NamedPlainly s := by
  have known : ∀ t, System.Reachable t → True := fun _ _ => trivial
  refine world_invariant h known (fun _ _ _ _ => trivial) ?_ ?_ ?_ ?_ ?_
  · intro p
    simp [State.initial, State.player, Heap.empty, Heap.get, Player.unallocated, Player.ofSocket]
  · intro t u hquiet hplain
    exact hplain.keep hquiet.name
  · intro t fd nameSet _ hplain _
    exact hplain.addPlayer fd nameSet
  · intro t u fd _ hplain hclosed
    exact hplain.disconnected hclosed
  · intro t u command rest _ hplain hguard hqueue heffect
    have hpopped : NamedPlainly (t.withCommands rest) := hplain
    refine hpopped.handled heffect fun header => ?_
    exact hguard rfl command (by rw [hqueue]; rfl) header

/-- **The player list is decodable** in a reachable state exactly when no offered name contains
    the separator; answers that are decodable tell different lists apart; and no run in which
    nobody registers under such a name reaches a list that is not decodable. -/
theorem player_list_decodable (s : State) (h : System.Reachable s) :
    (∀ requester, ListDecodable s requester ↔
      ∀ name ∈ offeredList s requester, (59 : UInt8) ∉ name) ∧
    (∀ requester t requester', System.Reachable t →
      (∀ name ∈ offeredList s requester, (59 : UInt8) ∉ name) →
      (∀ name ∈ offeredList t requester', (59 : UInt8) ∉ name) →
      offeredNames s requester = offeredNames t requester' →
      offeredList s requester = offeredList t requester') ∧
    (∀ mess requester t, mess.player = some requester →
      proceedPlayerListRequest s mess = .ok t →
      ∃ packet, t = s.pushOut packet ∧ packet.message = .compose H_S_PL_LIST_ANS
        [.int (offeredNames s requester).1, .str (offeredNames s requester).2]
          (some requester)) ∧
    (System.ReachableUnder PlainNames s → ∀ requester, ListDecodable s requester) := by
  refine ⟨fun requester => listDecodable_iff h requester, ?_, ?_, ?_⟩
  · intro requester t requester' ht hplain hplain' hsame
    have hs := ((listDecodable_iff h requester).mpr hplain).1
    have ht := ((listDecodable_iff ht requester').mpr hplain').1
    rw [← hs, ← ht, hsame]
  · intro mess requester t sender hexec
    exact proceedPlayerListRequest_answer sender hexec
  · intro hrun requester
    apply (listDecodable_iff h requester).mpr
    intro name hname
    obtain ⟨p, -, rfl⟩ := List.mem_map.mp hname
    exact namedPlainly_of_plainNames hrun p

/-- A connection registers under the name `A;B`, another one under `C`. -/
def registerSeparator : List Action :=
  [.accept 5 false, .accept 6 false] ++ System.deliver 5 H_C_NEW_PL [.str [65, 59, 66]] ++
    System.deliver 6 H_C_NEW_PL [.str [67]]

/-- In some run the answer counts one name and splits into two pieces. -/
theorem player_list_not_decodable :
    ¬ ∀ s, System.Reachable s → ∀ requester, ListDecodable s requester := by
  intro h
  have hanswer : offeredNames (System.after registerSeparator) 1 = (1, [65, 59, 66]) := by
    decide +kernel
  have hdecodable := (h _ (System.reachable_after registerSeparator) 1).2
  rw [hanswer] at hdecodable
  exact absurd hdecodable (by decide)

/-- `A` sees `B` and `C` on the list, with the separator between them. -/
theorem player_list_decodable_registered :
    offeredList (System.machine.after PlainNames System.registerThree) 0 = [[66], [67]] ∧
      offeredNames (System.machine.after PlainNames System.registerThree) 0 = (2, [66, 59, 67]) ∧
      ListDecodable (System.machine.after PlainNames System.registerThree) 0 := by
  have hreach : System.ReachableUnder PlainNames
      (System.machine.after PlainNames System.registerThree) :=
    Machine.reachableUnder_after System.registerThree
  have hlist := player_list_decodable _ (Machine.ReachableUnder.reachable hreach)
  exact ⟨by decide +kernel, by decide +kernel, hlist.2.2.2 hreach 0⟩

end UpsServer
