import UpsServer.Network.Orderly

/-!
# Handing a seat over

A reconnection should put the newcomer in the place of the lost player everywhere: in the seat,
in the turn and in the player list. The handler gives the newcomer the lost player's name first
and then looks the game, the seat and the list entry up by that name, and it never touches the
turn. This module says exactly when the handover is complete.
-/

namespace UpsServer

open Framework CommandManager

/-! ## A complete handover -/

/-- The game with `newP` in the place of `oldP`. -/
def Game.replacePlayer (oldP newP : PlayerRef) (g : Game) : Game :=
  { g with
    p1 := if g.p1 = oldP then newP else g.p1
    p2 := if g.p2 = oldP then newP else g.p2
    playerOnTurn := if g.playerOnTurn = some oldP then some newP else g.playerOnTurn }

/-- Nothing but the replacement of `oldP` by `newP` happened from `s` to `t`. -/
structure CompleteHandover (s t : State) (newP oldP : PlayerRef) : Prop where
  players : t.players = s.players.erase oldP
  games : t.games = s.games
  replaced : ∀ g ∈ s.games, t.game g = (s.game g).replacePlayer oldP newP

theorem Game.replacePlayer_not_seats {oldP newP : PlayerRef} (hne : newP ≠ oldP) (g : Game) :
    ¬ (g.replacePlayer oldP newP).Seats oldP ∧
      (g.replacePlayer oldP newP).playerOnTurn ≠ some oldP := by
  unfold Game.Seats Game.replacePlayer
  constructor
  · rintro (h | h) <;> dsimp only at h <;> split at h <;> simp_all
  · intro h
    dsimp only at h
    split at h <;> simp_all

/-- Afterwards the newcomer is listed, and nothing registered refers to the lost player. -/
theorem CompleteHandover.no_reference {s t : State} {newP oldP : PlayerRef}
    (h : CompleteHandover s t newP oldP) (hreg : Registry s) (hne : newP ≠ oldP)
    (listed : newP ∈ s.players) :
    newP ∈ t.players ∧ oldP ∉ t.players ∧
      ∀ g ∈ t.games, ¬ (t.game g).Seats oldP ∧ (t.game g).playerOnTurn ≠ some oldP := by
  refine ⟨?_, ?_, fun g hg => ?_⟩
  · rw [h.players]
    exact (List.mem_erase_of_ne hne).mpr listed
  · rw [h.players]
    exact hreg.playersNodup.not_mem_erase
  · rw [h.replaced g (h.games ▸ hg)]
    exact Game.replacePlayer_not_seats hne _

/-! ## When it happens -/

/-- The look-ups by the shared name all end at the lost player, who is not on turn. -/
structure NameLeadsToLost (s : State) (newP oldP : PlayerRef) : Prop where
  /-- The lost player stands before the newcomer in the list. -/
  order : s.ListedBefore oldP newP
  /-- It is not on turn. -/
  notOnTurn : ∀ g ∈ s.games, (s.game g).playerOnTurn ≠ some oldP
  /-- Its only game is the last one that seats anybody of the shared name, and in it no first
      player of that name hides it. -/
  game : ∃ before g after, s.games = before ++ g :: after ∧
    (((s.game g).p1 = oldP ∧ (s.game g).p2 ≠ oldP) ∨
      ((s.game g).p2 = oldP ∧ ¬ SharesName s newP oldP (s.game g).p1)) ∧
    (∀ x ∈ before, ¬ (s.game x).Seats oldP) ∧
    ∀ x ∈ after, ∀ q, (s.game x).Seats q → ¬ SharesName s newP oldP q

section

variable {s : State} {newP oldP : PlayerRef}

/-- The game found is the last one that seats somebody of the shared name. -/
theorem getGameByPlayer_takeOverName_eq_some_iff {g : GameRef} :
    GameManager.getGameByPlayer (takeOverName s newP oldP) oldP = some g ↔
      ∃ before after, s.games = before ++ g :: after ∧
        (∃ q, (s.game g).Seats q ∧ SharesName s newP oldP q) ∧
        ∀ x ∈ after, ∀ q, (s.game x).Seats q → ¬ SharesName s newP oldP q := by
  rw [GameManager.getGameByPlayer, lastMatch_eq_some_iff, takeOverName_games]
  simp only [← Bool.not_eq_true, seatsName_takeOverName_iff, not_exists, not_and]

/-- The first entry of the shared name is the lost player's exactly when it stands before the
    newcomer's. -/
theorem find_sharesName_eq_iff (hnodup : s.players.Nodup) {name : ByteString}
    (found : Server.getPlayerByName s name = some oldP) (listed : newP ∈ s.players)
    (hne : newP ≠ oldP) :
    s.players.find? (fun q => decide (SharesName s newP oldP q)) = some oldP ↔
      s.ListedBefore oldP newP := by
  -- nobody before the lost player has the name
  obtain ⟨hname, before, after, hsplit, hbefore⟩ := List.find?_eq_some_iff_append.mp found
  have hname' : (s.player oldP).name = name := beq_iff_eq.mp hname
  have hother : ∀ q ∈ before, (s.player q).name ≠ (s.player oldP).name := fun q hq heq => by
    have := hbefore q hq
    simp [heq, hname'] at this
  rw [hsplit] at hnodup listed
  obtain ⟨-, hnodupAfter, hdisjoint⟩ := List.nodup_append.mp hnodup
  constructor
  · intro hfirst
    obtain ⟨-, before', after', hsplit', hbefore'⟩ := List.find?_eq_some_iff_append.mp hfirst
    -- the newcomer answers to the name, so it cannot stand before the first match
    have hmem : newP ∈ after' := by
      rw [← hsplit, hsplit'] at listed
      rcases List.mem_append.mp listed with hmem | hmem
      · have := hbefore' newP hmem
        simp [SharesName] at this
      · exact (List.mem_cons.mp hmem).resolve_left hne
    rw [State.ListedBefore, hsplit']
    exact pair_sublist_of_mem hmem
  · -- before the lost player there is neither the newcomer nor anybody of its name
    intro horder
    rw [State.ListedBefore, hsplit] at horder
    have hold : oldP ∉ before := fun hmem => hdisjoint oldP hmem oldP (by simp) rfl
    have hafter : newP ∈ after := mem_of_pair_sublist hold horder
    refine List.find?_eq_some_iff_append.mpr ⟨by simp [SharesName], before, after, hsplit, ?_⟩
    intro q hq
    have hnew : q ≠ newP := fun heq =>
      hdisjoint q hq newP (List.mem_cons_of_mem _ hafter) heq
    simp [SharesName, hnew, hother q hq]

/-- The entry that is erased is the lost player's exactly when it comes first. -/
theorem erased_eq_erase_iff (hreg : Registry s) {name : ByteString} {game : GameRef}
    {players : List PlayerRef} (found : Server.getPlayerByName s name = some oldP)
    (listed : newP ∈ s.players) (hne : newP ≠ oldP)
    (erased : ErasesPlayer (handedOver s newP oldP game) oldP players) :
    players = s.players.erase oldP ↔ s.ListedBefore oldP newP := by
  have holdListed : oldP ∈ s.players := List.mem_of_find?_eq_some found
  -- `deletePlayer` compares names after the renaming
  have hsame : sameName (handedOver s newP oldP game) oldP
      = fun q => decide (SharesName s newP oldP q) := by
    funext q
    rw [sameName, name_handedOver, name_handedOver, if_neg hne.symm]
    by_cases hq : q = newP <;> simp [SharesName, hq, beq_eq_decide]
  rw [erased.listed (by simpa using holdListed), hsame, handedOver_players,
    eraseP_eq_erase_iff hreg.playersNodup holdListed (by simp [SharesName]),
    find_sharesName_eq_iff hreg.playersNodup found listed hne]

/-! ### The seat -/

/-- The seat that is filled is the first one when somebody of the shared name holds it. -/
theorem game_handedOver (g : GameRef) :
    (handedOver s newP oldP g).game g =
      if SharesName s newP oldP (s.game g).p1 then (s.game g).setPlayer1 newP
      else (s.game g).setPlayer2 newP := by
  have hname : ((takeOverName s newP oldP).player newP).name = (s.player oldP).name := by simp
  unfold handedOver takeOverSeat
  simp only [hname, game_takeOverName, name_takeOverName_eq_iff]
  split <;> simp

theorem replacePlayer_eq_self_iff (hne : newP ≠ oldP) (g : Game) :
    g = g.replacePlayer oldP newP ↔ ¬ g.Seats oldP ∧ g.playerOnTurn ≠ some oldP := by
  constructor
  · intro heq
    rw [heq]
    exact g.replacePlayer_not_seats hne
  · rintro ⟨hseats, hturn⟩
    obtain ⟨h1, h2⟩ := not_or.mp hseats
    simp [Game.replacePlayer, h1, h2, hturn]

/-- In a game of the lost player the newcomer gets exactly the seat of the lost player. -/
theorem game_handedOver_eq_iff (distinct : newP ≠ oldP) {g : GameRef}
    (seated : (s.game g).Seats oldP) :
    (handedOver s newP oldP g).game g = (s.game g).replacePlayer oldP newP ↔
      (s.game g).playerOnTurn ≠ some oldP ∧
        (((s.game g).p1 = oldP ∧ (s.game g).p2 ≠ oldP) ∨
          ((s.game g).p2 = oldP ∧ ¬ SharesName s newP oldP (s.game g).p1)) := by
  rw [game_handedOver]
  generalize s.game g = game at seated ⊢
  obtain ⟨id, field, p1, p2, turn⟩ := game
  have hold : SharesName s newP oldP oldP := Or.inr rfl
  simp only [Game.Seats, Game.replacePlayer, Game.setPlayer1, Game.setPlayer2] at seated ⊢
  by_cases hturn : turn = some oldP
  · -- the turn is never handed over
    simp only [hturn, if_true, ne_eq, not_true_eq_false, false_and, iff_false]
    split <;> simp [Ne.symm distinct]
  simp only [hturn, if_false, ne_eq, not_false_eq_true, true_and]
  -- the first seat is filled whenever its holder answers to the name
  by_cases h1 : p1 = oldP
  · by_cases h2 : p2 = oldP <;> simp [h1, h2, hold, distinct.symm]
  · have h2 : p2 = oldP := seated.resolve_left h1
    by_cases hshare : SharesName s newP oldP p1 <;> simp [h1, h2, hshare, distinct.symm]

end

/-! ## The handler -/

/-- **Handover on reconnection**: when the handler accepts, the newcomer replaces the lost
    player everywhere exactly when the look-ups by name all end at the lost player. -/
theorem reconnection_hands_over_iff (s : State) (h : System.Reachable s) (mess : Message)
    (newP oldP : PlayerRef) (sender : mess.player = some newP) (listed : newP ∈ s.players)
    (name : ByteString) (payload : payloadString mess 0 = .ok name)
    (found : Server.getPlayerByName s name = some oldP) (lost : (s.player oldP).lost = true)
    (seated : s.Seated oldP) (distinct : newP ≠ oldP) (t : State)
    (accepted : proceedPlayerReconnection s mess = .ok t) :
    CompleteHandover s t newP oldP ↔ NameLeadsToLost s newP oldP := by
  have hreg := registry_of_reachable h
  have hreconnect : reconnect s newP oldP = .ok t := by
    simpa [proceedPlayerReconnection, payload, found, lost, sender, deref] using accepted
  obtain ⟨g, -, -, first, second, players, hlookup, -, -, -, -, herased, rfl⟩ :=
    reconnect_eq_ok hreconnect
  have horder := erased_eq_erase_iff hreg found listed distinct herased
  obtain ⟨before, after, hsplit, -, hafter⟩ :=
    getGameByPlayer_takeOverName_eq_some_iff.mp hlookup
  have hg : g ∈ s.games := by simp [hsplit]
  constructor
  · rintro ⟨hplayers, -, hreplaced⟩
    -- the other games did not change, so the lost player had no part in them
    have hothers : ∀ x ∈ s.games, x ≠ g →
        ¬ (s.game x).Seats oldP ∧ (s.game x).playerOnTurn ≠ some oldP := fun x hx hne => by
      have hx' := hreplaced x hx
      rw [← replacePlayer_eq_self_iff distinct]
      simpa [game_handedOver_of_ne _ _ _ _ _ hne] using hx'
    -- so the game that was found is the one that seats it
    have hseated : (s.game g).Seats oldP := by
      obtain ⟨g₀, hg₀, hseat⟩ := seated
      by_cases heq : g₀ = g
      · exact heq ▸ hseat
      · exact absurd hseat (hothers g₀ hg₀ heq).1
    obtain ⟨hturn, hseat⟩ := (game_handedOver_eq_iff distinct hseated).mp (hreplaced g hg)
    refine ⟨horder.mp hplayers, fun x hx => ?_, before, g, after, hsplit, hseat, ?_, hafter⟩
    · by_cases heq : x = g
      · exact heq ▸ hturn
      · exact (hothers x hx heq).2
    · intro x hx
      have hne : x ≠ g := by
        have hnodup := hreg.gamesNodup
        rw [hsplit] at hnodup
        exact fun heq => (List.nodup_append.mp hnodup).2.2 x hx g (by simp) heq
      exact (hothers x (by simp [hsplit, hx]) hne).1
  · rintro ⟨hlistOrder, hturn, before', g', after', hsplit', hseat, hbefore', hafter'⟩
    have hseated' : (s.game g').Seats oldP := hseat.imp And.left And.left
    -- the game of the condition is the game the handler finds
    have hlookup' := getGameByPlayer_takeOverName_eq_some_iff.mpr
      ⟨before', after', hsplit', ⟨oldP, hseated', Or.inr rfl⟩, hafter'⟩
    obtain rfl : g' = g := Option.some.inj (hlookup'.symm.trans hlookup)
    refine ⟨horder.mpr hlistOrder, by simp, fun x hx => ?_⟩
    by_cases heq : x = g'
    · subst heq
      exact (game_handedOver_eq_iff distinct hseated').mpr ⟨hturn x hx, hseat⟩
    · -- any other game is untouched and had nothing to replace
      have hseats : ¬ (s.game x).Seats oldP := by
        rw [hsplit'] at hx
        rcases List.mem_append.mp hx with hx | hx
        · exact hbefore' x hx
        · exact fun hs => hafter' x ((List.mem_cons.mp hx).resolve_left heq) oldP hs (Or.inr rfl)
      have hkept := (replacePlayer_eq_self_iff distinct _).mpr ⟨hseats, hturn x hx⟩
      simpa [game_handedOver_of_ne _ _ _ _ _ heq] using hkept

/-- `B` is lost while `A` is on turn, and then somebody connects on the descriptor 7. -/
def loseSecond : List Action :=
  System.playTwo ++ [.peerClosed 6, .runCommand, .accept 7 false]

/-- What the newcomer `newP` asks for. -/
def reconnectAs (name : ByteString) (newP : PlayerRef) : Message :=
  ⟨H_C_PL_RECONN, ['s'], [.str name], some newP⟩

theorem reconnection_hands_over_iff_second :
    CompleteHandover (System.after loseSecond)
      (resultOr (proceedPlayerReconnection (System.after loseSecond) (reconnectAs [66] 2))
        (System.after loseSecond)) 2 1 :=
  (reconnection_hands_over_iff _ (System.reachable_after loseSecond) (reconnectAs [66] 2) 2 1 rfl
    (by decide +kernel) [66] (by decide +kernel) (by decide +kernel) (by decide +kernel)
    (by decide +kernel) (by decide) _ (eq_ok_resultOr (by decide +kernel) _)).mpr
    ⟨by decide +kernel, by decide +kernel, [], 0, [], by decide +kernel, by decide +kernel,
      by simp, by simp⟩

/-- A newcomer that connected before the lost player is itself erased from the list. -/
theorem reconnection_erases_the_newcomer :
    ¬ ∀ s, System.Reachable s → ∀ mess : Message, ∀ newP oldP, mess.player = some newP →
      newP ∈ s.players → ∀ name, payloadString mess 0 = .ok name →
      Server.getPlayerByName s name = some oldP → (s.player oldP).lost = true →
      s.Seated oldP → newP ≠ oldP →
      (∀ g ∈ s.games, (s.game g).Seats oldP → ¬ (s.game g).Seats newP) →
      ∀ t, proceedPlayerReconnection s mess = .ok t → CompleteHandover s t newP oldP := by
  intro h
  have hcomplete := h _ (System.reachable_after (.accept 4 false :: System.loseOne))
    (reconnectAs [65] 0) 0 1 rfl (by decide +kernel) [65] (by decide +kernel) (by decide +kernel)
    (by decide +kernel) (by decide +kernel) (by decide) (by decide +kernel) _
    (eq_ok_resultOr (by decide +kernel) (System.after (.accept 4 false :: System.loseOne)))
  -- the entry that is gone is the newcomer's
  exact absurd hcomplete.players (by decide +kernel)

end UpsServer
