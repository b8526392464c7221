import UpsServer.Network.Steps

/-!
# The two registries

`Server::players` and `GameManager::games` hold no entry twice and only allocated objects, and
no two registered games share an id. Players are only ever appended when they are new, and
games likewise; every other step drops entries at most.
-/

namespace UpsServer

open Framework CommandManager

/-! ## Dropping entries -/

/-- Entries may be dropped, and anything may change but the ids of the games. -/
structure Shrinks (s t : State) : Prop where
  players : t.players.Sublist s.players
  nextPlayer : t.playerHeap.next = s.playerHeap.next
  games : t.games.Sublist s.games
  nextGame : t.gameHeap.next = s.gameHeap.next
  maxGameId : t.maxGameId = s.maxGameId
  ids : ∀ g, (t.game g).id = (s.game g).id

namespace Shrinks

variable {s t : State}

theorem of_same (same : SameWorld s t) : Shrinks s t :=
  ⟨by rw [same.players], same.nextPlayer, by rw [same.games], same.nextGame, same.maxGameId,
    fun g => by rw [same.game]⟩

theorem of_disconnection {fd : Int} (closed : Disconnection s fd t) : Shrinks s t := by
  cases closed with
  | left =>
    exact ⟨List.eraseP_sublist, rfl, List.Sublist.refl _, rfl, rfl, fun _ => rfl⟩
  | stays =>
    exact ⟨List.Sublist.refl _, rfl, List.Sublist.refl _, rfl, rfl, fun _ => rfl⟩

/-- A handler drops entries, or registers a game and changes something about it. -/
theorem of_effect {mess : Message} (effect : Effect s mess t) :
    Shrinks s t ∨ ∃ asking asked, Shrinks (GameManager.addGame s asking asked) t := by
  cases effect with
  | disconnected _ _ _ closed => exact Or.inl (of_disconnection closed)
  | @started asking asked =>
    -- the flags, the turn and the messages come after the registration
    refine Or.inr ⟨asking, asked, ⟨?_, ?_, ?_, ?_, ?_, ?_⟩⟩
    · simp [gameStarted, clearRequest]
    · simp [gameStarted, clearRequest]
    · simp [gameStarted, clearRequest]
    · simp [gameStarted, clearRequest]
    · simp [gameStarted, clearRequest]
    · simp [gameStarted, clearRequest, GameManager.game_addGame]
  | reconnected _ _ _ _ _ _ _ _ _ _ erased =>
    -- a seat changes hands, the game keeps its id
    refine Or.inl ⟨?_, ?_, ?_, ?_, ?_, ?_⟩
    · simpa [handedOver] using erased.sublist
    · simp [handedOver, takeOverName]
    · simp [handedOver]
    · simp [handedOver, takeOverName]
    · simp [handedOver, takeOverName]
    · simp [handedOver]
  | endedLost _ _ _ _ _ _ erased =>
    exact Or.inl ⟨erased.sublist, rfl, List.eraseP_sublist, rfl, rfl, fun _ => rfl⟩
  | bothLost _ _ _ _ _ erased erased' =>
    exact Or.inl ⟨erased'.sublist.trans erased.sublist, rfl, List.eraseP_sublist, rfl, rfl,
      fun _ => rfl⟩
  | won => exact Or.inl ⟨by simp [freeBoth], rfl, List.eraseP_sublist, rfl, rfl, by simp [freeBoth]⟩
  | ended =>
    exact Or.inl ⟨by simp [freeBoth], rfl, List.eraseP_sublist, rfl, rfl, by simp [freeBoth]⟩
  | moved => exact Or.inl ⟨by simp, rfl, by simp, rfl, rfl, by simp⟩
  | _ => exact Or.inl ⟨List.Sublist.refl _, rfl, List.Sublist.refl _, rfl, rfl, fun _ => rfl⟩

end Shrinks

/-! ## The registries -/

/-- What always holds of the two vectors. -/
structure Registry (s : State) : Prop where
  playersNodup : s.players.Nodup
  playersAllocated : ∀ p ∈ s.players, p < s.playerHeap.next
  gamesNodup : s.games.Nodup
  gamesAllocated : ∀ g ∈ s.games, g < s.gameHeap.next
  idsBelow : ∀ g ∈ s.games, (s.game g).id < s.maxGameId
  idsDistinct : ∀ g ∈ s.games, ∀ h ∈ s.games, (s.game g).id = (s.game h).id → g = h

namespace Registry

variable {s t : State}

theorem initial : Registry State.initial where
  playersNodup := List.nodup_nil
  playersAllocated := by simp [State.initial]
  gamesNodup := List.nodup_nil
  gamesAllocated := by simp [State.initial]
  idsBelow := by simp [State.initial]
  idsDistinct := by simp [State.initial]

/-- Dropping entries and changing anything but ids keeps the registries in order. -/
theorem shrink (h : Registry s) (shrinks : Shrinks s t) : Registry t where
  playersNodup := h.playersNodup.sublist shrinks.players
  playersAllocated p hp := by
    rw [shrinks.nextPlayer]
    exact h.playersAllocated p (shrinks.players.subset hp)
  gamesNodup := h.gamesNodup.sublist shrinks.games
  gamesAllocated g hg := by
    rw [shrinks.nextGame]
    exact h.gamesAllocated g (shrinks.games.subset hg)
  idsBelow g hg := by
    rw [shrinks.ids, shrinks.maxGameId]
    exact h.idsBelow g (shrinks.games.subset hg)
  idsDistinct g hg g' hg' heq := by
    rw [shrinks.ids, shrinks.ids] at heq
    exact h.idsDistinct g (shrinks.games.subset hg) g' (shrinks.games.subset hg') heq

theorem same (h : Registry s) (same : SameWorld s t) : Registry t :=
  h.shrink (.of_same same)

/-- The games registered before a new one keep their objects. -/
theorem game_addGame_of_mem (h : Registry s) {g : GameRef} (hg : g ∈ s.games)
    (p1 p2 : PlayerRef) : (GameManager.addGame s p1 p2).game g = s.game g := by
  have hne : g ≠ s.gameHeap.next := fun heq => Nat.lt_irrefl _ (heq ▸ h.gamesAllocated g hg)
  rw [GameManager.game_addGame, if_neg hne]

theorem addPlayer (h : Registry s) (fd : Int) (nameSet : Bool) :
    Registry (Server.addPlayer s fd nameSet) where
  playersNodup := by
    -- a fresh object cannot be listed, since everything listed is allocated
    have hnew : s.playerHeap.next ∉ s.players := fun hmem =>
      Nat.lt_irrefl _ (h.playersAllocated _ hmem)
    simpa [List.nodup_append] using ⟨h.playersNodup, fun p hp heq => hnew (heq ▸ hp)⟩
  playersAllocated p hp := by
    rcases List.mem_append.mp hp with hp | hp
    · exact Nat.lt_succ_of_lt (h.playersAllocated p hp)
    · rw [List.mem_singleton.mp hp]
      exact Nat.lt_succ_self _
  gamesNodup := h.gamesNodup
  gamesAllocated := h.gamesAllocated
  idsBelow := h.idsBelow
  idsDistinct := h.idsDistinct

theorem addGame (h : Registry s) (p1 p2 : PlayerRef) :
    Registry (GameManager.addGame s p1 p2) := by
  have hnew : s.gameHeap.next ∉ s.games := fun hmem =>
    Nat.lt_irrefl _ (h.gamesAllocated _ hmem)
  have hold : ∀ g ∈ s.games, (GameManager.addGame s p1 p2).game g = s.game g :=
    fun g hg => h.game_addGame_of_mem hg p1 p2
  have hid : ((GameManager.addGame s p1 p2).game s.gameHeap.next).id = s.maxGameId := by
    rw [GameManager.game_addGame, if_pos rfl, Game.new_id]
  refine ⟨h.playersNodup, h.playersAllocated, ?_, ?_, ?_, ?_⟩
  · simpa [List.nodup_append] using ⟨h.gamesNodup, fun g hg heq => hnew (heq ▸ hg)⟩
  · intro g hg
    rcases List.mem_append.mp hg with hg | hg
    · exact Nat.lt_succ_of_lt (h.gamesAllocated g hg)
    · rw [List.mem_singleton.mp hg]
      exact Nat.lt_succ_self _
  · intro g hg
    rcases List.mem_append.mp hg with hg | hg
    · rw [hold g hg]
      exact Int.lt_add_one_of_le (h.idsBelow g hg).le
    · rw [List.mem_singleton.mp hg, hid]
      exact Int.lt_succ _
  · -- an id that was given before is below the new one
    intro g hg g' hg' heq
    rcases List.mem_append.mp hg with hg | hg <;> rcases List.mem_append.mp hg' with hg' | hg'
    · rw [hold g hg, hold g' hg'] at heq
      exact h.idsDistinct g hg g' hg' heq
    · rw [hold g hg, List.mem_singleton.mp hg', hid] at heq
      exact absurd heq (Int.ne_of_lt (h.idsBelow g hg))
    · rw [hold g' hg', List.mem_singleton.mp hg, hid] at heq
      exact absurd heq.symm (Int.ne_of_lt (h.idsBelow g' hg'))
    · rw [List.mem_singleton.mp hg, List.mem_singleton.mp hg']

theorem disconnected {fd : Int} (h : Registry s) (closed : Disconnection s fd t) :
    Registry t :=
  h.shrink (.of_disconnection closed)

theorem handled {mess : Message} (h : Registry s) (effect : Effect s mess t) : Registry t := by
  rcases Shrinks.of_effect effect with hshrinks | ⟨asking, asked, hshrinks⟩
  · exact h.shrink hshrinks
  · exact (h.addGame asking asked).shrink hshrinks

/-- `deleteGame` removes exactly the given game. -/
theorem mem_deleted_iff (h : Registry s) {g : GameRef} (hmem : g ∈ s.games) (x : GameRef) :
    x ∈ s.games.eraseP (sameId s g) ↔ x ∈ s.games ∧ x ≠ g :=
  mem_eraseP_of_unique h.gamesNodup hmem (by simp [sameId])
    (fun y hy hid => h.idsDistinct y hy g hmem (by simpa [sameId] using hid)) x

end Registry

/-- The registries are in order in every reachable state. -/
theorem registry_of_reachable {s : State} (h : System.Reachable s) : Registry s :=
  same_world_invariant h (fun _ _ => trivial) (fun _ _ _ _ => trivial)
    Registry.initial (fun _ _ hsame hreg => hreg.same hsame)
    (fun _ fd nameSet _ hreg _ => hreg.addPlayer fd nameSet)
    (fun _ _ _ _ hreg hclosed => hreg.disconnected hclosed)
    fun _ _ _ _ hreg heffect => hreg.handled heffect

end UpsServer
