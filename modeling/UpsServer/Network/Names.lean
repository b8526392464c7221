import UpsServer.Network.Registry

/-!
# Names of listed players

No two entries of `Server::players` have the same non-empty name. Registration keeps this by its
test. Reconnection gives the newcomer the name of the lost player, and then erases the first
entry of that name: one of these two, since no third entry can have it.
-/

namespace UpsServer

open Framework CommandManager

/-- Different listed players with the same name are both unnamed. -/
def UniqueNames (s : State) : Prop :=
  ∀ p ∈ s.players, ∀ q ∈ s.players, p ≠ q →
    (s.player p).name = (s.player q).name → (s.player p).name = []

namespace UniqueNames

variable {s t : State}

/-- A non-empty name belongs to one listed player. -/
theorem eq_of_name (h : UniqueNames s) {p q : PlayerRef} (hp : p ∈ s.players)
    (hq : q ∈ s.players) (hname : (s.player p).name = (s.player q).name)
    (hne : (s.player p).name ≠ []) : p = q := by
  by_contra hpq
  exact hne (h p hp q hq hpq hname)

/-- Dropping entries without renaming anybody keeps the names unique. -/
theorem shrink (h : UniqueNames s) (players : t.players.Sublist s.players)
    (name : ∀ p, (t.player p).name = (s.player p).name) : UniqueNames t := by
  intro p hp q hq hpq heq
  rw [name, name] at heq
  rw [name]
  exact h p (players.subset hp) q (players.subset hq) hpq heq

theorem addPlayer (h : UniqueNames s) (hreg : Registry s) (fd : Int) (nameSet : Bool) :
    UniqueNames (Server.addPlayer s fd nameSet) := by
  have hnew : ((Server.addPlayer s fd nameSet).player s.playerHeap.next).name = [] := by
    rw [Server.player_addPlayer, if_pos rfl]
    rfl
  have hold : ∀ p ∈ s.players,
      ((Server.addPlayer s fd nameSet).player p).name = (s.player p).name := fun p hp => by
    rw [Server.player_addPlayer, if_neg (Nat.ne_of_lt (hreg.playersAllocated p hp))]
  -- a pair with the newcomer in it shares the empty name at most
  intro p hp q hq hpq heq
  rcases List.mem_append.mp hp with hp | hp
  · rcases List.mem_append.mp hq with hq | hq
    · rw [hold p hp, hold q hq] at heq
      rw [hold p hp]
      exact h p hp q hq hpq heq
    · rw [heq, List.mem_singleton.mp hq, hnew]
  · rw [List.mem_singleton.mp hp, hnew]

/-- Registering under a name that no entry has. -/
theorem rename (h : UniqueNames s) {p : PlayerRef} {username : ByteString}
    (unused : isUsernameAvailible s username = true) :
    UniqueNames (s.modifyPlayer p (Player.setName username)) := by
  have hfree : ∀ q ∈ s.players, (s.player q).name ≠ username := by
    simpa [isUsernameAvailible] using unused
  intro a ha b hb hab heq
  simp only [State.name_setName] at heq ⊢
  -- at most one of the two is the renamed player, and the other one fails the test
  by_cases hap : a = p
  · have hbp : b ≠ p := fun hbp => hab (hap.trans hbp.symm)
    rw [if_pos hap, if_neg hbp] at heq
    exact absurd heq.symm (hfree b hb)
  · by_cases hbp : b = p
    · rw [if_neg hap, if_pos hbp] at heq
      exact absurd heq (hfree a ha)
    · rw [if_neg hap, if_neg hbp] at heq
      rw [if_neg hap]
      exact h a ha b hb hab heq

/-- The newcomer takes the name of the lost player and one of the two is erased. -/
theorem takeOver (h : UniqueNames s) (hreg : Registry s) {newP oldP : PlayerRef}
    {players : List PlayerRef} (hlisted : oldP ∈ s.players)
    (name : ∀ p, (t.player p).name
      = if p = newP then (s.player oldP).name else (s.player p).name)
    (listed : t.players = s.players) (erased : ErasesPlayer t oldP players) :
    UniqueNames (t.withPlayers players) := by
  have hold : (t.player oldP).name = (s.player oldP).name := by
    rw [name]
    split <;> rfl
  -- who has the shared name before the erasure
  have hshared : ∀ a ∈ s.players, (t.player a).name = (s.player oldP).name →
      (s.player oldP).name ≠ [] → a = newP ∨ a = oldP := fun a ha heq hne => by
    by_cases hnew : a = newP
    · exact Or.inl hnew
    · rw [name, if_neg hnew] at heq
      exact Or.inr (h.eq_of_name ha hlisted heq (by rwa [heq]))
  have herase := erased.listed (listed ▸ hlisted)
  rw [listed] at herase
  obtain ⟨e, he, hname, hrest⟩ := exists_erased (q := sameName t oldP) hreg.playersNodup
    ⟨oldP, hlisted, by simp [sameName]⟩
  -- the erased entry is the first one of the shared name
  have he_name : (t.player e).name = (s.player oldP).name := by
    rw [sameName, beq_iff_eq, hold] at hname
    exact hname
  intro a ha b hb hab heq
  change a ∈ players at ha
  change b ∈ players at hb
  rw [herase, hrest] at ha hb
  rw [State.player_withPlayers, State.player_withPlayers] at heq
  rw [State.player_withPlayers]
  by_contra hne
  by_cases hn : (t.player a).name = (s.player oldP).name
  · -- `a`, `b` and `e` all have the shared name, so two of them are equal
    rw [hn] at hne
    have ha' := hshared a ha.1 hn hne
    have hb' := hshared b hb.1 (heq ▸ hn) hne
    have he' := hshared e he he_name hne
    have := ha.2
    have := hb.2
    grind
  · -- neither is the newcomer, so nothing changed for them
    have hanew : a ≠ newP := fun hanew => hn (by rw [name, if_pos hanew])
    have hbnew : b ≠ newP := fun hbnew => hn (by rw [heq, name, if_pos hbnew])
    rw [name, name, if_neg hanew, if_neg hbnew] at heq
    rw [name, if_neg hanew] at hne
    exact hne (h a ha.1 b hb.1 hab heq)

theorem disconnected {fd : Int} (h : UniqueNames s) (closed : Disconnection s fd t) :
    UniqueNames t := by
  cases closed with
  | left => exact h.shrink List.eraseP_sublist (by simp)
  | stays => exact h.shrink (List.Sublist.refl _) (by simp)

theorem handled {mess : Message} (h : UniqueNames s) (hreg : Registry s)
    (effect : Effect s mess t) : UniqueNames t := by
  cases effect with
  | disconnected _ _ _ closed => exact h.disconnected closed
  | @named p _ _ _ _ _ unused _ =>
    have hnamed : UniqueNames (s.modifyPlayer p _) := h.rename unused
    exact hnamed.shrink (List.Sublist.refl _) (by simp)
  | @reconnected newP oldP _ _ game _ _ _ _ _ _ _ found _ _ _ _ _ _ erased =>
    have hlisted : oldP ∈ s.players := List.mem_of_find?_eq_some found
    have hname : ∀ p, ((handedOver s newP oldP game).player p).name
        = if p = newP then (s.player oldP).name else (s.player p).name := by simp [handedOver]
    have htaken := h.takeOver hreg hlisted hname (by simp [handedOver]) erased
    exact htaken.shrink (by simp) (by simp)
  -- the endings erase entries but rename nobody
  | endedLost _ _ _ _ _ _ erased => exact h.shrink erased.sublist (by simp)
  | bothLost _ _ _ _ _ erased erased' =>
    exact h.shrink (erased'.sublist.trans erased.sublist) (by simp)
  | won => exact h.shrink (List.Sublist.refl _) (by simp [freeBoth])
  | ended => exact h.shrink (List.Sublist.refl _) (by simp [freeBoth])
  | _ => exact h.shrink (List.Sublist.refl _) (by simp [clearRequest])

end UniqueNames

theorem uniqueNames_of_reachable {s : State} (h : System.Reachable s) : UniqueNames s :=
  same_world_invariant h (fun _ => registry_of_reachable) (fun _ _ hsame hreg => hreg.same hsame)
    (by simp [UniqueNames, State.initial])
    (fun _ _ hsame hnames => hnames.shrink (by rw [hsame.players]) hsame.name)
    (fun _ fd nameSet hreg hnames _ => hnames.addPlayer hreg fd nameSet)
    (fun _ _ _ _ hnames hclosed => hnames.disconnected hclosed)
    fun _ _ _ hreg hnames heffect => hnames.handled hreg heffect

/-- **Unique names**: in every reachable state, no two entries of `Server::players` have the
    same non-empty name. -/
theorem entries_have_unique_names (s : State) (h : System.Reachable s) :
    s.players.Pairwise fun p q =>
      (s.player p).name = (s.player q).name → (s.player p).name = [] :=
  (registry_of_reachable h).playersNodup.pairwise_of_forall_ne
    fun p hp q hq hpq => uniqueNames_of_reachable h p hp q hq hpq

/-- The entries `A` and `B`. -/
theorem entries_have_unique_names_registered :
    (System.after System.registerTwo).players.map
        (fun p => ((System.after System.registerTwo).player p).name) = [[65], [66]] ∧
      (System.after System.registerTwo).players.Pairwise fun p q =>
        ((System.after System.registerTwo).player p).name
          = ((System.after System.registerTwo).player q).name →
        ((System.after System.registerTwo).player p).name = [] :=
  ⟨by decide +kernel, entries_have_unique_names _ (System.reachable_after System.registerTwo)⟩

end UpsServer
