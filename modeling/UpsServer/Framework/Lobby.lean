import Mathlib.Logic.Basic
import Mathlib.Tactic.Basic

/-!
# A lobby

Members come and go, take names and play in pairs. A name belongs to one member, whoever plays
has a name and one partner, and a partner plays back. A member who is not playing can step into
the place of one who is: it gets the name and the partner, so that nothing changes for anybody
who knows the members by their names only.
-/

namespace UpsServer.Framework

/-- Who is in, under which names, and who plays whom. -/
@[ext] structure Lobby (α ν : Type*) where
  Member : α → Prop
  Named : α → ν → Prop
  Paired : α → α → Prop
  member_of_named : ∀ {x n}, Named x n → Member x
  name_unique : ∀ {x n m}, Named x n → Named x m → n = m
  owner_unique : ∀ {x y n}, Named x n → Named y n → x = y
  named_of_paired : ∀ {x y}, Paired x y → ∃ n, Named x n
  paired_symm : ∀ {x y}, Paired x y → Paired y x
  paired_irrefl : ∀ x, ¬ Paired x x
  partner_unique : ∀ {x y z}, Paired x y → Paired x z → y = z

/-- One change of a lobby. -/
inductive Change (α ν : Type*) where
  | enter (x : α)
  /-- The member takes a name. -/
  | call (x : α) (n : ν)
  /-- The member gives its name up. -/
  | unname (x : α)
  | leave (x : α)
  /-- The two begin to play each other. -/
  | pair (x y : α)
  /-- The two end it. -/
  | part (x y : α)
  /-- The second takes the place of the first, who leaves. -/
  | replace (x y : α)
  deriving DecidableEq, Repr

namespace Lobby

variable {α ν : Type*} {l l' : Lobby α ν} {x y z : α} {n m : ν}

/-- The member plays nobody. -/
def Single (l : Lobby α ν) (x : α) : Prop := ∀ y, ¬ l.Paired x y

theorem eq_of_iff (member : ∀ x, l.Member x ↔ l'.Member x)
    (named : ∀ x n, l.Named x n ↔ l'.Named x n)
    (paired : ∀ x y, l.Paired x y ↔ l'.Paired x y) : l = l' :=
  Lobby.ext (funext fun x => propext (member x))
    (funext fun x => funext fun n => propext (named x n))
    (funext fun x => funext fun y => propext (paired x y))

theorem ne_of_single (single : l.Single x) (paired : l.Paired y z) : y ≠ x := by
  rintro rfl
  exact single z paired

theorem ne_of_single' (single : l.Single x) (paired : l.Paired y z) : z ≠ x :=
  ne_of_single single (l.paired_symm paired)

/-! ## The changes -/

/-- Nobody is in. -/
def empty : Lobby α ν where
  Member _ := False
  Named _ _ := False
  Paired _ _ := False
  member_of_named h := h
  name_unique h := h.elim
  owner_unique h := h.elim
  named_of_paired h := h.elim
  paired_symm h := h
  paired_irrefl _ h := h
  partner_unique h := h.elim

/-- `x` comes in without a name. -/
def enter (l : Lobby α ν) (x : α) : Lobby α ν where
  Member y := l.Member y ∨ y = x
  Named := l.Named
  Paired := l.Paired
  member_of_named h := Or.inl (l.member_of_named h)
  name_unique := l.name_unique
  owner_unique := l.owner_unique
  named_of_paired := l.named_of_paired
  paired_symm := l.paired_symm
  paired_irrefl := l.paired_irrefl
  partner_unique := l.partner_unique

/-- The name is nobody's. -/
def Free (l : Lobby α ν) (n : ν) : Prop := ∀ y, ¬ l.Named y n

/-- `x` is called `n` from now on. -/
def call (l : Lobby α ν) (x : α) (n : ν) (member : l.Member x) (free : l.Free n) :
    Lobby α ν where
  Member := l.Member
  Named y k := (y = x ∧ k = n) ∨ (y ≠ x ∧ l.Named y k)
  Paired := l.Paired
  member_of_named h := by
    rcases h with ⟨rfl, _⟩ | ⟨_, h⟩
    · exact member
    · exact l.member_of_named h
  name_unique h h' := by
    have := @l.name_unique
    grind
  owner_unique h h' := by
    have := @l.owner_unique
    have := free
    unfold Free at this
    grind
  named_of_paired {y z} h := by
    by_cases hy : y = x
    · exact ⟨n, Or.inl ⟨hy, rfl⟩⟩
    · obtain ⟨k, hk⟩ := l.named_of_paired h
      exact ⟨k, Or.inr ⟨hy, hk⟩⟩
  paired_symm := l.paired_symm
  paired_irrefl := l.paired_irrefl
  partner_unique := l.partner_unique

/-- `x`, who plays nobody, has no name any more. -/
def unname (l : Lobby α ν) (x : α) (single : l.Single x) : Lobby α ν where
  Member := l.Member
  Named y k := y ≠ x ∧ l.Named y k
  Paired := l.Paired
  member_of_named h := l.member_of_named h.2
  name_unique h h' := l.name_unique h.2 h'.2
  owner_unique h h' := l.owner_unique h.2 h'.2
  named_of_paired h := by
    obtain ⟨k, hk⟩ := l.named_of_paired h
    exact ⟨k, ne_of_single single h, hk⟩
  paired_symm := l.paired_symm
  paired_irrefl := l.paired_irrefl
  partner_unique := l.partner_unique

/-- `x`, who plays nobody, leaves. -/
def leave (l : Lobby α ν) (x : α) (single : l.Single x) : Lobby α ν where
  Member y := l.Member y ∧ y ≠ x
  Named y k := y ≠ x ∧ l.Named y k
  Paired := l.Paired
  member_of_named h := ⟨l.member_of_named h.2, h.1⟩
  name_unique h h' := l.name_unique h.2 h'.2
  owner_unique h h' := l.owner_unique h.2 h'.2
  named_of_paired h := (l.unname x single).named_of_paired h
  paired_symm := l.paired_symm
  paired_irrefl := l.paired_irrefl
  partner_unique := l.partner_unique

/-- The member can be paired. -/
structure Ready (l : Lobby α ν) (x : α) : Prop where
  named : ∃ n, l.Named x n
  single : l.Single x

/-- `x` and `y` play each other from now on. -/
def pair (l : Lobby α ν) (x y : α) (ready : l.Ready x) (ready' : l.Ready y) (distinct : x ≠ y) :
    Lobby α ν where
  Member := l.Member
  Named := l.Named
  Paired a b := l.Paired a b ∨ (a = x ∧ b = y) ∨ (a = y ∧ b = x)
  member_of_named := l.member_of_named
  name_unique := l.name_unique
  owner_unique := l.owner_unique
  named_of_paired h := by
    rcases h with h | ⟨rfl, _⟩ | ⟨rfl, _⟩
    · exact l.named_of_paired h
    · exact ready.named
    · exact ready'.named
  paired_symm h := h.imp l.paired_symm fun h => h.symm.imp And.symm And.symm
  paired_irrefl a h := by
    rcases h with h | ⟨rfl, rfl⟩ | ⟨rfl, rfl⟩
    · exact l.paired_irrefl a h
    · exact distinct rfl
    · exact distinct rfl
  partner_unique {a b c} h h' := by
    have := @l.partner_unique a b c
    have := ready.single
    have := ready'.single
    unfold Single at *
    grind

/-- `x` and `y` do not play each other any more. -/
def part (l : Lobby α ν) (x y : α) (paired : l.Paired x y) : Lobby α ν where
  Member := l.Member
  Named := l.Named
  Paired a b := l.Paired a b ∧ a ≠ x ∧ a ≠ y
  member_of_named := l.member_of_named
  name_unique := l.name_unique
  owner_unique := l.owner_unique
  named_of_paired h := l.named_of_paired h.1
  paired_symm {a b} h := by
    obtain ⟨h, hx, hy⟩ := h
    refine ⟨l.paired_symm h, ?_, ?_⟩
    · rintro rfl
      exact hy (l.partner_unique (l.paired_symm h) paired)
    · rintro rfl
      exact hx (l.partner_unique (l.paired_symm h) (l.paired_symm paired))
  paired_irrefl a h := l.paired_irrefl a h.1
  partner_unique h h' := l.partner_unique h.1 h'.1

theorem single_part_left (paired : l.Paired x y) : (l.part x y paired).Single x :=
  fun _ h => h.2.1 rfl

theorem single_part_right (paired : l.Paired x y) : (l.part x y paired).Single y :=
  fun _ h => h.2.2 rfl

/-- `y`, who plays nobody, takes the place of `x`. -/
def replace (l : Lobby α ν) (x y : α) (member : l.Member y) (single : l.Single y)
    (distinct : y ≠ x) : Lobby α ν where
  Member z := l.Member z ∧ z ≠ x
  Named z n := (z = y ∧ l.Named x n) ∨ (z ≠ y ∧ z ≠ x ∧ l.Named z n)
  Paired a b := (a = y ∧ l.Paired x b) ∨ (b = y ∧ l.Paired a x) ∨ (l.Paired a b ∧ a ≠ x ∧ b ≠ x)
  member_of_named h := by
    rcases h with ⟨rfl, _⟩ | ⟨_, hx, h⟩
    · exact ⟨member, distinct⟩
    · exact ⟨l.member_of_named h, hx⟩
  name_unique h h' := by
    have := @l.name_unique
    grind
  owner_unique h h' := by
    have := @l.owner_unique
    grind
  named_of_paired {a b} h := by
    rcases h with ⟨rfl, h⟩ | ⟨_, h⟩ | ⟨h, hx, _⟩
    · obtain ⟨k, hk⟩ := l.named_of_paired h
      exact ⟨k, Or.inl ⟨rfl, hk⟩⟩
    · obtain ⟨k, hk⟩ := l.named_of_paired h
      exact ⟨k, Or.inr ⟨ne_of_single single h, fun heq => l.paired_irrefl x (heq ▸ h), hk⟩⟩
    · obtain ⟨k, hk⟩ := l.named_of_paired h
      exact ⟨k, Or.inr ⟨ne_of_single single h, hx, hk⟩⟩
  paired_symm h := by
    rcases h with ⟨ha, h⟩ | ⟨hb, h⟩ | ⟨h, ha, hb⟩
    · exact Or.inr (Or.inl ⟨ha, l.paired_symm h⟩)
    · exact Or.inl ⟨hb, l.paired_symm h⟩
    · exact Or.inr (Or.inr ⟨l.paired_symm h, hb, ha⟩)
  paired_irrefl a h := by
    rcases h with ⟨rfl, h⟩ | ⟨rfl, h⟩ | ⟨h, _⟩
    · exact single x (l.paired_symm h)
    · exact single x h
    · exact l.paired_irrefl a h
  partner_unique {a b c} h h' := by
    have := @l.partner_unique
    have := @l.paired_symm
    have := @l.paired_irrefl
    have := single
    unfold Single at this
    grind

/-! ## Histories -/

/-- A change that the lobby allows, and what it leads to. -/
inductive Step : Lobby α ν → Change α ν → Lobby α ν → Prop where
  | enter {l : Lobby α ν} {x : α} (new : ¬ l.Member x) : Step l (.enter x) (l.enter x)
  | call {l : Lobby α ν} {x : α} {n : ν} (member : l.Member x) (free : l.Free n) :
      Step l (.call x n) (l.call x n member free)
  | unname {l : Lobby α ν} {x : α} (member : l.Member x) (single : l.Single x) :
      Step l (.unname x) (l.unname x single)
  | leave {l : Lobby α ν} {x : α} (member : l.Member x) (single : l.Single x) :
      Step l (.leave x) (l.leave x single)
  | pair {l : Lobby α ν} {x y : α} (ready : l.Ready x) (ready' : l.Ready y) (distinct : x ≠ y) :
      Step l (.pair x y) (l.pair x y ready ready' distinct)
  | part {l : Lobby α ν} {x y : α} (paired : l.Paired x y) :
      Step l (.part x y) (l.part x y paired)
  | replace {l : Lobby α ν} {x y z : α} (playing : l.Paired x z) (member : l.Member y)
      (single : l.Single y) (distinct : y ≠ x) :
      Step l (.replace x y) (l.replace x y member single distinct)

/-- A list of changes, each of which the lobby allows when it comes. -/
inductive Steps : Lobby α ν → List (Change α ν) → Lobby α ν → Prop where
  | nil {l : Lobby α ν} : Steps l [] l
  | cons {l l' l'' : Lobby α ν} {c : Change α ν} {cs : List (Change α ν)} (first : Step l c l')
      (rest : Steps l' cs l'') : Steps l (c :: cs) l''

theorem Step.steps {c : Change α ν} (h : Step l c l') : Steps l [c] l' := .cons h .nil

theorem Steps.append {l'' : Lobby α ν} {cs cs' : List (Change α ν)} (h : Steps l cs l')
    (h' : Steps l' cs' l'') : Steps l (cs ++ cs') l'' := by
  induction h with
  | nil => exact h'
  | cons first _ ih => exact .cons first (ih h')

/-! ## Names at play -/

/-- The members with these names play each other. -/
def Plays (l : Lobby α ν) (n m : ν) : Prop := ∃ x y, l.Named x n ∧ l.Named y m ∧ l.Paired x y

theorem Plays.symm (h : l.Plays n m) : l.Plays m n := by
  obtain ⟨x, y, hx, hy, hpaired⟩ := h
  exact ⟨y, x, hy, hx, l.paired_symm hpaired⟩

/-- Who takes a place plays on under the name that it finds there. -/
theorem plays_replace (member : l.Member y) (single : l.Single y) (distinct : y ≠ x) :
    (l.replace x y member single distinct).Plays n m ↔ l.Plays n m := by
  constructor
  · rintro ⟨a, b, ha, hb, hpaired⟩
    -- the newcomer stands for the one it replaced
    have named : ∀ c k, (l.replace x y member single distinct).Named c k →
        ∃ d, l.Named d k ∧ (c = y ∧ d = x ∨ c ≠ y ∧ d = c) := by
      rintro c k (⟨hc, hk⟩ | ⟨hc, _, hk⟩)
      · exact ⟨x, hk, Or.inl ⟨hc, rfl⟩⟩
      · exact ⟨c, hk, Or.inr ⟨hc, rfl⟩⟩
    obtain ⟨a', ha', heqa⟩ := named a n ha
    obtain ⟨b', hb', heqb⟩ := named b m hb
    refine ⟨a', b', ha', hb', ?_⟩
    rcases hpaired with ⟨rfl, h⟩ | ⟨rfl, h⟩ | ⟨h, _, _⟩
    · have hb := ne_of_single' single h
      grind
    · have ha := ne_of_single single h
      grind
    · have ha := ne_of_single single h
      have hb := ne_of_single' single h
      grind
  · rintro ⟨a, b, ha, hb, hpaired⟩
    have hay := ne_of_single single hpaired
    have hby := ne_of_single' single hpaired
    by_cases hax : a = x
    · subst hax
      have hbx : b ≠ a := fun heq => l.paired_irrefl a (heq ▸ hpaired)
      exact ⟨y, b, Or.inl ⟨rfl, ha⟩, Or.inr ⟨hby, hbx, hb⟩, Or.inl ⟨rfl, hpaired⟩⟩
    · by_cases hbx : b = x
      · subst hbx
        exact ⟨a, y, Or.inr ⟨hay, hax, ha⟩, Or.inl ⟨rfl, hb⟩, Or.inr (Or.inl ⟨rfl, hpaired⟩)⟩
      · exact ⟨a, b, Or.inr ⟨hay, hax, ha⟩, Or.inr ⟨hby, hbx, hb⟩,
          Or.inr (Or.inr ⟨hpaired, hax, hbx⟩)⟩

/-- The change can end the game of the members with these names: one of them parts or takes
    another name. -/
def Ends (l : Lobby α ν) (n m : ν) : Change α ν → Prop
  | .part x y => l.Named x n ∨ l.Named x m ∨ l.Named y n ∨ l.Named y m
  | .call x _ => l.Named x n ∨ l.Named x m
  | _ => False

/-- Nothing else ends a game. -/
theorem Step.plays {c : Change α ν} (h : Step l c l') (kept : ¬ l.Ends n m c)
    (playing : l.Plays n m) : l'.Plays n m := by
  obtain ⟨a, b, ha, hb, hpaired⟩ := playing
  cases h with
  | enter => exact ⟨a, b, ha, hb, hpaired⟩
  | call =>
    obtain ⟨hn, hm⟩ := not_or.mp kept
    exact ⟨a, b, Or.inr ⟨fun heq => hn (heq ▸ ha), ha⟩, Or.inr ⟨fun heq => hm (heq ▸ hb), hb⟩,
      hpaired⟩
  | unname _ single | leave _ single =>
    exact ⟨a, b, ⟨ne_of_single single hpaired, ha⟩, ⟨ne_of_single' single hpaired, hb⟩, hpaired⟩
  | pair => exact ⟨a, b, ha, hb, Or.inl hpaired⟩
  | part =>
    obtain ⟨hxn, _, hyn, _⟩ : _ ∧ _ ∧ _ ∧ _ := by simpa only [Ends, not_or] using kept
    exact ⟨a, b, ha, hb, hpaired, fun heq => hxn (heq ▸ ha), fun heq => hyn (heq ▸ ha)⟩
  | replace _ member single distinct =>
    exact (plays_replace member single distinct).mpr ⟨a, b, ha, hb, hpaired⟩

/-- A list in which others only leave after the first change. -/
theorem Steps.plays {cs : List (Change α ν)} (h : Steps l cs l')
    (kept : ∀ c ∈ cs.head?, ¬ l.Ends n m c) (tail : ∀ c ∈ cs.tail, ∃ x, c = .leave x)
    (playing : l.Plays n m) : l'.Plays n m := by
  have leaving : ∀ {l l' : Lobby α ν} {cs : List (Change α ν)}, Steps l cs l' →
      (∀ c ∈ cs, ∃ x, c = .leave x) → l.Plays n m → l'.Plays n m := by
    intro l l' cs h hleave hplaying
    induction h with
    | nil => exact hplaying
    | cons first _ ih =>
      obtain ⟨x, hx⟩ := hleave _ List.mem_cons_self
      refine ih (fun c hc => hleave c (List.mem_cons_of_mem _ hc)) (first.plays ?_ hplaying)
      rw [hx]
      exact id
  cases h with
  | nil => exact playing
  | cons first rest => exact leaving rest tail (first.plays (kept _ rfl) playing)

/-- The change can begin a game of members with these names: two of them are paired, or one who
    plays already takes such a name. -/
def Begins (l : Lobby α ν) (n m : ν) : Change α ν → Prop
  | .pair x y => (l.Named x n ∧ l.Named y m) ∨ (l.Named y n ∧ l.Named x m)
  | .call x k => (k = n ∨ k = m) ∧ ¬ l.Single x
  | _ => False

/-- Nothing else begins a game. -/
theorem Step.played {c : Change α ν} (h : Step l c l') (playing : l'.Plays n m) :
    l.Plays n m ∨ l.Begins n m c := by
  obtain ⟨a, b, ha, hb, hpaired⟩ := playing
  cases h with
  | enter => exact Or.inl ⟨a, b, ha, hb, hpaired⟩
  | @call x k =>
    have hplaying : ∀ {c d}, l.Paired c d → c = x → ¬ l.Single x :=
      fun h heq hsingle => hsingle _ (heq ▸ h)
    rcases ha with ⟨hax, rfl⟩ | ⟨_, ha⟩
    · exact Or.inr ⟨Or.inl rfl, hplaying hpaired hax⟩
    · rcases hb with ⟨hbx, rfl⟩ | ⟨_, hb⟩
      · exact Or.inr ⟨Or.inr rfl, hplaying (l.paired_symm hpaired) hbx⟩
      · exact Or.inl ⟨a, b, ha, hb, hpaired⟩
  | unname | leave => exact Or.inl ⟨a, b, ha.2, hb.2, hpaired⟩
  | pair =>
    rcases hpaired with hpaired | ⟨rfl, rfl⟩ | ⟨rfl, rfl⟩
    · exact Or.inl ⟨a, b, ha, hb, hpaired⟩
    · exact Or.inr (Or.inl ⟨ha, hb⟩)
    · exact Or.inr (Or.inr ⟨ha, hb⟩)
  | part => exact Or.inl ⟨a, b, ha, hb, hpaired.1⟩
  | replace _ member single distinct =>
    exact Or.inl ((plays_replace member single distinct).mp ⟨a, b, ha, hb, hpaired⟩)

theorem Steps.played {cs : List (Change α ν)} (h : Steps l cs l')
    (kept : ∀ c ∈ cs.head?, ¬ l.Begins n m c) (tail : ∀ c ∈ cs.tail, ∃ x, c = .leave x)
    (playing : l'.Plays n m) : l.Plays n m := by
  have leaving : ∀ {l l' : Lobby α ν} {cs : List (Change α ν)}, Steps l cs l' →
      (∀ c ∈ cs, ∃ x, c = .leave x) → l'.Plays n m → l.Plays n m := by
    intro l l' cs h hleave hplaying
    induction h with
    | nil => exact hplaying
    | cons first _ ih =>
      obtain ⟨x, hx⟩ := hleave _ List.mem_cons_self
      have hrest := ih (fun c hc => hleave c (List.mem_cons_of_mem _ hc)) hplaying
      refine (first.played hrest).resolve_right ?_
      rw [hx]
      exact id
  cases h with
  | nil => exact playing
  | cons first rest =>
    exact (first.played (leaving rest tail playing)).resolve_right (kept _ rfl)

end Lobby

end UpsServer.Framework
