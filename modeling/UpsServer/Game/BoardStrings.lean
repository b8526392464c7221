import UpsServer.Framework.Decimal
import UpsServer.Framework.Separated
import UpsServer.Game.Game

/-!
# The board as a string and back

`Game::getGameString` writes the cells row by row, separated by `;`. A number never contains the
separator and is never empty, so the pieces between the separators are the cells again, and each of
them is the text of its card type, whatever integer that is.
-/

namespace UpsServer

open Framework

namespace Game

/-! ## One cell -/

theorem toDecimal_eq (value : Int) : toDecimal value = writeDecimal value := rfl

/-- No number contains the separator. -/
theorem separator_not_mem_toDecimal (value : Int) : (59 : UInt8) ∉ toDecimal value := by
  intro h
  rw [toDecimal_eq] at h
  rcases eq_or_isDigit_of_mem_writeDecimal h with hsign | ⟨_, hhigh⟩
  · exact absurd hsign (by decide)
  · exact absurd hhigh (by decide)

/-! ## All cells -/

/-- The nested loops join the texts of the cells. -/
theorem getGameString_eq (g : Game) :
    g.getGameString = [59].intercalate (cellsInOrder.map fun c => toDecimal (g.field c)) :=
  foldl_append_join 59 (fun c => toDecimal (g.field c))
    (fun c => writeDecimal_ne_nil (g.field c)) cellsInOrder [] (by simp)

/-- Splitting gives the texts of the cells. -/
theorem splitOn_getGameString (g : Game) :
    g.getGameString.splitOn 59 = cellsInOrder.map fun c => toDecimal (g.field c) := by
  have hne : cellsInOrder.map (fun c => toDecimal (g.field c)) ≠ [] := by
    intro h
    cases List.map_eq_nil_iff.mp h
  rw [getGameString_eq, splitOn_intercalate_iff hne]
  intro piece hpiece
  obtain ⟨c, _, rfl⟩ := List.mem_map.mp hpiece
  exact separator_not_mem_toDecimal (g.field c)

/-- The cell that the loops visit at a place. -/
theorem cellsInOrder_getElem? {k : Nat} (hk : k < 64) :
    cellsInOrder[k]? = some (((k / 8 : Nat) : Int), ((k % 8 : Nat) : Int)) := by
  have hall : ∀ k < 64,
      cellsInOrder[k]? = some (((k / 8 : Nat) : Int), ((k % 8 : Nat) : Int)) := by
    decide +kernel
  exact hall k hk

/-- The card type that a client reads from the string for a cell. -/
def rebuild (gameString : ByteString) (i j : Nat) : Option Int :=
  ((gameString.splitOn 59)[8 * i + j]?).bind readDecimal

/-- A piece is read as the card type of its cell. -/
theorem readDecimal_piece (g : Game) {k : Nat} (hk : k < 64) :
    ((g.getGameString.splitOn 59)[k]?).bind readDecimal
      = some (g.field (((k / 8 : Nat) : Int), ((k % 8 : Nat) : Int))) := by
  rw [splitOn_getGameString, List.getElem?_map, cellsInOrder_getElem? hk]
  exact readDecimal_writeDecimal _

/-- The client reads what stands in the field. -/
theorem rebuild_getGameString (g : Game) {i j : Nat} (hi : i < 8) (hj : j < 8) :
    rebuild g.getGameString i j = some (g.field ((i : Int), (j : Int))) := by
  have hpiece := readDecimal_piece g (k := 8 * i + j) (by omega)
  have hrow : (8 * i + j) / 8 = i := by omega
  have hcolumn : (8 * i + j) % 8 = j := by omega
  rw [hrow, hcolumn] at hpiece
  exact hpiece

/-- Boards with the same string are the same. -/
theorem field_eq_of_getGameString_eq {g h : Game} (heq : g.getGameString = h.getGameString)
    {c : Cell} (hc : OnBoard c) : g.field c = h.field c := by
  obtain ⟨hi, hi', hj, hj'⟩ := hc
  have hg := rebuild_getGameString g (i := c.1.toNat) (j := c.2.toNat) (by omega) (by omega)
  have hh := rebuild_getGameString h (i := c.1.toNat) (j := c.2.toNat) (by omega) (by omega)
  rw [heq, hh, Int.toNat_of_nonneg hi, Int.toNat_of_nonneg hj] at hg
  exact (Option.some.inj hg).symm

end Game

end UpsServer
