import ChipEight.Screen
import Mathlib.Algebra.BigOperators.Fin
import Mathlib.Data.Fintype.BigOperators

/-!
# What a sprite does to the screen

A sprite that is longer than the screen is high comes back to the rows where it began, so that one
pixel can be toggled many times.  `lit_toggleAll` and `toggleAll_collides_iff` say what becomes of a
list of toggles by how often each pixel occurs in it, and `count_pixelsUnder` counts the occurrences
as lit cells of the sprite.
-/

namespace ChipEight

/-- How many lit cells of a sprite stand over a pixel, if its upper left corner is at `(x, y)`.  The
most significant bit of a byte is its leftmost cell. -/
def coverage (x y : Int) (sprite : List Byte) (p : Column) (q : Row) : Nat :=
  (Finset.univ.filter fun cell : Fin sprite.length × Fin 8 =>
    sprite[cell.1].toNat.testBit (7 - cell.2.val) = true ∧
      (x + (cell.2.val : Int)) % 64 = p.val ∧ (y + (cell.1.val : Int)) % 32 = q.val).card

/-! ## Counting cells -/

theorem wrap_eq_iff (last : Nat) (coordinate : Int) (place : Fin (last + 1)) :
    wrap last coordinate = place ↔ coordinate % ((last + 1 : Nat) : Int) = place.val := by
  have positive : (0 : Int) < ((last + 1 : Nat) : Int) := by omega
  have nonneg := Int.emod_nonneg coordinate (Int.ne_of_gt positive)
  have below := Int.emod_lt_of_pos coordinate positive
  have small : (coordinate % ((last + 1 : Nat) : Int)).toNat < last + 1 := by omega
  rw [wrap, Fin.ext_iff, Fin.val_ofNat, Nat.mod_eq_of_lt small]
  omega

theorem countP_range (bound : Nat) (holds : Nat → Bool) :
    (List.range bound).countP holds = ∑ number : Fin bound, if holds number then 1 else 0 := by
  induction bound with
  | zero => rfl
  | succ bound inductionHypothesis =>
      rw [List.range_succ, List.countP_append, inductionHypothesis, Fin.sum_univ_castSucc,
        List.countP_singleton]
      rfl

/-- The lit cells of a byte for which something holds. -/
def litCells (byte : Byte) (holds : Nat → Bool) : Nat :=
  ∑ column : Fin 8,
    if byte.toNat.testBit (7 - column.val) = true ∧ holds column.val = true then 1 else 0

theorem countP_litColumns (byte : Byte) (holds : Nat → Bool) :
    (litColumns byte).countP holds = litCells byte holds := by
  rw [litColumns, List.countP_filter, countP_range, litCells]
  simp only [Bool.and_eq_true, and_comm]

theorem countP_spriteCells (holds : Nat × Nat → Bool) (top : Nat) (sprite : List Byte) :
    (spriteCells top sprite).countP holds =
      ∑ row : Fin sprite.length, litCells sprite[row] fun column => holds (column, top + row) := by
  induction sprite generalizing top with
  | nil => rfl
  | cons byte sprite inductionHypothesis =>
      change _ = ∑ row : Fin (sprite.length + 1), _
      rw [spriteCells, List.countP_append, List.countP_map, countP_litColumns, inductionHypothesis,
        Fin.sum_univ_succ]
      simp only [Nat.add_assoc, Nat.add_comm 1]
      rfl

/-- A pixel is toggled once for each lit cell that stands over it. -/
theorem count_pixelsUnder (x y : Int) (sprite : List Byte) (p : Column) (q : Row) :
    (Screen.pixelsUnder x y sprite).count (p, q) = coverage x y sprite p q := by
  have covers : ∀ column row : Nat,
      (wrap 63 (x + (column : Int)), wrap 31 (y + (row : Int))) = (p, q) ↔
        (x + (column : Int)) % 64 = p.val ∧ (y + (row : Int)) % 32 = q.val := by
    intro column row
    rw [Prod.mk.injEq, wrap_eq_iff, wrap_eq_iff]
    rfl
  rw [Screen.pixelsUnder, List.count_eq_countP, List.countP_map, countP_spriteCells, coverage,
    Finset.card_filter, Fintype.sum_prod_type]
  simp only [litCells, Function.comp_apply, beq_iff_eq, covers, Nat.zero_add]

namespace Screen

/-! ## Lists of toggles -/

/-- A pixel is switched if it is toggled an odd number of times. -/
theorem lit_toggleAll (screen : Screen) (pixels : List (Column × Row)) (p : Column) (q : Row) :
    (screen.toggleAll pixels).1.lit p q =
      (screen.lit p q ^^ decide (pixels.count (p, q) % 2 = 1)) := by
  induction pixels generalizing screen with
  | nil => simp [toggleAll]
  | cons pixel pixels inductionHypothesis =>
      obtain ⟨x, y⟩ := pixel
      simp only [toggleAll, inductionHypothesis, lit_toggle, List.count_cons]
      by_cases here : p = x ∧ q = y
      · obtain ⟨rfl, rfl⟩ := here
        rcases Nat.mod_two_eq_zero_or_one (pixels.count (p, q)) with even | odd
        · simp [even, Nat.add_mod]
        · simp [odd, Nat.add_mod]
      · have other : ¬ (x = p ∧ y = q) := fun same => here ⟨same.1.symm, same.2.symm⟩
        simp [here, other]

/-- Some toggle of a list finds its pixel lit: one that is toggled twice, or one that is toggled
once and was lit before. -/
theorem toggleAll_collides_iff (screen : Screen) (pixels : List (Column × Row)) :
    (screen.toggleAll pixels).2 = true ↔
      ∃ p q, 2 ≤ pixels.count (p, q) ∨
        (pixels.count (p, q) = 1 ∧ screen.lit p q = true) := by
  induction pixels generalizing screen with
  | nil => simp [toggleAll]
  | cons pixel pixels inductionHypothesis =>
      obtain ⟨x, y⟩ := pixel
      have counted : ∀ p q, ((x, y) :: pixels).count (p, q) =
          pixels.count (p, q) + if p = x ∧ q = y then 1 else 0 := by
        intro p q
        simp only [List.count_cons, beq_iff_eq, Prod.mk.injEq, eq_comm (a := p), eq_comm (a := q)]
      simp only [toggleAll, Bool.or_eq_true, inductionHypothesis, counted, lit_toggle]
      constructor
      · rintro (lit | ⟨p, q, toggled⟩)
        · refine ⟨x, y, ?_⟩
          by_cases again : pixels.count (x, y) = 0
          · exact Or.inr (by simp [again, lit])
          · exact Or.inl (by simp only [and_self, if_true]; omega)
        · refine ⟨p, q, ?_⟩
          by_cases here : p = x ∧ q = y
          · -- The first toggle and a later one meet here.
            have later : 1 ≤ pixels.count (p, q) := by omega
            exact Or.inl (by simp only [here, and_self, if_true] at later ⊢; omega)
          · simpa [here] using toggled
      · rintro ⟨p, q, toggled⟩
        by_cases here : p = x ∧ q = y
        · obtain ⟨rfl, rfl⟩ := here
          cases lit : screen.lit p q with
          | true => exact Or.inl rfl
          | false =>
              refine Or.inr ⟨p, q, ?_⟩
              simp only [and_self, if_true, lit, Bool.false_eq_true, and_false, or_false] at toggled
              simp only [lit, and_self, decide_true, Bool.xor_true, Bool.not_false, and_true]
              omega
        · exact Or.inr ⟨p, q, by simpa [here] using toggled⟩

end Screen

/-- Drawing switches the pixels that an odd number of lit cells cover, and marks the display as
dirty.  It collides if two lit cells cover one pixel, or if one covers a pixel that was lit. -/
theorem Display.draw_switches_by_parity (display : Display) (x y : Int) (sprite : List Byte) :
    let drawn := display.draw x y sprite
    (∀ p q, drawn.1.screen.lit p q =
      (display.screen.lit p q ^^ decide (coverage x y sprite p q % 2 = 1))) ∧
    drawn.1.dirty = true ∧
    (drawn.2 = true ↔
      ∃ p q, 2 ≤ coverage x y sprite p q ∨
        (coverage x y sprite p q = 1 ∧ display.screen.lit p q = true)) := by
  intro drawn
  refine ⟨fun p q => ?_, rfl, ?_⟩
  · rw [← count_pixelsUnder]
    exact display.screen.lit_toggleAll (Screen.pixelsUnder x y sprite) p q
  · simp only [← count_pixelsUnder]
    exact display.screen.toggleAll_collides_iff (Screen.pixelsUnder x y sprite)

/-- The last row of a sprite of 33 rows falls on the first one and takes it back. -/
example :
    let drawn := Display.initial.draw (-3) 40 (List.replicate 33 0x80)
    drawn.2 = true ∧ drawn.1.screen.lit 61 8 = false ∧ drawn.1.screen.lit 61 9 = true := by
  decide +kernel

end ChipEight
