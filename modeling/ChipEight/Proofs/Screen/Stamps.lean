import ChipEight.Proofs.Screen.Toggles

/-!
# Sprites drawn one after the other

Sprites that are drawn one after the other make up one list of toggles, and what a list of toggles
leaves on a screen depends on no more than how often each pixel occurs in it, odd or even.  So the
order of the sprites does not matter, and two that fall on the same pixels take each other back,
whatever was drawn between them.
-/

namespace ChipEight

/-- A sprite and where its upper left corner is put. -/
structure Stamp where
  x : Int
  y : Int
  sprite : List Byte
  deriving DecidableEq

/-- Two stamps put the same sprite on the same place of the screen, which goes around. -/
structure Stamp.Coincides (first second : Stamp) : Prop where
  sprite : first.sprite = second.sprite
  x : first.x % 64 = second.x % 64
  y : first.y % 32 = second.y % 32

def Stamp.pixels (stamp : Stamp) : List (Column × Row) :=
  Screen.pixelsUnder stamp.x stamp.y stamp.sprite

def Display.drawAll (display : Display) (stamps : List Stamp) : Display :=
  stamps.foldl (fun drawn stamp => (drawn.draw stamp.x stamp.y stamp.sprite).1) display

/-! ## Pixels under a sprite -/

/-- Places that agree around the screen stay so when they are moved. -/
theorem wrap_add_congr (last : Nat) {first second : Int}
    (same : first % ((last + 1 : Nat) : Int) = second % ((last + 1 : Nat) : Int)) (offset : Int) :
    wrap last (first + offset) = wrap last (second + offset) := by
  rw [wrap_eq_iff, ← Int.emod_add_emod, same, Int.emod_add_emod, ← wrap_eq_iff]

theorem Stamp.Coincides.pixels {first second : Stamp} (same : first.Coincides second) :
    first.pixels = second.pixels := by
  rw [Stamp.pixels, Stamp.pixels, Screen.pixelsUnder, Screen.pixelsUnder, same.sprite]
  apply List.map_congr_left
  intro cell _
  exact Prod.ext (wrap_add_congr 63 same.x cell.1) (wrap_add_congr 31 same.y cell.2)

theorem spriteCells_append (top : Nat) (upper lower : List Byte) :
    spriteCells top (upper ++ lower) =
      spriteCells top upper ++ spriteCells (top + upper.length) lower := by
  induction upper generalizing top with
  | nil => rfl
  | cons byte upper inductionHypothesis =>
      rw [List.cons_append, spriteCells, spriteCells, inductionHypothesis, List.append_assoc,
        List.length_cons, Nat.add_right_comm, Nat.add_assoc]

theorem spriteCells_lowered (top rows : Nat) (sprite : List Byte) :
    spriteCells (top + rows) sprite =
      (spriteCells top sprite).map fun (column, row) => (column, row + rows) := by
  induction sprite generalizing top with
  | nil => rfl
  | cons byte sprite inductionHypothesis =>
      rw [spriteCells, spriteCells, List.map_append, List.map_map, Nat.add_right_comm,
        inductionHypothesis]
      rfl

namespace Screen

/-- The lower part of a sprite stands as many rows farther down as the upper part is high. -/
theorem pixelsUnder_append (x y : Int) (upper lower : List Byte) :
    pixelsUnder x y (upper ++ lower) =
      pixelsUnder x y upper ++ pixelsUnder x (y + (upper.length : Int)) lower := by
  rw [pixelsUnder, spriteCells_append, List.map_append, spriteCells_lowered, List.map_map]
  refine congrArg (pixelsUnder x y upper ++ ·) (List.map_congr_left fun cell _ => ?_)
  have row : y + ((cell.2 + upper.length : Nat) : Int) = y + (upper.length : Int) + cell.2 := by
    omega
  simp only [Function.comp_apply, row]

/-! ## Toggles in any order -/

theorem eq_of_lit {first second : Screen} (alike : ∀ p q, first.lit p q = second.lit p q) :
    first = second := by
  obtain ⟨firstRows⟩ := first
  obtain ⟨secondRows⟩ := second
  congr 1
  ext row rowBound column columnBound
  exact alike ⟨column, columnBound⟩ ⟨row, rowBound⟩

theorem toggleAll_append (screen : Screen) (pixels later : List (Column × Row)) :
    screen.toggleAll (pixels ++ later) =
      let first := screen.toggleAll pixels
      let second := first.1.toggleAll later
      (second.1, first.2 || second.2) := by
  induction pixels generalizing screen with
  | nil => simp [toggleAll]
  | cons pixel pixels inductionHypothesis =>
      simp only [List.cons_append, toggleAll, inductionHypothesis, Bool.or_assoc]

/-- Lists of toggles leave the same screen if they differ only in pairs of toggles of one pixel. -/
theorem toggleAll_congr (screen : Screen) {pixels others : List (Column × Row)}
    (alike : ∀ pixel, pixels.count pixel % 2 = others.count pixel % 2) :
    (screen.toggleAll pixels).1 = (screen.toggleAll others).1 := by
  apply eq_of_lit
  intro p q
  rw [lit_toggleAll, lit_toggleAll, alike]

end Screen

/-! ## Lists of sprites -/

namespace Display

theorem screen_drawAll (display : Display) (stamps : List Stamp) :
    (display.drawAll stamps).screen =
      (display.screen.toggleAll (stamps.flatMap Stamp.pixels)).1 := by
  induction stamps generalizing display with
  | nil => rfl
  | cons stamp stamps inductionHypothesis =>
      rw [List.flatMap_cons, Screen.toggleAll_append]
      exact inductionHypothesis _

/-- Sprites may be drawn in any order, and two of them that coincide may be left out.  A sprite can
be drawn in two parts, the lower one below the upper one, and collides if one of them does. -/
theorem draws_commute_and_cancel (display : Display) :
    (∀ stamps others : List Stamp, stamps.Perm others →
      (display.drawAll stamps).screen = (display.drawAll others).screen) ∧
    (∀ (earlier between later : List Stamp) (first second : Stamp), first.Coincides second →
      (display.drawAll (earlier ++ first :: between ++ second :: later)).screen =
        (display.drawAll (earlier ++ between ++ later)).screen) ∧
    ∀ (x y : Int) (upper lower : List Byte),
      let whole := display.draw x y (upper ++ lower)
      let above := display.draw x y upper
      let below := above.1.draw x (y + (upper.length : Int)) lower
      whole.1 = below.1 ∧ whole.2 = (above.2 || below.2) := by
  refine ⟨fun stamps others permuted => ?_, fun earlier between later first second same => ?_, ?_⟩
  · have pixels := permuted.flatMap_right Stamp.pixels
    rw [screen_drawAll, screen_drawAll]
    exact display.screen.toggleAll_congr fun pixel => by rw [pixels.count_eq]
  · rw [screen_drawAll, screen_drawAll]
    refine display.screen.toggleAll_congr fun pixel => ?_
    -- A pixel occurs equally often in both sprites, so together they add an even number.
    simp only [List.flatMap_append, List.flatMap_cons, List.count_append, same.pixels]
    omega
  · intro x y upper lower whole above below
    have drawn := display.screen.toggleAll_append (Screen.pixelsUnder x y upper)
      (Screen.pixelsUnder x (y + (upper.length : Int)) lower)
    rw [← Screen.pixelsUnder_append] at drawn
    simp only [whole, above, below, draw, Screen.draw, drawn, and_self]

/-- A sprite that is drawn over two edges is taken back by one that comes from the other sides. -/
theorem draws_commute_and_cancel_over_edges :
    let display := (initial.draw 0 0 [0xFF, 0x81]).1
    let first : Stamp := ⟨-3, 31, [0xF0, 0x90, 0xF0]⟩
    let second : Stamp := ⟨125, -1, [0xF0, 0x90, 0xF0]⟩
    let other : Stamp := ⟨62, 0, [0x3C]⟩
    [first, other].Perm [other, first] ∧ first.Coincides second ∧
      (display.drawAll [first, other]).screen = (display.drawAll [other, first]).screen ∧
      (display.drawAll [first, other, second]).screen = (display.drawAll [other]).screen := by
  intro display first second other
  have swapped : [first, other].Perm [other, first] := .swap other first []
  have same : first.Coincides second := ⟨rfl, rfl, rfl⟩
  obtain ⟨commute, cancel, _⟩ := draws_commute_and_cancel display
  exact ⟨swapped, same, commute _ _ swapped, cancel [] [other] [] first second same⟩

end Display

end ChipEight
