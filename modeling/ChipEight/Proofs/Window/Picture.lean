import ChipEight.Window.Device
import ChipEight.Window.Settings
import Mathlib.Data.List.Nodup
import Mathlib.Order.Bounds.Basic

/-!
# The picture in the window

A screen is painted square by square, and the squares are a pixel of the screen wide and high at the
scale of the window.  A point of the window lies in the square of one pixel, whose coordinates are
those of the point divided by the scale.  From this follows which points are painted:
`painted_where_lit`.
-/

namespace ChipEight

/-- A rectangle of points, given by its upper left corner and its size. -/
structure Rectangle where
  left : Int
  top : Int
  width : Int
  height : Int

namespace Rectangle

def Covers (rectangle : Rectangle) (x y : Int) : Prop :=
  (rectangle.left ≤ x ∧ x < rectangle.left + rectangle.width) ∧
    (rectangle.top ≤ y ∧ y < rectangle.top + rectangle.height)

/-- No point lies in both rectangles. -/
def Apart (first second : Rectangle) : Prop :=
  ∀ x y, ¬ (first.Covers x y ∧ second.Covers x y)

def Within (rectangle : Rectangle) (window : WindowSize) : Prop :=
  (0 ≤ rectangle.left ∧ rectangle.left + rectangle.width ≤ window.width) ∧
    (0 ≤ rectangle.top ∧ rectangle.top + rectangle.height ≤ window.height)

/-- The call that paints a rectangle. -/
def painted (rectangle : Rectangle) : DeviceCall :=
  .rectangle litColour rectangle.left rectangle.top rectangle.width rectangle.height

/-- The square of a pixel. -/
def square (scale : Int) (pixel : Column × Row) : Rectangle :=
  ⟨pixel.1.val * scale, pixel.2.val * scale, scale, scale⟩

end Rectangle

open Rectangle

/-! ## Squares -/

section Squares

variable {scale : Int} (positive : 0 < scale)

include positive

/-- A point lies in the square of the pixel that its coordinates give when they are divided by the
scale. -/
theorem square_covers_iff {pixel : Column × Row} {x y : Int} :
    (square scale pixel).Covers x y ↔ x / scale = pixel.1.val ∧ y / scale = pixel.2.val := by
  rw [Int.ediv_eq_iff_of_pos positive, Int.ediv_eq_iff_of_pos positive]
  rfl

theorem square_apart {first second : Column × Row} (different : first ≠ second) :
    (square scale first).Apart (square scale second) := by
  rintro x y ⟨inFirst, inSecond⟩
  obtain ⟨column, row⟩ := (square_covers_iff positive).mp inFirst
  obtain ⟨otherColumn, otherRow⟩ := (square_covers_iff positive).mp inSecond
  refine different (Prod.ext (Fin.ext ?_) (Fin.ext ?_))
  · omega
  · omega

/-- Every coordinate within the window belongs to some column or row. -/
theorem exists_place {count : Nat} {coordinate : Int} (lower : 0 ≤ coordinate)
    (upper : coordinate < count * scale) : ∃ place : Fin count, coordinate / scale = place.val := by
  have nonnegative : 0 ≤ coordinate / scale := Int.ediv_nonneg lower positive.le
  have below : coordinate / scale < count := (Int.ediv_lt_iff_lt_mul positive).mpr upper
  exact ⟨⟨(coordinate / scale).toNat, by omega⟩, by simp only; omega⟩

theorem place_within {count : Nat} (place : Fin count) :
    0 ≤ place.val * scale ∧ place.val * scale + scale ≤ count * scale := by
  have below : (place.val : Int) + 1 ≤ count := by omega
  refine ⟨Int.mul_nonneg (Int.natCast_nonneg _) positive.le, ?_⟩
  calc (place.val : Int) * scale + scale = (place.val + 1) * scale := by
        rw [Int.add_mul, Int.one_mul]
    _ ≤ count * scale := Int.mul_le_mul_of_nonneg_right below positive.le

end Squares

/-! ## Lit pixels -/

namespace Screen

variable (screen : Screen)

theorem mem_litPixels (x : Column) (y : Row) :
    (x, y) ∈ screen.litPixels ↔ screen.lit x y = true := by
  simp [litPixels]

/-- No pixel is painted twice. -/
theorem nodup_litPixels : screen.litPixels.Nodup := by
  refine List.pairwise_flatMap.mpr ⟨fun y _ => ?_, ?_⟩
  · exact ((List.nodup_finRange 64).filter _).map fun x other same => (Prod.mk.inj same).1
  · refine (List.nodup_finRange 32).imp fun different first inFirst second inSecond same => ?_
    obtain ⟨_, _, rfl⟩ := List.mem_map.mp inFirst
    obtain ⟨_, _, rfl⟩ := List.mem_map.mp inSecond
    exact different (Prod.mk.inj same).2

/-- The squares that are painted for a screen. -/
def squares (scale : Int) : List Rectangle :=
  screen.litPixels.map (square scale)

theorem paint_eq (scale : Int) :
    screen.paint scale =
      .fill darkColour :: (screen.squares scale).map Rectangle.painted ++ [.flip] := by
  simp only [paint, squares, List.map_map]
  rfl

theorem squares_apart {scale : Int} (positive : 0 < scale) :
    (screen.squares scale).Pairwise Rectangle.Apart :=
  List.pairwise_map.mpr (screen.nodup_litPixels.imp (square_apart positive))

theorem covered_iff {scale : Int} (positive : 0 < scale) {x y : Int} {column : Column} {row : Row}
    (inColumn : x / scale = column.val) (inRow : y / scale = row.val) :
    (∃ rectangle ∈ screen.squares scale, rectangle.Covers x y) ↔ screen.lit column row = true := by
  simp only [squares, List.mem_map, exists_exists_and_eq_and, square_covers_iff positive]
  rw [← mem_litPixels]
  constructor
  · rintro ⟨⟨otherColumn, otherRow⟩, member, sameColumn, sameRow⟩
    have columns : otherColumn = column := Fin.ext (by simp only at sameColumn; omega)
    have rows : otherRow = row := Fin.ext (by simp only at sameRow; omega)
    rwa [columns, rows] at member
  · exact fun member => ⟨_, member, inColumn, inRow⟩

end Screen

/-! ## Scales -/

theorem fitting_scale (width height : Int) :
    (WindowSize.fitting width height).scale = max (min (width / 64) (height / 32)) 1 := by
  simp only [WindowSize.fitting, Int.fdiv_eq_ediv_of_nonneg _ (by decide : (0 : Int) ≤ 64),
    Int.fdiv_eq_ediv_of_nonneg _ (by decide : (0 : Int) ≤ 32)]

/-- The scales at which a screen fits into a width and a height. -/
def scalesFitting (width height : Int) : Set Int :=
  {scale | 1 ≤ scale ∧ 64 * scale ≤ width ∧ 32 * scale ≤ height}

/-- The scale is the greatest that fits the hints, or one where none does. -/
theorem fitting_scale_greatest (width height : Int) :
    IsGreatest (scalesFitting width height) (WindowSize.fitting width height).scale ∨
      scalesFitting width height = ∅ ∧ (WindowSize.fitting width height).scale = 1 := by
  rw [fitting_scale]
  by_cases room : 64 ≤ width ∧ 32 ≤ height
  · refine .inl ⟨⟨?_, ?_, ?_⟩, fun scale ⟨_, _, _⟩ => ?_⟩ <;> omega
  · refine .inr ⟨Set.eq_empty_iff_forall_notMem.mpr fun scale ⟨_, _, _⟩ => ?_, ?_⟩ <;> omega

example : WindowSize.fitting 800 600 = ⟨12, 768, 384⟩ := by decide

/-- In a window that is as large as the scale allows, exactly the points of the lit pixels are
painted, each once, and nothing is painted outside. -/
theorem painted_where_lit (width height : Int) (screen : Screen) :
    let window := WindowSize.fitting width height
    (IsGreatest (scalesFitting width height) window.scale ∨
      scalesFitting width height = ∅ ∧ window.scale = 1) ∧
    window.width = 64 * window.scale ∧ window.height = 32 * window.scale ∧
    ∃ rectangles : List Rectangle,
      screen.paint window.scale =
        .fill darkColour :: rectangles.map Rectangle.painted ++ [.flip] ∧
      rectangles.Pairwise Rectangle.Apart ∧
      (∀ rectangle ∈ rectangles, rectangle.Within window) ∧
      ∀ x y, 0 ≤ x ∧ x < window.width → 0 ≤ y ∧ y < window.height →
        ∃ (column : Column) (row : Row),
          x / window.scale = column.val ∧ y / window.scale = row.val ∧
          ((∃ rectangle ∈ rectangles, rectangle.Covers x y) ↔ screen.lit column row = true) := by
  intro window
  have positive : 0 < window.scale := by
    have scale : window.scale = _ := fitting_scale width height
    omega
  have across : window.width = (64 : Nat) * window.scale := Int.mul_comm _ _
  have down : window.height = (32 : Nat) * window.scale := Int.mul_comm _ _
  refine ⟨fitting_scale_greatest width height, across, down, screen.squares window.scale,
    screen.paint_eq window.scale, screen.squares_apart positive, ?within, ?covered⟩
  case within =>
    intro rectangle member
    obtain ⟨⟨column, row⟩, -, rfl⟩ := List.mem_map.mp member
    rw [Rectangle.Within, across, down]
    exact ⟨place_within positive column, place_within positive row⟩
  case covered =>
    intro x y inWidth inHeight
    rw [across] at inWidth
    rw [down] at inHeight
    obtain ⟨column, inColumn⟩ := exists_place positive inWidth.1 inWidth.2
    obtain ⟨row, inRow⟩ := exists_place positive inHeight.1 inHeight.2
    exact ⟨column, row, inColumn, inRow, screen.covered_iff positive inColumn inRow⟩

end ChipEight
