import ChipEight.Instruction

/-!
# The screen

The screen has 32 rows of 64 pixels, each lit or dark; the pixel `(0, 0)` is the upper left one.
A sprite is a column of bytes.  Drawing toggles the pixels under its set bits and wraps around the
edges, and a collision is a lit pixel that some toggle finds.
-/

namespace ChipEight

/-- The horizontal position of a pixel. -/
abbrev Column := Fin 64

/-- The vertical position of a pixel. -/
abbrev Row := Fin 32

structure Screen where
  rows : Vector (Vector Bool 64) 32
  deriving DecidableEq

namespace Screen

def blank : Screen :=
  ⟨Vector.replicate 32 (Vector.replicate 64 false)⟩

def lit (screen : Screen) (x : Column) (y : Row) : Bool :=
  screen.rows[y][x]

/-- The screen with one pixel switched. -/
def toggle (screen : Screen) (x : Column) (y : Row) : Screen :=
  ⟨screen.rows.set y (screen.rows[y].set x (!screen.lit x y))⟩

/-- A toggle switches its own pixel and no other. -/
theorem lit_toggle (screen : Screen) (x p : Column) (y q : Row) :
    (screen.toggle x y).lit p q = (screen.lit p q ^^ (p = x ∧ q = y)) := by
  by_cases sameRow : q = y
  · subst sameRow
    by_cases sameColumn : p = x
    · subst sameColumn
      simp [toggle, lit]
    · have different : x.val ≠ p.val := fun equal => sameColumn (Fin.ext equal.symm)
      simp [toggle, lit, sameColumn, different]
  · have different : y.val ≠ q.val := fun equal => sameRow (Fin.ext equal.symm)
    simp [toggle, lit, sameRow, different]

/-- Toggles the pixels of a list in turn.  The flag says whether some toggle found its pixel
lit. -/
def toggleAll : Screen → List (Column × Row) → Screen × Bool
  | screen, [] => (screen, false)
  | screen, (x, y) :: pixels =>
      let (drawn, collision) := toggleAll (screen.toggle x y) pixels
      (drawn, screen.lit x y || collision)

end Screen

/-- The columns at which a byte has a set bit, the most significant one being column `0`. -/
def litColumns (byte : Byte) : List Nat :=
  (List.range 8).filter fun column => byte.toNat.testBit (7 - column)

/-- The cells of a sprite that are lit, as column and row, where the first byte stands in row
`top`. -/
def spriteCells (top : Nat) : List Byte → List (Nat × Nat)
  | [] => []
  | byte :: sprite => (litColumns byte).map (·, top) ++ spriteCells (top + 1) sprite

/-- A coordinate brought onto an axis from `0` to `last` by going around it. -/
def wrap (last : Nat) (coordinate : Int) : Fin (last + 1) :=
  Fin.ofNat (last + 1) (coordinate % ((last + 1 : Nat) : Int)).toNat

namespace Screen

/-- The pixels under a sprite whose upper left corner stands at `(x, y)`. -/
def pixelsUnder (x y : Int) (sprite : List Byte) : List (Column × Row) :=
  (spriteCells 0 sprite).map fun (column, row) =>
    (wrap 63 (x + (column : Int)), wrap 31 (y + (row : Int)))

/-- Draws a sprite with its upper left corner at `(x, y)`, and says whether it collided. -/
def draw (screen : Screen) (x y : Int) (sprite : List Byte) : Screen × Bool :=
  screen.toggleAll (pixelsUnder x y sprite)

end Screen

/-- A screen together with a mark that it may differ from what was last shown. -/
structure Display where
  screen : Screen
  dirty : Bool
  deriving DecidableEq

namespace Display

/-- A blank display that nobody has to show. -/
def initial : Display :=
  ⟨.blank, false⟩

def clear (_ : Display) : Display :=
  ⟨.blank, true⟩

/-- Draws a sprite and says whether it collided. -/
def draw (display : Display) (x y : Int) (sprite : List Byte) : Display × Bool :=
  let (screen, collision) := display.screen.draw x y sprite
  (⟨screen, true⟩, collision)

end Display

end ChipEight
