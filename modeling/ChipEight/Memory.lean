import ChipEight.Instruction
import ChipEight.Place

/-!
# Memory

The machine has 4096 bytes.  The digits of the font stand at its start and a program is loaded at
`0x200`.  Blocks of cells are read by `slice` and written by `overlay`; `getElem_overlay` says what
every cell holds after a write.  An address below zero, which no instruction makes, counts from the
end of memory.  What an instruction stores need not be a byte: it is written value by value, and
`write_map_toNat` says that bytes end up as by `overlay`.
-/

namespace ChipEight

/-- The number of bytes that have an address. -/
abbrev memorySize : Nat := 4096

/-- The address at which a program is loaded and starts. -/
def programStart : Nat := 0x200

/-- The first address that has no room for a whole instruction. -/
def programEnd : Nat := memorySize - 2

/-- The `length` cells from `start` on, or as many of them as there are. -/
def slice {α : Type} {size : Nat} (cells : Vector α size) (start length : Nat) : List α :=
  (cells.toArray.extract start (start + length)).toList

/-- The cells with a block of values written from `start` on.  What would fall outside is not
written. -/
def overlay {α : Type} {size : Nat} (cells : Vector α size) (start : Nat) :
    List α → Vector α size
  | [] => cells
  | value :: block => overlay (cells.setIfInBounds start value) (start + 1) block

/-- A write changes the cells under the block and no others. -/
theorem getElem_overlay {α : Type} {size : Nat} (cells : Vector α size) (start : Nat)
    (block : List α) (position : Nat) (inside : position < size) :
    (overlay cells start block)[position] =
      if h : start ≤ position ∧ position < start + block.length then
        block[position - start]
      else
        cells[position] := by
  induction block generalizing cells start with
  | nil =>
      have outside : ¬ (start ≤ position ∧ position < start + ([] : List α).length) := by
        simp only [List.length_nil]
        omega
      simp only [overlay, dif_neg outside]
  | cons value block inductionHypothesis =>
      simp only [overlay, inductionHypothesis, List.length_cons]
      by_cases first : start = position
      · subst first
        have later : ¬ (start + 1 ≤ start ∧ start < start + 1 + block.length) := by omega
        have here : start ≤ start ∧ start < start + (block.length + 1) := by omega
        rw [dif_neg later, dif_pos here]
        simp
      · by_cases covered : start + 1 ≤ position ∧ position < start + 1 + block.length
        · have here : start ≤ position ∧ position < start + (block.length + 1) := by omega
          rw [dif_pos covered, dif_pos here, List.getElem_cons]
          have past : ¬ position - start = 0 := by omega
          simp only [dif_neg past]
          congr 1
        · have here : ¬ (start ≤ position ∧ position < start + (block.length + 1)) := by omega
          rw [dif_neg covered, dif_neg here, Vector.getElem_setIfInBounds_ne inside first]

/-- The bytes of the machine.  A program that is loaded from below zero can push bytes beyond the
last address; they are the surplus, which only an address that counts from the end reaches. -/
structure Memory where
  cells : Vector Byte memorySize
  surplus : List Byte
  deriving DecidableEq

namespace Memory

def bytes (memory : Memory) : List Byte :=
  memory.cells.toList ++ memory.surplus

/-- The memory that holds some bytes in order. -/
def ofBytes (bytes : List Byte) : Memory :=
  let cells := bytes.toArray
  ⟨Vector.ofFn fun address => cells[address.val]?.getD 0, bytes.drop memorySize⟩

def size (memory : Memory) : Nat :=
  memorySize + memory.surplus.length

def get (memory : Memory) (place : Fin memory.size) : Byte :=
  if h : place.val < memorySize then
    memory.cells[place.val]
  else
    have inSurplus : place.val - memorySize < memory.surplus.length := by
      have := place.isLt
      simp only [size] at this
      omega
    memory.surplus[place.val - memorySize]

/-- The memory with one byte written. -/
def set (memory : Memory) (place : Fin memory.size) (byte : Byte) : Memory :=
  if h : place.val < memorySize then
    { memory with cells := memory.cells.set place.val byte h }
  else
    { memory with surplus := memory.surplus.set (place.val - memorySize) byte }

/-- The byte that a number names, where one below zero counts from the end. -/
def readByte (memory : Memory) (number : Int) : Except AccessError Byte :=
  (placeInSequence .outOfMemory memory.size number).map memory.get

/-- The bytes of a block that ends within memory, each reached by its own number. -/
def read (memory : Memory) (start : Int) (length : Nat) : Except AccessError (List Byte) :=
  if 0 ≤ start then
    .ok (slice memory.cells start.toNat length)
  else
    (List.range length).mapM fun (offset : Nat) => memory.readByte (start + (offset : Int))

/-- The byte of a value, or the error that it is none. -/
def byteOfValue (value : Int) : Except AccessError Byte :=
  if 0 ≤ value ∧ value < 256 then .ok (UInt8.ofNat value.toNat) else .error .notAByte

/-- Writes a value to the byte that a number names.  Whether the value is a byte is asked before
whether there is a byte of that number. -/
def writeByte (memory : Memory) (number value : Int) : Except AccessError Memory := do
  requireRepresentable number
  let byte ← byteOfValue value
  let place ← placeInSequence .outOfMemory memory.size number
  return memory.set place byte

/-- Writes values one after the other from a number on, up to the first that cannot be written. -/
def write (memory : Memory) (start : Int) : List Int → Memory × Except AccessError Unit
  | [] => (memory, .ok ())
  | value :: block =>
      match memory.writeByte start value with
      | .ok written => written.write (start + 1) block
      | .error error => (memory, .error error)

/-- Every byte is the byte of its own value. -/
theorem byteOfValue_toNat (byte : Byte) : byteOfValue (byte.toNat : Int) = .ok byte := by
  have small : byte.toNat < 256 := byte.toNat_lt
  have isByte : 0 ≤ (byte.toNat : Int) ∧ (byte.toNat : Int) < 256 := by omega
  simp only [byteOfValue, isByte, and_self, if_true, Int.toNat_natCast, UInt8.ofNat_toNat]

/-- A byte written within memory. -/
theorem writeByte_toNat (memory : Memory) (address : Nat) (inside : address < memorySize)
    (byte : Byte) :
    memory.writeByte (address : Int) (byte.toNat : Int) =
      .ok { memory with cells := memory.cells.set address byte inside } := by
  have representable : ¬ ((address : Int) < -0x8000000000000000 ∨
      0x8000000000000000 ≤ (address : Int)) := by
    simp only [memorySize] at inside
    omega
  have named : 0 ≤ (address : Int) ∧ (address : Int) < (memory.size : Nat) := by
    simp only [size]
    omega
  simp only [writeByte, placeInSequence, requireRepresentable, representable, if_false,
    byteOfValue_toNat, indexFromEnd?, named, and_self, dite_true, bind, Except.bind, pure,
    Except.pure, set, Int.toNat_natCast, inside]

/-- Bytes written within memory are laid over the cells there. -/
theorem write_map_toNat (memory : Memory) (start : Nat) (block : List Byte)
    (fits : start + block.length ≤ memorySize) :
    memory.write (start : Int) (block.map fun byte => (byte.toNat : Int)) =
      ({ memory with cells := overlay memory.cells start block }, .ok ()) := by
  induction block generalizing memory start with
  | nil => rfl
  | cons byte block inductionHypothesis =>
      rw [List.length_cons] at fits
      have inside : start < memorySize := by omega
      have later := inductionHypothesis { memory with cells := memory.cells.set start byte inside }
        (start + 1) (by omega)
      have same : memory.cells.setIfInBounds start byte = memory.cells.set start byte inside := by
        ext position bound
        rw [Vector.getElem_setIfInBounds, Vector.getElem_set]
      rw [List.map_cons, write, writeByte_toNat memory start inside byte, overlay, same]
      exact later

/-- The bytes between the bounds of a block that ends within memory.  If both bounds do not count
from the same end there are none. -/
def between (memory : Memory) (start : Int) (length : Nat) : List Byte :=
  if 0 ≤ start then
    slice memory.cells start.toNat length
  else
    let size := memory.bytes.length
    (memory.bytes.take (placeOfBound size (start + length))).drop (placeOfBound size start)

/-- The memory with a block in place of the bytes between its bounds.  If both bounds do not count
from the same end there are none, and what stands behind them makes room. -/
def replace (memory : Memory) (start : Int) (block : List Byte) : Memory :=
  if 0 ≤ start ∧ start + block.length ≤ memorySize then
    { memory with cells := overlay memory.cells start.toNat block }
  else
    let size := memory.bytes.length
    let first := placeOfBound size start
    let last := max first (placeOfBound size (start + block.length))
    ofBytes (memory.bytes.take first ++ block ++ memory.bytes.drop last)

end Memory

/-- The glyphs of the sixteen digits, five rows of four pixels each, in the upper nibbles. -/
def font : List Byte :=
  [0xF0, 0x90, 0x90, 0x90, 0xF0,
   0x20, 0x60, 0x20, 0x20, 0x70,
   0xF0, 0x10, 0xF0, 0x80, 0xF0,
   0xF0, 0x10, 0xF0, 0x10, 0xF0,
   0x90, 0x90, 0xF0, 0x10, 0x10,
   0xF0, 0x80, 0xF0, 0x10, 0xF0,
   0xF0, 0x80, 0xF0, 0x90, 0xF0,
   0xF0, 0x10, 0x20, 0x40, 0x40,
   0xF0, 0x90, 0xF0, 0x90, 0xF0,
   0xF0, 0x90, 0xF0, 0x10, 0xF0,
   0xF0, 0x90, 0xF0, 0x90, 0x90,
   0xE0, 0x90, 0xE0, 0x90, 0xE0,
   0xF0, 0x80, 0x80, 0x80, 0xF0,
   0xE0, 0x90, 0x90, 0x90, 0xE0,
   0xF0, 0x80, 0xF0, 0x80, 0xF0,
   0xF0, 0x80, 0xF0, 0x80, 0x80]

def fontStart : Nat := 0

def glyphHeight : Nat := 5

/-- Memory as it is at power-on: the font, and zero everywhere else. -/
def Memory.initial : Memory :=
  ⟨overlay (Vector.replicate memorySize 0) fontStart font, []⟩

end ChipEight
