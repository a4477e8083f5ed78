import ChipEight.Instruction

/-!
# Random bytes

The machine draws its random bytes from a script, which starts again after its last byte.  A run
is thereby a function of its inputs.
-/

namespace ChipEight

/-- A script of bytes and the number of bytes drawn from it so far. -/
structure ByteSource where
  script : List Byte
  drawn : Nat
  deriving DecidableEq

namespace ByteSource

/-- A script of which nothing has been drawn yet. -/
def ofScript (script : List Byte) : ByteSource :=
  ⟨script, 0⟩

/-- The byte that is drawn next.  An empty script answers zero. -/
def next (source : ByteSource) : Byte :=
  source.script[source.drawn % source.script.length]?.getD 0

/-- The source after its next byte was drawn. -/
def advance (source : ByteSource) : ByteSource :=
  { source with drawn := source.drawn + 1 }

end ByteSource

end ChipEight
