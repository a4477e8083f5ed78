/-!
# Nibbles

Registers, keys and the parts of an opcode are numbers of four bits.
-/

namespace ChipEight

/-- A number of four bits. -/
abbrev Nibble := Fin 16

/-- Numerals and remainders are read as nibbles by this fact. -/
instance nibble_neZero : @NeZero Nat Zero.ofOfNat0 16 := ⟨by decide⟩

end ChipEight
