/-!
# Places

Registers, pixels and bytes of memory are also reached by a whole number that need not name one.  A
number below zero counts from the end of a sequence.  This module says which place of a sequence a
number names, and how it is worded that an access is refused.
-/

namespace ChipEight

inductive AccessError where
  | noSuchKey (index : Int)
  /-- The number lies beyond the ends of a sequence. -/
  | outOfRange
  /-- The number of what shall be written lies beyond the ends of a sequence. -/
  | outOfRangeToWrite
  /-- The number lies beyond the ends of memory. -/
  | outOfMemory
  /-- The number has no place in a signed word of 64 bits, which no sequence needs. -/
  | notRepresentable
  /-- The number that shall be written to memory is no byte. -/
  | notAByte
  deriving DecidableEq

def AccessError.message : AccessError → String
  | .noSuchKey index => "Invalid key index " ++ toString index
  | .outOfRange => "list index out of range"
  | .outOfRangeToWrite => "list assignment index out of range"
  | .outOfMemory => "bytearray index out of range"
  | .notRepresentable => "cannot fit 'int' into an index-sized integer"
  | .notAByte => "byte must be in range(0, 256)"

/-- An index into a sequence of some length, where a negative one counts from the end. -/
def indexFromEnd? (length : Nat) (index : Int) : Option (Fin length) :=
  if h : 0 ≤ index ∧ index < length then
    some ⟨index.toNat, by omega⟩
  else if h : index < 0 ∧ -(length : Int) ≤ index then
    some ⟨(length + index).toNat, by omega⟩
  else
    none

/-- Refuses a number that is too far from zero for a signed word of 64 bits. -/
def requireRepresentable (number : Int) : Except AccessError Unit :=
  if number < -0x8000000000000000 ∨ 0x8000000000000000 ≤ number then .error .notRepresentable
  else .ok ()

/-- The place in a sequence of some length that a number names, where a negative one counts from
the end.  `missing` is the error that there is none. -/
def placeInSequence (missing : AccessError) (length : Nat) (number : Int) :
    Except AccessError (Fin length) := do
  requireRepresentable number
  match indexFromEnd? length number with
  | some place => return place
  | none => throw missing

/-- The place before some member of a sequence that a bound of a block stands for.  A bound below
zero counts from the end, and one that lies outside is moved to the nearer end. -/
def placeOfBound (length : Nat) (bound : Int) : Nat :=
  if bound < 0 then (length + bound).toNat else min bound.toNat length

end ChipEight
