import ChipEight.Proofs.Machine.Calls
import ChipEight.Proofs.Machine.Footprint

/-!
# What memory holds

Memory begins as the image of a program, and only two words store.  `execute_stores` says what every
byte is after one word.  A run keeps the words that it carries out, each with the machine that met
it, and the last of them that stores at an address is the one that says what stands there.
-/

namespace ChipEight

/-- A word that is carried out, with the machine that meets it. -/
structure Execution where
  machine : Machine
  word : Opcode

namespace Opcode

/-- The words that store three digits. -/
def StoresDigits (op : Opcode) : Prop :=
  op.kind = 0xF ∧ op.byte = 0x33

/-- The words that store registers. -/
def StoresRegisters (op : Opcode) : Prop :=
  op.kind = 0xF ∧ op.byte = 0x55

instance : DecidablePred StoresDigits := fun _ => inferInstanceAs (Decidable (_ ∧ _))

instance : DecidablePred StoresRegisters := fun _ => inferInstanceAs (Decidable (_ ∧ _))

end Opcode

namespace Execution

/-- What a word stores at a distance from the index: the digits of its register, or the registers up
to it. -/
def stored? (execution : Execution) (offset : Nat) : Option Int :=
  let value := execution.machine.register execution.word.x
  if execution.word.StoresDigits then
    [value / 100, value / 10 % 10, value % 10][offset]?
  else if execution.word.StoresRegisters ∧ offset ≤ execution.word.x.val then
    some (execution.machine.register (Fin.ofNat 16 offset))
  else
    none

/-- What a word stores at an address. -/
def value? (execution : Execution) (address : Address) : Option Int :=
  if execution.machine.index ≤ address.val then
    execution.stored? (address.val - execution.machine.index).toNat
  else
    none

end Execution

/-- The byte that stands at an address when a program was loaded.  A program that does not fit is
not loaded. -/
def imageByte (program : List Byte) (address : Address) : Byte :=
  if address.val < 0x200 then
    font[address.val]?.getD 0
  else if program.length ≤ 0xE00 then
    program[address.val - 0x200]?.getD 0
  else
    0

/-- The requests that write memory from outside. -/
def Operation.Reloads : Operation → Prop
  | .reset => True
  | .load _ => True
  | _ => False

namespace Machine

/-- The byte at an address. -/
def byteAt (machine : Machine) (address : Address) : Byte :=
  machine.memory.cells.get address

/-- The word that a request carries out, with the machine that meets it. -/
def executed? (machine : Machine) (operation : Operation) : Option Execution :=
  (machine.carriesOut? operation).map fun entry => ⟨machine, entry.word⟩

/-- The words that some requests carry out, in order. -/
def executions (machine : Machine) : List Operation → List Execution
  | [] => []
  | operation :: operations =>
      (machine.executed? operation).toList ++
        (machine.apply operation).state.executions operations

variable {machine : Machine}

/-! ## Blocks of bytes -/

/-- What is stored of a block of bytes is the block itself. -/
theorem getElem?_bytesOf {block : List Int} (bytes : ∀ value ∈ block, IsByte value)
    (offset : Nat) :
    (bytesOf block)[offset]?.map (fun byte => (byte.toNat : Int)) = block[offset]? := by
  rw [← List.getElem?_map, bytesOf_toNat bytes]

/-- Bytes that are written from the index on stand there, and the rest of memory stays. -/
theorem byteAt_written (nonneg : 0 ≤ machine.index) {block : List Int}
    (bytes : ∀ value ∈ block, IsByte value) (address : Address) :
    (((machine.written block).byteAt address).toNat : Int) =
      (if machine.index ≤ address.val then block[(address.val - machine.index).toNat]?
        else none).getD (machine.byteAt address).toNat := by
  have length : (bytesOf block).length = block.length := List.length_map _
  have offset : (address.val - machine.index).toNat = address.val - machine.index.toNat := by omega
  have cell := getElem_overlay machine.memory.cells machine.index.toNat (bytesOf block)
    address.val address.isLt
  by_cases behind : machine.index ≤ address.val
  · rw [if_pos behind, offset, ← getElem?_bytesOf bytes]
    by_cases covered : address.val - machine.index.toNat < (bytesOf block).length
    · rw [dif_pos (by omega)] at cell
      rw [List.getElem?_eq_getElem covered]
      exact congrArg (fun byte => (byte.toNat : Int)) cell
    · rw [dif_neg (by omega)] at cell
      rw [List.getElem?_eq_none (by omega)]
      exact congrArg (fun byte => (byte.toNat : Int)) cell
  · rw [dif_neg (by omega)] at cell
    rw [if_neg behind]
    exact congrArg (fun byte => (byte.toNat : Int)) cell

/-! ## One word -/

section Word

variable {word : Opcode}

theorem ofOpcode?_of_storesDigits (stores : word.StoresDigits) :
    Instruction.ofOpcode? word = some (.storeDecimal word.x) := by
  simp [Instruction.ofOpcode?, Instruction.ofTransfer?, stores.1, stores.2]

theorem ofOpcode?_of_storesRegisters (stores : word.StoresRegisters) :
    Instruction.ofOpcode? word = some (.storeRegisters word.x) := by
  simp [Instruction.ofOpcode?, Instruction.ofTransfer?, stores.1, stores.2]

theorem stored?_digits (stores : word.StoresDigits) (offset : Nat) :
    (Execution.mk machine word).stored? offset =
      (decimalDigits (machine.register word.x))[offset]? := by
  rw [Execution.stored?, if_pos stores, decimalDigits]

theorem stored?_registers (stores : word.StoresRegisters) (offset : Nat) :
    (Execution.mk machine word).stored? offset =
      (machine.registers.toList.take (word.x.val + 1))[offset]? := by
  have other : ¬ word.StoresDigits := by
    intro digits
    exact absurd (digits.2.symm.trans stores.2) (by decide)
  rw [Execution.stored?, if_neg other]
  by_cases below : offset ≤ word.x.val
  · have inside : offset < 16 := by omega
    have same : Fin.ofNat 16 offset = ⟨offset, inside⟩ := Fin.ext (Nat.mod_eq_of_lt inside)
    rw [if_pos ⟨stores, below⟩, List.getElem?_take_of_lt (by omega), same]
    simp [register, inside]
  · rw [if_neg (by simp [below]), List.getElem?_eq_none]
    simp only [List.length_take, Vector.length_toList]
    omega

theorem stored?_other (digits : ¬ word.StoresDigits) (registers : ¬ word.StoresRegisters)
    (offset : Nat) : (Execution.mk machine word).stored? offset = none := by
  rw [Execution.stored?, if_neg digits, if_neg (by simp [registers])]

theorem value?_of_stored {block : List Int}
    (stored : ∀ offset, (Execution.mk machine word).stored? offset = block[offset]?)
    (address : Address) :
    (Execution.mk machine word).value? address =
      if machine.index ≤ address.val then block[(address.val - machine.index).toNat]?
      else none := by
  rw [Execution.value?]
  simp only [stored]

/-- Only the two words that store write memory, and only if they do not fault. -/
theorem execute_memory (valid : machine.WellFormed)
    (idle : ¬ ((machine.execute word).answer = .ok () ∧
      (word.StoresDigits ∨ word.StoresRegisters))) :
    (machine.execute word).state.memory = machine.memory := by
  by_cases carriedOut : (machine.execute word).answer = .ok ()
  · have kept : ¬ word.Reaches .memory := by
      rintro ⟨kind, digits | registers⟩
      · exact idle ⟨carriedOut, Or.inl ⟨kind, digits⟩⟩
      · exact idle ⟨carriedOut, Or.inr ⟨kind, registers⟩⟩
    exact execute_keeps carriedOut kept
  · rw [execute_refused valid carriedOut]
    rfl

/-- What a word that is carried out does to a byte. -/
theorem execute_stores (valid : machine.WellFormed)
    (carriedOut : (machine.execute word).answer = .ok ()) (address : Address) :
    (((machine.execute word).state.byteAt address).toNat : Int) =
      ((Execution.mk machine word).value? address).getD (machine.byteAt address).toNat := by
  have begun := valid.fetched word
  by_cases digits : word.StoresDigits
  · have performed := perform_of_answer (ofOpcode?_of_storesDigits digits) carriedOut
    rw [perform_storeDecimal begun] at performed
    rw [eq_of_guarded_ok performed, value?_of_stored (stored?_digits digits)]
    exact byteAt_written begun.index_nonneg (decimalDigits_isByte (valid.registers word.x)) address
  · by_cases registers : word.StoresRegisters
    · have performed := perform_of_answer (ofOpcode?_of_storesRegisters registers) carriedOut
      rw [perform_storeRegisters begun] at performed
      rw [eq_of_guarded_ok performed, value?_of_stored (stored?_registers registers)]
      have bytes : ∀ value ∈ machine.registers.toList.take (word.x.val + 1), IsByte value :=
        fun value member => register_values valid value (List.mem_of_mem_take member)
      exact byteAt_written begun.index_nonneg bytes address
    · have same := execute_memory valid fun stores => stores.2.elim digits registers
      have none : (Execution.mk machine word).value? address = none := by
        simp [Execution.value?, stored?_other digits registers]
      rw [none, byteAt, same]
      rfl

end Word

/-! ## Runs -/

section Runs

variable {operation : Operation}

theorem memory_of_not_executes (idle : machine.executes? operation = none)
    (kept : ¬ operation.Reloads) : (machine.apply operation).state.memory = machine.memory := by
  cases operation with
  | execute word => cases idle
  | reset | load program => exact absurd trivial kept
  | cycle => simp only [apply, cycle_of_not_executes idle]
  | tickTimers => rfl
  | endWait index =>
      simp only [apply, endWait]
      split <;> rfl
  | setKey index pressed =>
      simp only [apply, setKeyAt]
      cases Key.ofIndex index <;> rfl
  | setShiftMode usesVy => rfl
  | draw x y sprite => rfl

theorem apply_stores (valid : machine.WellFormed) (kept : ¬ operation.Reloads)
    (address : Address) :
    (((machine.apply operation).state.byteAt address).toNat : Int) =
      ((machine.executed? operation).bind (·.value? address)).getD
        ((machine.byteAt address).toNat : Int) := by
  cases executes : machine.executes? operation with
  | none =>
      simp [executed?, carriesOut?, executes, byteAt, memory_of_not_executes executes kept]
  | some word =>
      have reached := (apply_of_executes executes).1
      by_cases carried : (machine.execute word).answer = .ok ()
      · have answered := (apply_isOk_iff executes).mpr carried
        rw [reached, execute_stores valid carried]
        simp [executed?, carriesOut?, executes, answered]
      · have answered := mt (apply_isOk_iff executes).mp carried
        rw [reached, execute_refused valid carried]
        simp only [executed?, carriesOut?, answered]
        rfl

/-- The last word of a run that stores at an address says what stands there. -/
theorem byteAt_after (valid : machine.WellFormed) {operations : List Operation}
    (unloaded : ∀ operation ∈ operations, ¬ operation.Reloads) (address : Address) :
    (((machine.after operations).byteAt address).toNat : Int) =
      ((machine.executions operations).reverse.findSome? (·.value? address)).getD
        ((machine.byteAt address).toNat : Int) := by
  induction operations generalizing machine with
  | nil => rfl
  | cons operation operations inductionHypothesis =>
      obtain ⟨kept, later⟩ := List.forall_mem_cons.mp unloaded
      have rest := inductionHypothesis (valid.apply operation) later
      rw [apply_stores valid kept] at rest
      have first : (machine.executed? operation).toList.reverse.findSome? (·.value? address) =
          (machine.executed? operation).bind (·.value? address) := by
        cases machine.executed? operation <;> simp
      rw [executions, List.reverse_append, List.findSome?_append, first, Option.getD_or]
      exact rest

theorem executions_wellFormed (valid : machine.WellFormed) {operations : List Operation} :
    ∀ execution ∈ machine.executions operations, execution.machine.WellFormed := by
  induction operations generalizing machine with
  | nil => exact fun _ member => absurd member List.not_mem_nil
  | cons operation operations inductionHypothesis =>
      intro execution member
      rcases List.mem_append.mp member with first | later
      · obtain ⟨entry, _, rfl⟩ := Option.map_eq_some_iff.mp (Option.mem_toList.mp first)
        exact valid
      · exact inductionHypothesis (valid.apply operation) execution later

end Runs

theorem digits_of_isByte {value : Int} (byte : IsByte value) :
    (0 ≤ value / 100 ∧ value / 100 ≤ 9) ∧ (0 ≤ value / 10 % 10 ∧ value / 10 % 10 ≤ 9) ∧
      (0 ≤ value % 10 ∧ value % 10 ≤ 9) ∧
      100 * (value / 100) + 10 * (value / 10 % 10) + value % 10 = value := by
  unfold IsByte at byte
  omega

/-! ## The image of a program -/

theorem initial_get (address : Address) :
    Memory.initial.cells.get address = font[address.val]?.getD 0 := by
  have cell := getElem_overlay (Vector.replicate memorySize 0) fontStart font address.val
    address.isLt
  refine cell.trans ?_
  simp only [fontStart, Vector.getElem_replicate, Nat.zero_le, true_and, Nat.zero_add, Nat.sub_zero]
  by_cases inside : address.val < font.length
  · rw [dif_pos inside, List.getElem?_eq_getElem inside, Option.getD_some]
  · rw [dif_neg inside, List.getElem?_eq_none (Nat.le_of_not_lt inside), Option.getD_none]

theorem initial_get_of_le {address : Address} (above : 0x200 ≤ address.val) :
    Memory.initial.cells.get address = 0 := by
  have beyond : font.length ≤ address.val := Nat.le_trans (by decide) above
  rw [initial_get, List.getElem?_eq_none beyond, Option.getD_none]

/-- What memory holds when a program was loaded: the font, the program, and zero elsewhere. -/
theorem byteAt_load_reset (machine : Machine) (program : List Byte) (address : Address) :
    (machine.reset.load program).state.byteAt address = imageByte program address := by
  rw [imageByte]
  by_cases fits : program.length ≤ 0xE00
  · have room : machine.reset.pc + program.length ≤ memorySize := by
      simp only [reset, powerOn, programStart, memorySize]
      omega
    have image : (machine.reset.load program).state.byteAt address =
        (overlay Memory.initial.cells 0x200 program).get address := by
      have inside : 0 ≤ machine.reset.pc ∧ machine.reset.pc + program.length ≤ memorySize :=
        ⟨by simp [reset, powerOn], room⟩
      rw [load, if_pos room]
      simp only [byteAt, Memory.replace, if_pos inside]
      rfl
    have cell := getElem_overlay Memory.initial.cells 0x200 program address.val address.isLt
    by_cases low : address.val < 0x200
    · rw [image, if_pos low, ← initial_get]
      exact cell.trans (dif_neg (by omega))
    · have above : 0x200 ≤ address.val := Nat.le_of_not_lt low
      rw [image, if_neg low, if_pos fits]
      by_cases covered : address.val - 0x200 < program.length
      · rw [List.getElem?_eq_getElem covered, Option.getD_some]
        exact cell.trans (dif_pos ⟨above, by omega⟩)
      · rw [List.getElem?_eq_none (Nat.le_of_not_lt covered), Option.getD_none,
          ← initial_get_of_le above]
        exact cell.trans (dif_neg (by omega))
  · have unloaded : (machine.reset.load program).state = machine.reset := by
      rw [load, if_neg]
      simp only [reset, powerOn, programStart, memorySize]
      omega
    have image : (machine.reset.load program).state.byteAt address =
        Memory.initial.cells.get address := by
      rw [unloaded]
      rfl
    by_cases low : address.val < 0x200
    · rw [image, if_pos low, initial_get]
    · rw [image, if_neg low, if_neg fits, initial_get_of_le (Nat.le_of_not_lt low)]

/-- Memory is the image of the program under the words that were carried out, and the last one that
stores at an address says what stands there: a decimal digit of the register that it names, or one
of the registers up to that one.  No other word writes memory, and none that faults. -/
theorem memory_is_image_under_stores (machine : Machine) (program : List Byte)
    (operations : List Operation) (unloaded : ∀ operation ∈ operations, ¬ operation.Reloads) :
    let loaded := (machine.reset.load program).state
    let reached := loaded.after operations
    let executions := loaded.executions operations
    reached.memory.surplus = [] ∧
    (∀ address : Address, ((reached.byteAt address).toNat : Int) =
      (executions.reverse.findSome? (·.value? address)).getD
        ((imageByte program address).toNat : Int)) ∧
    (∀ execution ∈ executions, execution.word.StoresDigits →
      ∃ hundreds tens units : Int,
        (0 ≤ hundreds ∧ hundreds ≤ 9) ∧ (0 ≤ tens ∧ tens ≤ 9) ∧ (0 ≤ units ∧ units ≤ 9) ∧
        100 * hundreds + 10 * tens + units = execution.machine.register execution.word.x ∧
        execution.stored? = fun offset => [hundreds, tens, units][offset]?) ∧
    ∀ word, ¬ ((reached.execute word).answer = .ok () ∧
        (word.StoresDigits ∨ word.StoresRegisters)) →
      (reached.execute word).state.memory = reached.memory := by
  intro loaded reached executions
  have begun : loaded.WellFormed := machine.reset_wellFormed.load program
  have valid : reached.WellFormed := begun.after operations
  refine ⟨valid.surplus, ?_, ?_, fun word => execute_memory valid⟩
  · intro address
    rw [← byteAt_load_reset machine program address]
    exact byteAt_after begun unloaded address
  · intro execution member stores
    have met := executions_wellFormed begun execution member
    obtain ⟨hundreds, tens, units, sum⟩ := digits_of_isByte (met.registers execution.word.x)
    refine ⟨_, _, _, hundreds, tens, units, sum, ?_⟩
    funext offset
    exact stored?_digits stores offset

/-- A program stores three digits over its own words and two registers over the last two digits. -/
theorem memory_is_image_under_stores_overlapping :
    let machine := powerOn (.whole 600) false (.ofScript [])
    let program : List Byte := [0x60, 0x7B, 0xA2, 0x0A, 0xF0, 0x33, 0xA2, 0x0B, 0xF1, 0x55]
    let operations : List Operation := [.cycle, .tickTimers, .cycle, .cycle, .setKey 3 true,
      .cycle, .endWait 5, .cycle, .cycle]
    let loaded := (machine.reset.load program).state
    let reached := loaded.after operations
    (∀ operation ∈ operations, ¬ operation.Reloads) ∧ (loaded.executions operations).length = 6 ∧
      ((reached.byteAt 0x209).toNat : Int) = 0x55 ∧ ((reached.byteAt 0x20A).toNat : Int) = 1 ∧
      ((reached.byteAt 0x20B).toNat : Int) = 123 ∧ ((reached.byteAt 0x20C).toNat : Int) = 0 := by
  intro machine program operations loaded reached
  have unloaded : ∀ operation ∈ operations, ¬ operation.Reloads := by
    simp [operations, Operation.Reloads]
  obtain ⟨_, bytes, _⟩ := memory_is_image_under_stores machine program operations unloaded
  rw [bytes, bytes, bytes, bytes]
  exact ⟨unloaded, by decide +kernel⟩

end Machine

end ChipEight
