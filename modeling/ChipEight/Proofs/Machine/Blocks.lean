import ChipEight.Proofs.Machine.Stores

/-!
# Blocks of registers

One word stores the registers up to one of them and another loads them, and both leave the index
behind the block.  As long as no word stores within the block its bytes stay what they are, so that
the registers come back, all of them or the first few: `stored_registers_come_back`.
-/

namespace ChipEight

theorem getElem_slice {α : Type} {size : Nat} (cells : Vector α size) (start length offset : Nat)
    (inside : start + offset < size) (taken : offset < (slice cells start length).length) :
    (slice cells start length)[offset] = cells[start + offset] := by
  simp [slice]

namespace Machine

/-- No word that some requests carry out stores from a first address to a last one. -/
def Spares (machine : Machine) (operations : List Operation) (first last : Int) : Prop :=
  ∀ execution ∈ machine.executions operations, ∀ address : Address,
    first ≤ address.val → address.val ≤ last → execution.value? address = none

/-- The address of a register within the block that begins at the index. -/
def place (machine : Machine) (x : Register) : Address :=
  Fin.ofNat 4096 (machine.index.toNat + x.val)

variable {machine : Machine} {x z : Register} {word : Opcode}

theorem accessFault?_block (machine : Machine) (x : Register) :
    machine.accessFault? (x.val + 1) =
      if 4096 < machine.index + x.val + 1 then some (.memoryAccess machine.index (x.val + 1))
      else none := by
  simp only [accessFault?, memorySize, Int.natCast_add, Int.natCast_one, Int.add_assoc]
  rfl

/-- What stands where no word stores stays there. -/
theorem byteAt_spared (valid : machine.WellFormed) {operations : List Operation}
    (unloaded : ∀ operation ∈ operations, ¬ operation.Reloads) {first last : Int}
    (spared : machine.Spares operations first last) {address : Address}
    (lower : first ≤ address.val) (upper : address.val ≤ last) :
    (((machine.after operations).byteAt address).toNat : Int) =
      (machine.byteAt address).toNat := by
  have unwritten : (machine.executions operations).reverse.findSome? (·.value? address) = none := by
    rw [List.findSome?_eq_none_iff]
    intro execution member
    exact spared execution (List.mem_reverse.mp member) address lower upper
  rw [byteAt_after valid unloaded, unwritten, Option.getD_none]

/-! ## Blocks beyond the end of memory -/

section Beyond

variable (beyond : 4096 < machine.index + x.val + 1)

include beyond

/-- A block that reaches beyond memory is refused whole, by its first address and its length. -/
theorem requireMemory_beyond :
    machine.requireMemory (x.val + 1) =
      .error (machine.refusal (.memoryAccess machine.index (x.val + 1))) := by
  rw [requireMemory_eq, accessFault?_block, if_pos beyond]
  rfl

theorem perform_storeRegisters_beyond :
    machine.perform (.storeRegisters x) =
      .error (machine.refusal (.memoryAccess machine.index (x.val + 1))) := by
  have length : (machine.registers.toList.take (x.val + 1)).length = x.val + 1 := by
    rw [List.length_take, Vector.length_toList]
    omega
  rw [perform, store, length, requireMemory_beyond beyond]
  rfl

theorem perform_loadRegisters_beyond :
    machine.perform (.loadRegisters x) =
      .error (machine.refusal (.memoryAccess machine.index (x.val + 1))) := by
  rw [perform, fetchBlock, requireMemory_beyond beyond]
  rfl

/-- A word that would move a block beyond the end of memory changes nothing. -/
theorem execute_beyond {instruction : Instruction}
    (decoded : Instruction.ofOpcode? word = some instruction)
    (moves : instruction = .storeRegisters x ∨ instruction = .loadRegisters x) :
    machine.execute word =
      ⟨machine.fetched word,
        .error (.faulted
          ⟨.memoryAccess machine.index (x.val + 1), some machine.pc, some word.toNat⟩),
        [.executing machine.pc word]⟩ := by
  have begun : 4096 < (machine.fetched word).index + x.val + 1 := beyond
  rcases moves with rfl | rfl
  · rw [execute_of_decoded machine decoded, perform_storeRegisters_beyond begun]
    rfl
  · rw [execute_of_decoded machine decoded, perform_loadRegisters_beyond begun]
    rfl

end Beyond

/-! ## Blocks within memory -/

section Within

variable (valid : machine.WellFormed) (fits : machine.index + x.val + 1 ≤ 4096)

include valid fits

theorem val_place (below : z ≤ x) : (machine.place z).val = machine.index.toNat + z.val := by
  have nonneg := valid.index_nonneg
  have order : z.val ≤ x.val := below
  have inside : machine.index.toNat + z.val < 4096 := by omega
  exact Nat.mod_eq_of_lt inside

theorem execute_storeRegisters
    (decoded : Instruction.ofOpcode? word = some (.storeRegisters x)) :
    (machine.execute word).answer = .ok () ∧
      (machine.execute word).state.index = machine.index + x.val + 1 := by
  have within : (machine.fetched word).accessFault? (x.val + 1) = none :=
    (accessFault?_block _ x).trans (if_neg (Int.not_lt.mpr fits))
  rw [execute_of_decoded machine decoded, perform_storeRegisters (valid.fetched word), within]
  exact ⟨rfl, (Int.add_assoc machine.index x.val 1).symm⟩

/-- A register that was stored stands at its place in the block. -/
theorem byteAt_execute_storeRegisters (stores : word.StoresRegisters) (named : word.x = x)
    (below : z ≤ x) :
    (((machine.execute word).state.byteAt (machine.place z)).toNat : Int) =
      machine.register z := by
  subst named
  have nonneg := valid.index_nonneg
  have placed := val_place valid fits below
  have behind : machine.index ≤ (machine.place z).val := by omega
  have offset : ((machine.place z).val - machine.index).toNat = z.val := by omega
  have inBlock : z.val < (machine.registers.toList.take (word.x.val + 1)).length := by
    have order : z.val ≤ word.x.val := below
    rw [List.length_take, Vector.length_toList]
    omega
  have stored : (Execution.mk machine word).stored? z.val = _ := stored?_registers stores z.val
  rw [List.getElem?_eq_getElem inBlock, List.getElem_take] at stored
  have carriedOut := execute_storeRegisters valid fits (ofOpcode?_of_storesRegisters stores)
  rw [execute_stores valid carriedOut.1, Execution.value?, if_pos behind, offset, stored]
  rfl

theorem length_block :
    (slice machine.memory.cells machine.index.toNat (x.val + 1)).length = x.val + 1 := by
  have nonneg := valid.index_nonneg
  simp only [slice, Array.length_toList, Array.size_extract, Vector.size_toArray, memorySize]
  omega

theorem getElem_block (below : z ≤ x)
    (taken : z.val < (slice machine.memory.cells machine.index.toNat (x.val + 1)).length) :
    (slice machine.memory.cells machine.index.toNat (x.val + 1))[z.val] =
      machine.byteAt (machine.place z) := by
  have placed := val_place valid fits below
  have inside : machine.index.toNat + z.val < 4096 := placed ▸ (machine.place z).isLt
  have same : machine.place z = ⟨machine.index.toNat + z.val, inside⟩ := Fin.ext placed
  rw [getElem_slice _ _ _ _ inside taken, same]
  rfl

theorem execute_loadRegisters
    (decoded : Instruction.ofOpcode? word = some (.loadRegisters x)) :
    (machine.execute word).answer = .ok () ∧
      (machine.execute word).state.index = machine.index + x.val + 1 ∧
      ∀ z, (machine.execute word).state.register z =
        if z ≤ x then ((machine.byteAt (machine.place z)).toNat : Int)
        else machine.register z := by
  have within : (machine.fetched word).accessFault? (x.val + 1) = none :=
    (accessFault?_block _ x).trans (if_neg (Int.not_lt.mpr fits))
  rw [execute_of_decoded machine decoded, perform_loadRegisters (valid.fetched word), within]
  refine ⟨rfl, (Int.add_assoc machine.index x.val 1).symm, fun z => ?_⟩
  have length := length_block valid fits
  have cell := getElem_overlay machine.registers 0
    ((slice machine.memory.cells machine.index.toNat (x.val + 1)).map
      fun (byte : Byte) => (byte.toNat : Int)) z.val z.isLt
  refine Eq.trans cell ?_
  by_cases below : z ≤ x
  · have order : z.val ≤ x.val := below
    rw [dif_pos (by rw [List.length_map]; omega), if_pos below, List.getElem_map]
    exact congrArg (fun byte : Byte => (byte.toNat : Int)) (getElem_block valid fits below _)
  · have order : ¬ z.val ≤ x.val := below
    rw [dif_neg (by rw [List.length_map]; omega), if_neg below]
    rfl

end Within

/-- The registers up to one of them are stored, and come back when some or all of them are loaded
from the same index, whatever was done in between, as long as no word stored within their block.
Both words leave the index behind the block.  A block that does not end within memory is neither
stored nor loaded. -/
theorem stored_registers_come_back (machine : Machine) (x : Register) :
    let stored := machine.execute (.ofByte 0xF x 0x55)
    (machine.WellFormed → machine.index + x.val + 1 ≤ 4096 →
      stored.answer = .ok () ∧ stored.state.index = machine.index + x.val + 1 ∧
      ∀ operations : List Operation, (∀ operation ∈ operations, ¬ operation.Reloads) →
        stored.state.Spares operations machine.index (machine.index + x.val) →
        let reached := stored.state.after operations
        reached.index = machine.index → ∀ y ≤ x,
          let loaded := reached.execute (.ofByte 0xF y 0x65)
          loaded.answer = .ok () ∧ loaded.state.index = machine.index + y.val + 1 ∧
            (∀ z ≤ y, loaded.state.register z = machine.register z) ∧
            ∀ z, y < z → loaded.state.register z = reached.register z) ∧
    (4096 < machine.index + x.val + 1 → ∀ low : Byte, low = 0x55 ∨ low = 0x65 →
      let word := Opcode.ofByte 0xF x low
      machine.execute word =
        ⟨{ machine with opcode := word },
          .error (.faulted
            ⟨.memoryAccess machine.index (x.val + 1), some machine.pc, some word.toNat⟩),
          [.executing machine.pc word]⟩) := by
  intro stored
  have storing (y : Register) :
      Instruction.ofOpcode? (.ofByte 0xF y 0x55) = some (.storeRegisters y) :=
    Instruction.ofOpcode?_word (.storeRegisters y)
  have loading (y : Register) :
      Instruction.ofOpcode? (.ofByte 0xF y 0x65) = some (.loadRegisters y) :=
    Instruction.ofOpcode?_word (.loadRegisters y)
  constructor
  · intro valid fits
    obtain ⟨answer, behind⟩ := execute_storeRegisters valid fits (storing x)
    refine ⟨answer, behind, ?_⟩
    intro operations unloaded spared reached back y within loaded
    have storedValid : stored.state.WellFormed := (execute_executed valid _).wellFormed valid
    have reachedValid : reached.WellFormed := storedValid.after operations
    have short : y.val ≤ x.val := within
    have loads : reached.index + y.val + 1 ≤ 4096 := by omega
    obtain ⟨loadAnswer, loadBehind, registers⟩ :=
      execute_loadRegisters reachedValid loads (loading y)
    refine ⟨loadAnswer, by rw [loadBehind, back], fun z below => ?_, fun z above => ?_⟩
    · have inBlock : z ≤ x := Nat.le_trans below within
      have order : z.val ≤ x.val := inBlock
      have nonneg := valid.index_nonneg
      have placed := val_place valid fits inBlock
      have place : reached.place z = machine.place z := by rw [place, place, back]
      have kept : ((reached.byteAt (machine.place z)).toNat : Int) =
          (stored.state.byteAt (machine.place z)).toNat :=
        byteAt_spared storedValid unloaded spared (by omega) (by omega)
      rw [registers, if_pos below, place, kept]
      exact byteAt_execute_storeRegisters valid fits
        ⟨Opcode.kind_ofByte _ _ _, Opcode.byte_ofByte _ _ _⟩ (Opcode.x_ofByte _ _ _) inBlock
    · have outside : ¬ z ≤ y := Fin.not_le.mpr above
      rw [registers, if_neg outside]
  · rintro beyond low (rfl | rfl) word
    · exact execute_beyond beyond (storing x) (Or.inl rfl)
    · exact execute_beyond beyond (loading x) (Or.inr rfl)

/-- Two registers are stored in the last two bytes of memory, lost, and loaded again.  Three do not
fit there. -/
theorem stored_registers_come_back_at_the_end :
    let fresh := ((powerOn (.whole 600) false (.ofScript [])).setRegister 0 200).setRegister 1 7
    let machine : Machine := { fresh with index := 4094 }
    let operations : List Operation :=
      [.execute 0x6001, .execute 0x6102, .execute 0xA300, .execute 0xF133, .tickTimers,
        .execute 0x00EE, .execute 0x62FF, .execute 0xAFFE]
    let reached := (machine.execute 0xF155).state.after operations
    let loaded := (reached.execute 0xF165).state
    machine.WellFormed ∧ (∀ operation ∈ operations, ¬ operation.Reloads) ∧
      (machine.execute 0xF155).state.Spares operations 4094 4095 ∧ reached.index = 4094 ∧
      reached.register 0 = 1 ∧ reached.register 1 = 2 ∧ loaded.register 0 = 200 ∧
      loaded.register 1 = 7 ∧ loaded.register 2 = 255 ∧ loaded.index = 4096 ∧
      (machine.execute 0xF255).state = { machine with opcode := 0xF255 } := by
  intro fresh machine operations reached loaded
  have valid : machine.WellFormed :=
    (((powerOn_wellFormed _ _ _).setRegister 0 (by decide)).setRegister 1 (by decide)).setIndex
      (by decide) (by decide)
  have unloaded : ∀ operation ∈ operations, ¬ operation.Reloads := by
    simp [operations, Operation.Reloads]
  have spared : (machine.execute 0xF155).state.Spares operations 4094 4095 := by
    have lastTwo : ∀ execution ∈ (machine.execute 0xF155).state.executions operations,
        execution.value? 4094 = none ∧ execution.value? 4095 = none := by
      decide +kernel
    intro execution member address lower upper
    obtain ⟨first, last⟩ := lastTwo execution member
    rcases (by omega : address.val = 4094 ∨ address.val = 4095) with here | here
    · rwa [show address = 4094 from Fin.ext here]
    · rwa [show address = 4095 from Fin.ext here]
  obtain ⟨back, zero, one, two⟩ : reached.index = 4094 ∧ reached.register 0 = 1 ∧
      reached.register 1 = 2 ∧ reached.register 2 = 255 := by
    decide +kernel
  obtain ⟨_, _, comeBack⟩ := (stored_registers_come_back machine 1).1 valid (by decide)
  obtain ⟨_, behind, within, above⟩ := comeBack operations unloaded spared back 1 (by decide)
  have refused := (stored_registers_come_back machine 2).2 (by decide) 0x55 (Or.inl rfl)
  -- The words as numbers, so that no two spellings of one machine have to be evaluated.
  have storeTwo : Opcode.ofByte 0xF 1 0x55 = 0xF155 := by decide
  have loadTwo : Opcode.ofByte 0xF 1 0x65 = 0xF165 := by decide
  have storeThree : Opcode.ofByte 0xF 2 0x55 = 0xF255 := by decide
  simp only [storeTwo, loadTwo] at behind within above
  simp only [storeThree] at refused
  exact ⟨valid, unloaded, spared, back, zero, one, within 0 (by decide), within 1 (by decide),
    (above 2 (by decide)).trans two, behind, by rw [refused]⟩

end Machine

end ChipEight
