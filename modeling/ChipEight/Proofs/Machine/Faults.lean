import ChipEight.Proofs.Machine.WellFormed

/-!
# When an instruction faults

`Machine.faultCause?` names the check at which an instruction stops, as a condition on the machine
before it.  On a well-formed machine that is all that can happen: `perform_performed` says that an
instruction either has such a cause, and then nothing is changed, or is carried out and leaves a
well-formed machine.  The instructions that can fault are given by equations `perform_*`, which say
what they do behind their check.
-/

namespace ChipEight.Machine

/-- The machine as a fault of the instruction that it executes leaves it. -/
def refusal (machine : Machine) (cause : FaultCause) : Interrupted :=
  ⟨machine, .faulted (machine.fault cause)⟩

/-- What an instruction works out behind a check. -/
def guarded {α : Type} (machine : Machine) (fault? : Option FaultCause) (value : α) :
    Except Interrupted α :=
  match fault? with
  | some cause => .error (machine.refusal cause)
  | none => .ok value

/-- The fault of an access of some length at the index, if it passes the end of memory. -/
def accessFault? (machine : Machine) (length : Nat) : Option FaultCause :=
  if memorySize < machine.index + length then some (.memoryAccess machine.index length) else none

/-- The fault of a test of the key in a register, if there is no such key. -/
def keyFault? (machine : Machine) (x : Register) : Option FaultCause :=
  if 16 ≤ machine.register x then some (.noSuchKey (machine.register x)) else none

/-- Why an instruction cannot be carried out. -/
def faultCause? (machine : Machine) : Instruction → Option FaultCause
  | .ret => if machine.depth.val = 0 then some .stackUnderflow else none
  | .call _ => if machine.depth.val = stackDepth then some .stackOverflow else none
  | .draw _ _ rows => machine.accessFault? rows.val
  | .skipIfPressed x => machine.keyFault? x
  | .skipUnlessPressed x => machine.keyFault? x
  | .storeDecimal _ => machine.accessFault? 3
  | .storeRegisters x => machine.accessFault? (x.val + 1)
  | .loadRegisters x => machine.accessFault? (x.val + 1)
  | _ => none

theorem guarded_bind {α β : Type} (machine : Machine) (fault? : Option FaultCause) (value : α)
    (next : α → β) :
    (machine.guarded fault? value >>= fun result => pure (next result)) =
      machine.guarded fault? (next value) := by
  cases fault? with
  | none => rfl
  | some cause => rfl

theorem index_add_le_of_accessFault {machine : Machine} {length : Nat}
    (within : machine.accessFault? length = none) : machine.index + length ≤ memorySize := by
  simp only [accessFault?, ite_eq_right_iff, reduceCtorEq, imp_false] at within
  omega

/-! ## The parts that can fail -/

theorem requireMemory_eq (machine : Machine) (length : Nat) :
    machine.requireMemory length = machine.guarded (machine.accessFault? length) () := by
  simp only [requireMemory, checkMemory, accessFault?, gt_iff_lt]
  by_cases beyond : (memorySize : Int) < machine.index + length
  · rw [if_pos beyond, if_pos beyond]
    rfl
  · rw [if_neg beyond, if_neg beyond]
    rfl

theorem drawSprite_eq (machine : Machine) (x y : Register) (rows : Nat) :
    machine.drawSprite x y rows =
      let drawn := machine.display.draw (machine.register x) (machine.register y)
        (machine.memory.between machine.index rows)
      machine.guarded (machine.accessFault? rows)
        ({ machine with display := drawn.1 }.setRegister flagRegister
          (if drawn.2 then 1 else 0)) := by
  rw [drawSprite, requireMemory_eq]
  exact guarded_bind machine _ () fun _ => _

/-- A block is refused or read whole: no byte of a block that reaches too far is read. -/
theorem fetchBlock_eq (machine : Machine) (nonneg : 0 ≤ machine.index) (length : Nat) :
    machine.fetchBlock length =
      machine.guarded (machine.accessFault? length)
        (slice machine.memory.cells machine.index.toNat length) := by
  rw [fetchBlock, requireMemory_eq, Memory.read, if_pos nonneg]
  exact guarded_bind machine _ () fun _ => _

/-- The bytes of a block of values. -/
def bytesOf (block : List Int) : List Byte :=
  block.map fun value => UInt8.ofNat value.toNat

/-- Values that are bytes pass unchanged through memory. -/
theorem bytesOf_toNat {block : List Int} (bytes : ∀ value ∈ block, IsByte value) :
    (bytesOf block).map (fun byte => (byte.toNat : Int)) = block := by
  induction block with
  | nil => rfl
  | cons value block inductionHypothesis =>
      obtain ⟨n, small, rfl⟩ := (bytes value (by simp)).exists_nat
      have rest := inductionHypothesis fun other member =>
        bytes other (List.mem_cons_of_mem _ member)
      have same : n % 2 ^ 8 = n := Nat.mod_eq_of_lt small
      simp only [bytesOf, List.map_cons, Int.toNat_natCast, UInt8.toNat_ofNat', same,
        List.cons.injEq, true_and] at rest ⊢
      exact rest

/-- The machine with bytes written from where the index points. -/
def written (machine : Machine) (block : List Int) : Machine :=
  { machine with
    memory := { machine.memory with
      cells := overlay machine.memory.cells machine.index.toNat (bytesOf block) } }

/-- A block is refused or stored whole: nothing is written before the check. -/
theorem store_eq (machine : Machine) (nonneg : 0 ≤ machine.index) {block : List Int}
    (bytes : ∀ value ∈ block, IsByte value) :
    machine.store block =
      machine.guarded (machine.accessFault? block.length) (machine.written block) := by
  rw [store, requireMemory_eq]
  cases within : machine.accessFault? block.length with
  | some cause => rfl
  | none =>
      have fits : machine.index.toNat + (bytesOf block).length ≤ memorySize := by
        have inside := index_add_le_of_accessFault within
        simp only [bytesOf, List.length_map]
        omega
      have stored := Memory.write_map_toNat machine.memory machine.index.toNat (bytesOf block) fits
      rw [bytesOf_toNat bytes, Int.toNat_of_nonneg nonneg] at stored
      simp only [guarded, bind, Except.bind, stored, written]

/-- Whether the key in a register is held down, where a register with no key names the one of its
lower four bits. -/
def holdsKey (machine : Machine) (x : Register) : Bool :=
  machine.keypad.isPressed (Fin.ofNat 16 (machine.register x).toNat)

theorem keyPressed_eq (machine : Machine) (x : Register) (nonneg : 0 ≤ machine.register x) :
    machine.orStay (machine.keyPressed (machine.register x)) =
      machine.guarded (machine.keyFault? x) (machine.holdsKey x) := by
  simp only [keyPressed, keyFault?]
  by_cases beyond : 16 ≤ machine.register x
  · rw [if_pos beyond, if_pos beyond]
    rfl
  · have named : 0 ≤ machine.register x ∧ machine.register x < 16 := ⟨nonneg, by omega⟩
    have key : (⟨(machine.register x).toNat, by omega⟩ : Key) =
        Fin.ofNat 16 (machine.register x).toNat :=
      Fin.ext (Nat.mod_eq_of_lt (by omega)).symm
    rw [if_neg beyond, if_neg beyond, Keypad.isPressedAt, Key.ofIndex, Key.ofIndex?, dif_pos named,
      key]
    rfl

/-! ## The instructions that can fault -/

/-- A return with no call pending is refused, and any other goes behind the last pending call. -/
theorem perform_ret (machine : Machine) :
    (machine.depth.val = 0 ∧ machine.perform .ret = .error (machine.refusal .stackUnderflow)) ∨
      ∃ slot : Fin stackDepth, machine.depth.val = slot.val + 1 ∧
        machine.perform .ret =
          .ok { machine with depth := slot.castSucc, pc := machine.stack[slot] + 2 } := by
  by_cases empty : machine.depth.val = 0
  · have bottom : machine.depth = ⟨0, by decide⟩ := Fin.ext empty
    refine Or.inl ⟨empty, ?_⟩
    simp only [perform, leave, bottom]
    rfl
  · have pending : machine.depth.val = machine.depth.val - 1 + 1 := by omega
    refine Or.inr ⟨⟨machine.depth.val - 1, by omega⟩, pending, ?_⟩
    simp only [perform, leave]
    split
    next empty' => simp [empty'] at empty
    next slot _ here =>
      have same : machine.depth.val - 1 = slot := by simp [here]
      simp only [same]
      rfl

/-- A call on a full stack is refused, and any other puts its own address on the stack. -/
theorem perform_call (machine : Machine) (target : Address) :
    (machine.depth.val = stackDepth ∧
        machine.perform (.call target) = .error (machine.refusal .stackOverflow)) ∨
      ∃ free : machine.depth.val < stackDepth,
        machine.perform (.call target) =
          .ok { machine with
            stack := machine.stack.set machine.depth.val machine.pc free
            depth := ⟨machine.depth.val + 1, Nat.succ_lt_succ free⟩
            pc := target.val } := by
  simp only [perform, enter]
  by_cases free : machine.depth.val < stackDepth
  · refine Or.inr ⟨free, ?_⟩
    rw [dif_pos free]
    rfl
  · refine Or.inl ⟨by omega, ?_⟩
    rw [dif_neg free]
    rfl

theorem perform_draw (machine : Machine) (x y : Register) (rows : Nibble) :
    machine.perform (.draw x y rows) =
      let drawn := machine.display.draw (machine.register x) (machine.register y)
        (machine.memory.between machine.index rows.val)
      machine.guarded (machine.accessFault? rows.val)
        ({ machine with display := drawn.1 }.setRegister flagRegister
          (if drawn.2 then 1 else 0)).advance := by
  simp only [perform, drawSprite_eq]
  exact guarded_bind machine _ _ advance

section WellFormed

variable {machine : Machine}

theorem perform_skipIfPressed (valid : machine.WellFormed) (x : Register) :
    machine.perform (.skipIfPressed x) =
      machine.guarded (machine.keyFault? x) (machine.skipIf (machine.holdsKey x)) := by
  simp only [perform, keyPressed_eq machine x (valid.registers x).1]
  exact guarded_bind machine _ _ machine.skipIf

theorem perform_skipUnlessPressed (valid : machine.WellFormed) (x : Register) :
    machine.perform (.skipUnlessPressed x) =
      machine.guarded (machine.keyFault? x) (machine.skipIf !machine.holdsKey x) := by
  simp only [perform, keyPressed_eq machine x (valid.registers x).1]
  exact guarded_bind machine _ _ fun pressed => machine.skipIf !pressed

theorem perform_storeDecimal (valid : machine.WellFormed) (x : Register) :
    machine.perform (.storeDecimal x) =
      machine.guarded (machine.accessFault? 3)
        (machine.written (decimalDigits (machine.register x))).advance := by
  have digits := decimalDigits_isByte (valid.registers x)
  simp only [perform, store_eq machine valid.index_nonneg digits]
  exact guarded_bind machine _ _ advance

theorem register_values (valid : machine.WellFormed) :
    ∀ value ∈ machine.registers.toList, IsByte value := by
  intro value member
  obtain ⟨position, inside, rfl⟩ := List.getElem_of_mem member
  rw [Vector.length_toList] at inside
  exact valid.registers ⟨position, inside⟩

theorem perform_storeRegisters (valid : machine.WellFormed) (x : Register) :
    machine.perform (.storeRegisters x) =
      machine.guarded (machine.accessFault? (x.val + 1))
        { machine.written (machine.registers.toList.take (x.val + 1)) with
          index := machine.index + (x.val + 1) }.advance := by
  have bytes : ∀ value ∈ machine.registers.toList.take (x.val + 1), IsByte value :=
    fun value member => register_values valid value (List.mem_of_mem_take member)
  have length : (machine.registers.toList.take (x.val + 1)).length = x.val + 1 := by
    rw [List.length_take, Vector.length_toList]
    omega
  simp only [perform, store_eq machine valid.index_nonneg bytes, length]
  exact guarded_bind machine _ _ fun (stored : Machine) =>
    { stored with index := machine.index + (x.val + 1) }.advance

theorem perform_loadRegisters (valid : machine.WellFormed) (x : Register) :
    machine.perform (.loadRegisters x) =
      machine.guarded (machine.accessFault? (x.val + 1))
        { machine with
          registers := overlay machine.registers 0
            ((slice machine.memory.cells machine.index.toNat (x.val + 1)).map
              fun (byte : Byte) => (byte.toNat : Int))
          index := machine.index + (x.val + 1) }.advance := by
  simp only [perform, fetchBlock_eq machine valid.index_nonneg]
  exact guarded_bind machine _ _ _

end WellFormed

/-! ## Whole instructions -/

/-- What can come of an instruction on a well-formed machine. -/
inductive Performed (machine : Machine) (instruction : Instruction) :
    Except Interrupted Machine → Prop
  | done {result : Machine} :
      machine.faultCause? instruction = none → result.WellFormed →
      Performed machine instruction (.ok result)
  | faulted {cause : FaultCause} :
      machine.faultCause? instruction = some cause →
      Performed machine instruction (.error (machine.refusal cause))

namespace Performed

variable {machine : Machine}

/-- An instruction that is one check and then a change of the state performs as its check says. -/
theorem ofGuarded {instruction : Instruction} {fault? : Option FaultCause} {result : Machine}
    (checked : machine.faultCause? instruction = fault?)
    (valid : fault? = none → result.WellFormed) :
    machine.Performed instruction (machine.guarded fault? result) := by
  cases fault? with
  | none => exact .done checked (valid rfl)
  | some cause => exact .faulted checked

theorem ret (valid : machine.WellFormed) : machine.Performed .ret (machine.perform .ret) := by
  rcases machine.perform_ret with ⟨empty, stopped⟩ | ⟨slot, pending, returned⟩
  · rw [stopped]
    exact .faulted (if_pos empty)
  · rw [returned]
    have behind := valid.stack slot
    exact .done (if_neg (by omega)) { valid with pc := by simp only; omega }

theorem call (valid : machine.WellFormed) (target : Address) :
    machine.Performed (.call target) (machine.perform (.call target)) := by
  rcases machine.perform_call target with ⟨full, stopped⟩ | ⟨free, called⟩
  · rw [stopped]
    exact .faulted (if_pos full)
  · rw [called]
    refine .done (if_neg (by omega)) { valid with pc := Int.natCast_nonneg _, stack := ?_ }
    intro slot
    simp only [Fin.getElem_fin, Vector.getElem_set]
    split
    · exact valid.pc
    · exact valid.stack slot

/-- The index may come to stand right behind the last address, but not further. -/
theorem indexBehind (valid : machine.WellFormed) {length : Nat}
    (within : machine.accessFault? length = none) :
    0 ≤ machine.index + length ∧ machine.index + length ≤ 0xFFFF := by
  have inside := index_add_le_of_accessFault within
  have nonneg := valid.index_nonneg
  simp only [memorySize] at inside
  constructor <;> omega

theorem storeRegisters (valid : machine.WellFormed) (x : Register) :
    machine.Performed (.storeRegisters x) (machine.perform (.storeRegisters x)) := by
  rw [perform_storeRegisters valid]
  refine ofGuarded rfl fun within => ?_
  have behind := indexBehind valid within
  exact ((valid.overlayMemory _).setIndex behind.1 behind.2).advance

theorem loadRegisters (valid : machine.WellFormed) (x : Register) :
    machine.Performed (.loadRegisters x) (machine.perform (.loadRegisters x)) := by
  rw [perform_loadRegisters valid]
  refine ofGuarded rfl fun within => ?_
  have behind := indexBehind valid within
  exact ((valid.loadBlock _).setIndex behind.1 behind.2).advance

end Performed

/-- An instruction faults if it has a cause to, and leaves a well-formed machine otherwise. -/
theorem perform_performed {machine : Machine} (valid : machine.WellFormed)
    (instruction : Instruction) :
    machine.Performed instruction (machine.perform instruction) := by
  cases instruction with
  | clearScreen => exact .done rfl (valid.setDisplay _).advance
  | ret => exact .ret valid
  | jump target => exact .done rfl (valid.jump (Int.natCast_nonneg _))
  | call target => exact .call valid target
  | skipIfByte x value => exact .done rfl (valid.skipIf _)
  | skipUnlessByte x value => exact .done rfl (valid.skipIf _)
  | skipIfEqual x y => exact .done rfl (valid.skipIf _)
  | loadByte x value => exact .done rfl (valid.setRegister x (IsByte.of_toNat value)).advance
  | addByte x value => exact .done rfl (valid.setRegister x (IsByte.mod _)).advance
  | arithmetic operation x y => exact .done rfl (valid.combine operation x y).advance
  | skipUnlessEqual x y => exact .done rfl (valid.skipIf _)
  | loadIndex target =>
      exact .done rfl (valid.setIndex (Int.natCast_nonneg _) (by omega)).advance
  | jumpOffset base =>
      have offset := (valid.registers 0).1
      exact .done rfl (valid.jump (by omega))
  | random x mask =>
      exact .done rfl ((valid.setRandom _).setRegister x (IsByte.of_toNat _)).advance
  | draw x y rows =>
      rw [perform_draw]
      have flag : ∀ collided : Bool, IsByte (if collided then 1 else 0) := by decide
      exact .ofGuarded rfl fun _ =>
        ((valid.setDisplay _).setRegister flagRegister (flag _)).advance
  | skipIfPressed x =>
      rw [perform_skipIfPressed valid]
      exact .ofGuarded rfl fun _ => valid.skipIf _
  | skipUnlessPressed x =>
      rw [perform_skipUnlessPressed valid]
      exact .ofGuarded rfl fun _ => valid.skipIf _
  | readDelay x => exact .done rfl (valid.setRegister x valid.delay).advance
  | awaitKey x => exact .done rfl (valid.await x)
  | setDelay x => exact .done rfl (valid.setDelay (valid.registers x)).advance
  | setSound x => exact .done rfl (valid.setSound (valid.registers x)).advance
  | addIndex x => exact .done rfl (valid.setIndex (by omega) (by omega)).advance
  | loadGlyph x =>
      obtain ⟨lower, upper⟩ := valid.registers x
      refine .done rfl (valid.setIndex ?_ ?_).advance <;> simp only [fontStart, glyphHeight] <;>
        omega
  | storeDecimal x =>
      rw [perform_storeDecimal valid]
      exact .ofGuarded rfl fun _ => (valid.overlayMemory _).advance
  | storeRegisters x => exact .storeRegisters valid x
  | loadRegisters x => exact .loadRegisters valid x

end ChipEight.Machine
