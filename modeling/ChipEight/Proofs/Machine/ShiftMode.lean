import ChipEight.Proofs.Machine.Calls

/-!
# Who sees the shift mode

The shift mode chooses the register whose value a shift works on, and nothing else asks for it.
`perform_inMode` says that an instruction does the same in both modes if it is no shift or if its
registers hold the same value, and also fails alike.  Two machines that differ in their mode then
stay alike for as long as every shift of the first one finds two equal registers.
-/

namespace ChipEight

/-- The words that shift, to the right or to the left. -/
def Opcode.Shifts (op : Opcode) : Prop :=
  op.kind = 0x8 ∧ (op.n = 0x6 ∨ op.n = 0xE)
  deriving Decidable

namespace Machine

/-- The machine in one of the two shift modes. -/
def inMode (machine : Machine) (usesVy : Bool) : Machine :=
  { machine with shiftUsesVy := usesVy }

/-- If an instruction shifts, its two registers hold the same value. -/
def EqualIfShifted (machine : Machine) : Instruction → Prop
  | .arithmetic .shiftRight x y => machine.register x = machine.register y
  | .arithmetic .shiftLeft x y => machine.register x = machine.register y
  | _ => True

/-! ## One instruction -/

section Instruction

variable {α : Type}

/-- What a failure leaves behind, in one of the two modes. -/
def failingInMode (usesVy : Bool) (result : Except Interrupted α) : Except Interrupted α :=
  result.mapError fun interrupted => ⟨interrupted.machine.inMode usesVy, interrupted.reason⟩

/-- What an instruction leaves behind, in one of the two modes. -/
def leavingInMode (usesVy : Bool) (result : Except Interrupted Machine) :
    Except Interrupted Machine :=
  (failingInMode usesVy result).map (inMode · usesVy)

variable (machine : Machine) (usesVy : Bool)

theorem orStay_inMode (result : Except Interruption α) :
    (machine.inMode usesVy).orStay result = failingInMode usesVy (machine.orStay result) := by
  cases result <;> rfl

theorem requireMemory_inMode (length : Nat) :
    (machine.inMode usesVy).requireMemory length =
      failingInMode usesVy (machine.requireMemory length) :=
  machine.orStay_inMode usesVy ((machine.checkMemory machine.index length).mapError .faulted)

/-- What follows a part that can fail leaves the same behind if it does so by itself. -/
theorem bind_inMode {result : Except Interrupted α} {next other : α → Except Interrupted Machine}
    (alike : ∀ value, other value = leavingInMode usesVy (next value)) :
    failingInMode usesVy result >>= other = leavingInMode usesVy (result >>= next) := by
  cases result with
  | ok value => exact alike value
  | error interrupted => rfl

theorem store_inMode (block : List Int) :
    (machine.inMode usesVy).store block = leavingInMode usesVy (machine.store block) := by
  rw [store, store, requireMemory_inMode]
  refine bind_inMode usesVy fun _ => ?_
  have written : (machine.inMode usesVy).memory.write (machine.inMode usesVy).index block =
      machine.memory.write machine.index block := rfl
  rw [written]
  rcases machine.memory.write machine.index block with ⟨memory, _ | _⟩ <;> rfl

/-- A store leaves the same behind whichever part of the instruction fails. -/
theorem store_bind_inMode (block : List Int) {next : Machine → Machine}
    (alike : ∀ stored, next (inMode stored usesVy) = (next stored).inMode usesVy) :
    ((machine.inMode usesVy).store block >>= fun stored => pure (next stored)) =
      leavingInMode usesVy (machine.store block >>= fun stored => pure (next stored)) := by
  rw [store_inMode]
  cases machine.store block with
  | ok stored => exact congrArg Except.ok (alike stored)
  | error interrupted => rfl

theorem combine_inMode {operation : Alu} {x y : Register}
    (equal : machine.EqualIfShifted (.arithmetic operation x y)) :
    (machine.inMode usesVy).combine operation x y =
      (machine.combine operation x y).inMode usesVy := by
  cases operation with
  | shiftRight | shiftLeft =>
      have same : machine.register x = machine.register y := equal
      have registers : ∀ z, (machine.inMode usesVy).register z = machine.register z := fun _ => rfl
      simp only [combine, registers, same, ite_self]
      rfl
  | _ => rfl

/-- An instruction does the same in both modes, unless it shifts and its registers differ. -/
theorem perform_inMode {instruction : Instruction} (equal : machine.EqualIfShifted instruction) :
    (machine.inMode usesVy).perform instruction =
      leavingInMode usesVy (machine.perform instruction) := by
  cases instruction with
  | ret =>
      refine (orStay_inMode machine usesVy _).trans ?_
      simp only [perform, leave, inMode]
      split <;> rfl
  | call target =>
      by_cases free : machine.depth.val < stackDepth
      · have alsoFree : (machine.inMode usesVy).depth.val < stackDepth := free
        simp only [perform, enter, dif_pos free, dif_pos alsoFree]
        rfl
      · have alsoFull : ¬ (machine.inMode usesVy).depth.val < stackDepth := free
        simp only [perform, enter, dif_neg free, dif_neg alsoFull]
        rfl
  | arithmetic operation x y =>
      simp only [perform, combine_inMode machine usesVy equal]
      rfl
  | draw x y rows =>
      simp only [perform, drawSprite, requireMemory_inMode, bind_assoc]
      exact bind_inMode usesVy fun _ => rfl
  | skipIfPressed x =>
      have asked := machine.orStay_inMode usesVy (machine.keyPressed (machine.register x))
      exact (congrArg (· >>= _) asked).trans (bind_inMode usesVy fun _ => rfl)
  | skipUnlessPressed x =>
      have asked := machine.orStay_inMode usesVy (machine.keyPressed (machine.register x))
      exact (congrArg (· >>= _) asked).trans (bind_inMode usesVy fun _ => rfl)
  | storeDecimal x => exact machine.store_bind_inMode usesVy _ fun _ => rfl
  | storeRegisters x => exact machine.store_bind_inMode usesVy _ fun _ => rfl
  | loadRegisters x =>
      simp only [perform, fetchBlock, requireMemory_inMode, bind_assoc]
      refine bind_inMode usesVy fun _ => ?_
      have read := machine.orStay_inMode usesVy
        ((machine.memory.read machine.index (x.val + 1)).mapError .strayed)
      exact (congrArg (· >>= _) read).trans (bind_inMode usesVy fun _ => rfl)
  | _ => rfl

end Instruction

/-! ## One word -/

theorem equalIfShifted_of_decoded {machine : Machine} {word : Opcode} {instruction : Instruction}
    (decoded : Instruction.ofOpcode? word = some instruction)
    (equal : word.Shifts → machine.register word.x = machine.register word.y) :
    machine.EqualIfShifted instruction := by
  have encoded := Instruction.ofOpcode?_eq_some_iff.mp decoded
  cases instruction with
  | arithmetic operation x y =>
      have first : word.x = x := encoded ▸ Opcode.x_ofNibbles _ _ _ _
      have second : word.y = y := encoded ▸ Opcode.y_ofNibbles _ _ _ _
      have kind : word.kind = 0x8 := encoded ▸ Opcode.kind_ofNibbles _ _ _ _
      have last : word.n = operation.nibble := encoded ▸ Opcode.n_ofNibbles _ _ _ _
      rw [first, second] at equal
      cases operation with
      | shiftRight => exact equal ⟨kind, Or.inl last⟩
      | shiftLeft => exact equal ⟨kind, Or.inr last⟩
      | _ => trivial
  | _ => trivial

theorem execute_inMode {machine : Machine} (usesVy : Bool) {word : Opcode}
    (equal : word.Shifts → machine.register word.x = machine.register word.y) :
    (machine.inMode usesVy).execute word =
      { machine.execute word with state := (machine.execute word).state.inMode usesVy } := by
  cases decoded : Instruction.ofOpcode? word with
  | none =>
      rw [execute_of_unknown _ decoded, execute_of_unknown _ decoded]
      rfl
  | some instruction =>
      have performed : ((machine.inMode usesVy).fetched word).perform instruction =
          leavingInMode usesVy ((machine.fetched word).perform instruction) :=
        (machine.fetched word).perform_inMode usesVy (equalIfShifted_of_decoded decoded equal)
      rw [execute_of_decoded _ decoded, execute_of_decoded _ decoded, performed]
      cases (machine.fetched word).perform instruction <;> rfl

theorem cycle_inMode {machine : Machine} (usesVy : Bool)
    (equal : ∀ word, machine.executes? .cycle = some word → word.Shifts →
      machine.register word.x = machine.register word.y) :
    (machine.inMode usesVy).cycle =
      { machine.cycle with state := machine.cycle.state.inMode usesVy } := by
  have next : (machine.inMode usesVy).nextWord = machine.nextWord := rfl
  rcases machine.cycle_cases with
    ended | ⟨room, waiting⟩ | ⟨below, awake⟩ | ⟨inside, room, awake⟩
  · have other : (machine.inMode usesVy).cycle = _ := cycle_of_ended ended
    rw [cycle_of_ended ended, other]
  · have other : (machine.inMode usesVy).cycle = _ := cycle_of_waiting room waiting
    rw [cycle_of_waiting room waiting, other]
  · have other : (machine.inMode usesVy).cycle = _ := cycle_of_below below awake
    rw [cycle_of_below below awake, other]
    rfl
  · have executed := execute_inMode usesVy (equal machine.nextWord (if_pos ⟨inside, room, awake⟩))
    have other : (machine.inMode usesVy).cycle = _ := cycle_of_executing inside room awake
    rw [cycle_of_executing inside room awake, other, next, executed]

/-! ## Requests -/

/-- Two machines are the same but for their shift mode. -/
def SameButMode (first second : Machine) : Prop :=
  second = first.inMode second.shiftUsesVy

/-- A request finds the same value in both registers if it shifts. -/
def EqualIfShifts (machine : Machine) (operation : Operation) : Prop :=
  ∀ word, machine.executes? operation = some word → word.Shifts →
    machine.register word.x = machine.register word.y

instance (machine : Machine) (operation : Operation) :
    Decidable (machine.EqualIfShifts operation) :=
  Option.decidableForallMem ..

/-- Each request finds the same value in both registers if it shifts, when its turn comes. -/
def EqualShifts (machine : Machine) : List Operation → Prop
  | [] => True
  | operation :: operations =>
      machine.EqualIfShifts operation ∧ (machine.apply operation).state.EqualShifts operations

instance decidableEqualShifts (machine : Machine) :
    (operations : List Operation) → Decidable (machine.EqualShifts operations)
  | [] => inferInstanceAs (Decidable True)
  | operation :: operations =>
      have := decidableEqualShifts (machine.apply operation).state operations
      inferInstanceAs (Decidable (_ ∧ _))

theorem equalShifts_append (machine : Machine) (earlier later : List Operation) :
    machine.EqualShifts (earlier ++ later) ↔
      machine.EqualShifts earlier ∧ (machine.after earlier).EqualShifts later := by
  induction earlier generalizing machine with
  | nil => exact (iff_of_eq (true_and _)).symm
  | cons operation earlier inductionHypothesis =>
      exact (and_congr_right' (inductionHypothesis _)).trans and_assoc.symm

theorem equalShifts_iff (machine : Machine) (operations : List Operation) :
    machine.EqualShifts operations ↔
      ∀ earlier operation later, operations = earlier ++ operation :: later →
        (machine.after earlier).EqualIfShifts operation := by
  constructor
  · rintro equal earlier operation later rfl
    exact ((machine.equalShifts_append _ _).mp equal).2.1
  · intro equal
    induction operations generalizing machine with
    | nil => exact trivial
    | cons operation operations inductionHypothesis =>
        refine ⟨equal [] operation operations rfl, inductionHypothesis _ ?_⟩
        rintro earlier next later rfl
        exact equal (operation :: earlier) next later rfl

/-- A request that finds equal registers if it shifts is answered alike in both modes. -/
theorem apply_sameButMode {first second : Machine} (same : first.SameButMode second)
    {operation : Operation} (equal : first.EqualIfShifts operation) :
    (second.apply operation).answer = (first.apply operation).answer ∧
      (second.apply operation).log = (first.apply operation).log ∧
      (first.apply operation).state.SameButMode (second.apply operation).state := by
  rw [SameButMode] at same
  generalize second.shiftUsesVy = usesVy at same
  subst same
  cases operation with
  | execute word =>
      have executed := execute_inMode usesVy (equal word rfl)
      rw [apply, apply, executed]
      exact ⟨rfl, rfl, rfl⟩
  | cycle =>
      have cycled := cycle_inMode usesVy equal
      rw [apply, apply, cycled]
      exact ⟨rfl, rfl, rfl⟩
  | load program =>
      rw [apply, apply, load, load]
      by_cases fits : first.pc + program.length ≤ memorySize
      · have alsoFits : (first.inMode usesVy).pc + program.length ≤ memorySize := fits
        rw [if_pos fits, if_pos alsoFits]
        exact ⟨rfl, rfl, rfl⟩
      · have alsoNot : ¬ (first.inMode usesVy).pc + program.length ≤ memorySize := fits
        rw [if_neg fits, if_neg alsoNot]
        exact ⟨rfl, rfl, rfl⟩
  | endWait index =>
      rw [apply, apply, endWait, endWait]
      by_cases waits : first.waiting = true
      · have alsoWaits : (first.inMode usesVy).waiting = true := waits
        rw [if_pos waits, if_pos alsoWaits]
        exact ⟨rfl, rfl, rfl⟩
      · have alsoNot : ¬ (first.inMode usesVy).waiting = true := waits
        rw [if_neg waits, if_neg alsoNot]
        exact ⟨rfl, rfl, rfl⟩
  | setKey index pressed =>
      rw [apply, apply, setKeyAt, setKeyAt]
      cases Key.ofIndex index <;> exact ⟨rfl, rfl, rfl⟩
  | tickTimers | reset | setShiftMode usesVy | draw x y sprite => exact ⟨rfl, rfl, rfl⟩

theorem after_sameButMode {first second : Machine} (same : first.SameButMode second)
    {operations : List Operation} (equal : first.EqualShifts operations) :
    (first.after operations).SameButMode (second.after operations) := by
  induction operations generalizing first second with
  | nil => exact same
  | cons operation operations inductionHypothesis =>
      exact inductionHypothesis (apply_sameButMode same equal.1).2.2 equal.2

/-- Two machines that differ in their shift mode alone give the same answers and reports and stay
alike in everything else, whatever they are asked to do, if each shift that the first one executes
finds the same value in its two registers. -/
theorem shift_mode_seen_by_shifts_alone (first : Machine) (usesVy : Bool)
    (operations : List Operation)
    (equal : ∀ earlier operation later, operations = earlier ++ operation :: later →
      ∀ word, (first.after earlier).executes? operation = some word →
        word.kind = 0x8 ∧ (word.n = 0x6 ∨ word.n = 0xE) →
          (first.after earlier).register word.x = (first.after earlier).register word.y) :
    let second : Machine := { first with shiftUsesVy := usesVy }
    ∀ earlier operation later, operations = earlier ++ operation :: later →
      let one := (first.after earlier).apply operation
      let other := (second.after earlier).apply operation
      other.answer = one.answer ∧ other.log = one.log ∧
        other.state = { one.state with shiftUsesVy := other.state.shiftUsesVy } := by
  rintro second earlier operation later rfl
  have whole : first.EqualShifts (earlier ++ operation :: later) :=
    (first.equalShifts_iff _).mpr equal
  obtain ⟨before, now, _⟩ := (first.equalShifts_append _ _).mp whole
  have start : first.SameButMode second := rfl
  exact apply_sameButMode (after_sameButMode start before) now

/-- The flag register is shifted when it equals the other register, and a fault ends the run. -/
theorem shift_mode_seen_by_shifts_alone_flag :
    let first := ((powerOn (.whole 600) false (.ofScript [])).setRegister 1 129).setRegister 15 129
    let second : Machine := { first with shiftUsesVy := true }
    let earlier : List Operation := [.execute 0x8F1E, .tickTimers]
    ((first.after earlier).apply (.execute 0xE19E)).answer.isOk = false ∧
      ((second.after earlier).apply (.execute 0xE19E)).answer.isOk = false := by
  intro first second earlier
  obtain ⟨equal, faults⟩ : first.EqualShifts (earlier ++ [.execute 0xE19E]) ∧
      ((first.after earlier).apply (.execute 0xE19E)).answer.isOk = false := by
    decide +kernel
  have alike := shift_mode_seen_by_shifts_alone first true (earlier ++ [.execute 0xE19E])
    ((first.equalShifts_iff _).mp equal) earlier (.execute 0xE19E) [] rfl
  exact ⟨faults, (congrArg Except.isOk alike.1).trans faults⟩

-- Registers that differ tell the modes apart.
example :
    let first := (powerOn (.whole 600) false (.ofScript [])).setRegister 1 4
    let second : Machine := { first with shiftUsesVy := true }
    (first.execute 0x8016).state.register 0 = 0 ∧
      (second.execute 0x8016).state.register 0 = 2 := by
  decide +kernel

end Machine

end ChipEight
