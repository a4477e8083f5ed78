import ChipEight.Proofs.Instruction.Words
import ChipEight.Proofs.Machine.Control

/-!
# What instructions leave alone

An instruction has a footprint, the parts of the machine that it may change.  `perform_keeps` says
that all other parts stay as they are, on every machine, and `reaches_of_mem_footprint` tells a
footprint from the digits of a word.  `Framed` says the same of the control part, of the keypad and
of the settings.
-/

namespace ChipEight

/-- The parts of a machine that instructions work on. -/
inductive Part where
  | register (x : Register)
  | index
  | delay
  | sound
  | memory
  | display
  | random
  deriving DecidableEq

/-- Whether an operation leaves a carry, a borrow or a bit in the flag register. -/
def Alu.flags : Alu → Bool
  | .add | .subtract | .shiftRight | .subtractFrom | .shiftLeft => true
  | .copy | .or | .and | .xor => false

/-- The parts that an instruction may change. -/
def Instruction.footprint : Instruction → List Part
  | .clearScreen => [.display]
  | .loadByte x _ | .addByte x _ | .readDelay x => [.register x]
  | .arithmetic operation x _ =>
      if operation.flags then [.register x, .register flagRegister] else [.register x]
  | .random x _ => [.random, .register x]
  | .draw _ _ _ => [.display, .register flagRegister]
  | .loadIndex _ | .addIndex _ | .loadGlyph _ => [.index]
  | .setDelay _ => [.delay]
  | .setSound _ => [.sound]
  | .storeDecimal _ => [.memory]
  | .storeRegisters _ => [.memory, .index]
  | .loadRegisters x => .index :: ((List.finRange 16).filter (· ≤ x)).map .register
  | _ => []

namespace Opcode

/-- The words that may change a part. -/
def Reaches (op : Opcode) : Part → Prop
  | .register j =>
      (j = op.x ∧ (op.kind = 0x6 ∨ op.kind = 0x7 ∨ (op.kind = 0x8 ∧ (op.n ≤ 0x7 ∨ op.n = 0xE)) ∨
        op.kind = 0xC ∨ (op.kind = 0xF ∧ op.byte = 0x07))) ∨
      (j = flagRegister ∧
        ((op.kind = 0x8 ∧ ((0x4 ≤ op.n ∧ op.n ≤ 0x7) ∨ op.n = 0xE)) ∨ op.kind = 0xD)) ∨
      (j ≤ op.x ∧ op.kind = 0xF ∧ op.byte = 0x65)
  | .index =>
      op.kind = 0xA ∨
        (op.kind = 0xF ∧ (op.byte = 0x1E ∨ op.byte = 0x29 ∨ op.byte = 0x55 ∨ op.byte = 0x65))
  | .delay => op.kind = 0xF ∧ op.byte = 0x15
  | .sound => op.kind = 0xF ∧ op.byte = 0x18
  | .memory => op.kind = 0xF ∧ (op.byte = 0x33 ∨ op.byte = 0x55)
  | .display => op = 0x00E0 ∨ op.kind = 0xD
  | .random => op.kind = 0xC

/-- The words that do not lead to the one behind them. -/
def Redirects (op : Opcode) : Prop :=
  op.kind = 0x1 ∨ op.kind = 0x2 ∨ op.kind = 0xB ∨ op = 0x00EE ∨ (op.kind = 0xF ∧ op.byte = 0x0A)

/-- The words that can skip the one behind them. -/
def Skips (op : Opcode) : Prop :=
  op.kind = 0x3 ∨ op.kind = 0x4 ∨ (op.kind = 0x5 ∧ op.n = 0x0) ∨ (op.kind = 0x9 ∧ op.n = 0x0) ∨
    (op.kind = 0xE ∧ (op.byte = 0x9E ∨ op.byte = 0xA1))

end Opcode

/-! ## The digits of a word -/

section Digits

open Opcode

theorem Alu.nibble_implemented (operation : Alu) :
    operation.nibble ≤ 0x7 ∨ operation.nibble = 0xE := by
  cases operation <;> decide

theorem Alu.nibble_of_flags {operation : Alu} (flags : operation.flags = true) :
    (0x4 ≤ operation.nibble ∧ operation.nibble ≤ 0x7) ∨ operation.nibble = 0xE := by
  revert flags
  cases operation <;> decide

/-- A word may change what the instruction in it may change. -/
theorem Instruction.reaches_of_mem_footprint {instruction : Instruction} {part : Part}
    (member : part ∈ instruction.footprint) : instruction.word.Reaches part := by
  cases instruction with
  | arithmetic operation x y =>
      have implemented := operation.nibble_implemented
      have first : (word (.arithmetic operation x y)).Reaches (.register x) := by
        simp [word, Reaches, kind_ofNibbles, x_ofNibbles, n_ofNibbles, implemented]
      simp only [footprint] at member
      split at member
      next flags =>
        have last : (word (.arithmetic operation x y)).Reaches (.register flagRegister) := by
          simp [word, Reaches, kind_ofNibbles, n_ofNibbles, Alu.nibble_of_flags flags]
        rcases List.mem_cons.mp member with rfl | second
        · exact first
        · rwa [List.mem_singleton.mp second]
      next => rwa [List.mem_singleton.mp member]
  | loadRegisters x =>
      rcases List.mem_cons.mp member with rfl | below
      · simp [word, Reaches, kind_ofByte, byte_ofByte]
      · obtain ⟨j, inside, rfl⟩ := List.mem_map.mp below
        have le : j ≤ x := by simpa using inside
        simp [word, Reaches, kind_ofByte, byte_ofByte, x_ofByte, le]
  | random x mask | draw x y rows | storeRegisters x =>
      obtain rfl | rfl := by simpa [footprint] using member
      all_goals simp [word, Reaches, kind_ofByte, byte_ofByte, x_ofByte, kind_ofNibbles]
  | clearScreen | loadByte x value | addByte x value | readDelay x | loadIndex target | addIndex x
  | loadGlyph x | setDelay x | setSound x | storeDecimal x =>
      rw [List.mem_singleton.mp member]
      simp [word, Reaches, kind_ofByte, byte_ofByte, x_ofByte, kind_ofAddress]
  | _ => exact absurd member List.not_mem_nil

theorem Instruction.redirects_word {instruction : Instruction}
    (redirects : instruction.Redirects) : instruction.word.Redirects := by
  cases instruction with
  | ret | jump target | call target | jumpOffset base | awaitKey x =>
      simp [word, Opcode.Redirects, kind_ofAddress, kind_ofByte, byte_ofByte]
  | _ => exact absurd redirects id

theorem Instruction.skips_word {instruction : Instruction} (skips : instruction.Skips) :
    instruction.word.Skips := by
  cases instruction with
  | skipIfByte x value | skipUnlessByte x value | skipIfEqual x y | skipUnlessEqual x y
  | skipIfPressed x | skipUnlessPressed x =>
      simp [word, Opcode.Skips, kind_ofByte, byte_ofByte, kind_ofNibbles, n_ofNibbles]
  | _ => exact absurd skips id

end Digits

/-! ## Parts that stay -/

/-- Two machines have the same in one of their parts. -/
def Part.Same (part : Part) (machine done : Machine) : Prop :=
  match part with
  | .register x => done.register x = machine.register x
  | .index => done.index = machine.index
  | .delay => done.delay = machine.delay
  | .sound => done.sound = machine.sound
  | .memory => done.memory = machine.memory
  | .display => done.display = machine.display
  | .random => done.random = machine.random

namespace Part.Same

variable {part : Part} {machine middle done : Machine}

theorem refl (part : Part) (machine : Machine) : part.Same machine machine := by
  cases part <;> rfl

theorem trans (first : part.Same machine middle) (second : part.Same middle done) :
    part.Same machine done := by
  cases part <;> exact Eq.trans second first

theorem advance (same : part.Same machine done) : part.Same machine done.advance := by
  cases part <;> exact same

theorem skipIf (same : part.Same machine done) (condition : Bool) :
    part.Same machine (done.skipIf condition) := by
  cases part <;> exact same

/-- The record of the word that was executed last is no part. -/
theorem of_fetched {op : Opcode} (same : part.Same (machine.fetched op) done) :
    part.Same machine done := by
  cases part <;> exact same

theorem setRegister {x : Register} (other : part ≠ .register x) (value : Int) :
    part.Same machine (machine.setRegister x value) := by
  cases part with
  | register y =>
      have different : y ≠ x := fun equal => other (congrArg Part.register equal)
      exact (machine.register_setRegister x y value).trans (if_neg different)
  | _ => rfl

end Part.Same

theorem length_of_mapM_ok {α β ε : Type} {f : α → Except ε β} {values : List α} {results : List β}
    (done : values.mapM f = .ok results) : results.length = values.length := by
  induction values generalizing results with
  | nil =>
      cases done
      rfl
  | cons value values inductionHypothesis =>
      rw [List.mapM_cons] at done
      cases first : f value with
      | error error =>
          rw [first] at done
          cases done
      | ok result =>
          cases later : values.mapM f with
          | error error =>
              rw [first, later] at done
              cases done
          | ok rest =>
              rw [first, later] at done
              cases done
              exact congrArg Nat.succ (inductionHypothesis later)

namespace Machine

variable {machine done : Machine} {instruction : Instruction} {part : Part}

/-- An operation touches its register and, if it has a flag, the register of flags. -/
theorem combine_keeps (operation : Alu) (x y : Register)
    (kept : part ∉ (Instruction.arithmetic operation x y).footprint) :
    part.Same machine (machine.combine operation x y) := by
  cases operation with
  | copy | or | and | xor => exact .setRegister (List.ne_of_not_mem_cons kept) _
  | add | subtract | shiftRight | subtractFrom | shiftLeft =>
      obtain ⟨first, flag⟩ : part ≠ .register x ∧ part ≠ .register flagRegister := by
        simpa [Instruction.footprint, Alu.flags] using kept
      exact (Part.Same.setRegister first _).trans (.setRegister flag _)

theorem length_of_fetchBlock_ok {length : Nat} {block : List Byte}
    (fetched : machine.fetchBlock length = .ok block) : block.length ≤ length := by
  rw [fetchBlock, requireMemory_eq] at fetched
  cases access : machine.accessFault? length with
  | some cause =>
      rw [access] at fetched
      cases fetched
  | none =>
      rw [access] at fetched
      cases read : machine.memory.read machine.index length with
      | error error =>
          simp only [read] at fetched
          cases fetched
      | ok bytes =>
          simp only [read] at fetched
          cases fetched
          rw [Memory.read] at read
          split at read
          · cases read
            simp only [slice, Array.length_toList, Array.size_extract]
            omega
          · exact Nat.le_of_eq ((length_of_mapM_ok read).trans List.length_range)

/-- A block that is laid over the first registers leaves the later ones alone. -/
theorem register_overlay {block : List Int} {x y : Register} (short : block.length ≤ x.val + 1)
    (beyond : ¬ y ≤ x) :
    register { machine with registers := overlay machine.registers 0 block } y =
      machine.register y := by
  have behind : x.val < y.val := Nat.lt_of_not_le beyond
  have outside : ¬ (0 ≤ y.val ∧ y.val < 0 + block.length) := by omega
  exact (getElem_overlay machine.registers 0 block y.val y.isLt).trans (dif_neg outside)

/-- An instruction that is carried out leaves alone what is not in its footprint. -/
theorem perform_keeps (carriedOut : machine.perform instruction = .ok done)
    (kept : part ∉ instruction.footprint) : part.Same machine done := by
  cases instruction with
  | loadByte x value | addByte x value | readDelay x =>
      cases carriedOut
      exact (Part.Same.setRegister (List.ne_of_not_mem_cons kept) _).advance
  | arithmetic operation x y =>
      cases carriedOut
      exact (combine_keeps operation x y kept).advance
  | random x mask =>
      cases carriedOut
      have source := List.ne_of_not_mem_cons kept
      have first := List.ne_of_not_mem_cons (List.not_mem_of_not_mem_cons kept)
      have drawn : part.Same machine { machine with random := machine.random.advance } := by
        cases part with
        | random => exact absurd rfl source
        | _ => rfl
      exact (drawn.trans (.setRegister first _)).advance
  | draw x y rows =>
      rw [perform_draw] at carriedOut
      rw [eq_of_guarded_ok carriedOut]
      have shown := List.ne_of_not_mem_cons kept
      have flag := List.ne_of_not_mem_cons (List.not_mem_of_not_mem_cons kept)
      refine Part.Same.advance (.trans ?_ (.setRegister flag _))
      cases part with
      | display => exact absurd rfl shown
      | _ => rfl
  | clearScreen | loadIndex target | addIndex x | loadGlyph x | setDelay x | setSound x =>
      cases carriedOut
      cases part <;> first | rfl | exact absurd (List.mem_singleton_self _) kept
  | storeDecimal x | storeRegisters x =>
      obtain ⟨memory, rfl⟩ := exists_of_store_ok carriedOut
      cases part <;> first | rfl | exact absurd (by simp [Instruction.footprint]) kept
  | loadRegisters x =>
      obtain ⟨block, fetched, rfl⟩ := exists_of_bind_ok carriedOut
      cases part with
      | register y =>
          have beyond : ¬ y ≤ x := by simpa [Instruction.footprint] using kept
          have short := length_of_fetchBlock_ok fetched
          exact register_overlay (by rwa [List.length_map]) beyond
      | index => exact absurd List.mem_cons_self kept
      | _ => rfl
  | ret =>
      obtain ⟨slot, _, rfl⟩ := exists_of_ret_ok carriedOut
      cases part <;> rfl
  | call target =>
      obtain ⟨free, rfl⟩ := exists_of_call_ok carriedOut
      cases part <;> rfl
  | skipIfPressed x | skipUnlessPressed x =>
      obtain ⟨pressed, _, rfl⟩ := exists_of_bind_ok carriedOut
      exact (Part.Same.refl part machine).skipIf _
  | _ =>
      cases carriedOut
      cases part <;> rfl

/-! ## Carrying out a word -/

/-- A word that is carried out leaves alone what it does not reach. -/
theorem execute_keeps {op : Opcode} (carriedOut : (machine.execute op).answer = .ok ())
    (kept : ¬ op.Reaches part) : part.Same machine (machine.execute op).state := by
  cases decoded : Instruction.ofOpcode? op with
  | none =>
      rw [execute_of_unknown machine decoded]
      exact (Part.Same.refl part (machine.fetched op)).advance.of_fetched
  | some instruction =>
      have encoded := Instruction.ofOpcode?_eq_some_iff.mp decoded
      refine (perform_keeps (perform_of_answer decoded carriedOut) ?_).of_fetched
      intro member
      exact kept (encoded ▸ Instruction.reaches_of_mem_footprint member)

/-- What can have become of the control part of a machine that carried out a word, of its random
bytes and of its equipment. -/
structure Framed (machine : Machine) (op : Opcode) (done : Machine) : Prop where
  call : op.kind = 0x2 →
    done.depth.val = machine.depth.val + 1 ∧
      ∀ slot : Fin stackDepth, done.stack.get slot =
        if slot.val = machine.depth.val then machine.pc else machine.stack.get slot
  ret : op = 0x00EE → done.depth.val + 1 = machine.depth.val ∧ done.stack = machine.stack
  straight : op.kind ≠ 0x2 → op ≠ 0x00EE →
    done.depth = machine.depth ∧ done.stack = machine.stack
  awake : ¬ (op.kind = 0xF ∧ op.byte = 0x0A) →
    done.waiting = machine.waiting ∧ done.waitRegister = machine.waitRegister
  drawn : op.kind = 0xC → done.random = machine.random.advance
  equipment : done.equipment = machine.equipment
  onward : ¬ op.Redirects →
    done.pc = machine.pc + 2 ∨ (done.pc = machine.pc + 4 ∧ op.Skips)

section Word

variable {op : Opcode}

/-- A call writes one slot of the stack, the one above the pending ones. -/
theorem Steered.call_frame {target : Address} (steered : machine.Steered done (.call target)) :
    done.depth.val = machine.depth.val + 1 ∧
      ∀ slot : Fin stackDepth, done.stack.get slot =
        if slot.val = machine.depth.val then machine.pc else machine.stack.get slot := by
  cases steered with
  | onward onward _ => exact absurd trivial onward
  | skipped skips _ => exact absurd skips id
  | call free moved =>
      have pushed := congrArg Control.stack moved
      refine ⟨congrArg (fun control => control.depth.val) moved, fun slot => ?_⟩
      have same : done.stack.get slot =
          (machine.stack.set machine.depth.val machine.pc free).get slot :=
        congrArg (fun stack => stack.get slot) pushed
      rw [same]
      by_cases top : slot.val = machine.depth.val
      · rw [if_pos top]
        exact (Vector.getElem_set free slot.isLt).trans (if_pos top.symm)
      · rw [if_neg top]
        exact (Vector.getElem_set free slot.isLt).trans (if_neg fun equal => top equal.symm)

theorem Steered.ret_frame (steered : machine.Steered done .ret) :
    done.depth.val + 1 = machine.depth.val ∧ done.stack = machine.stack := by
  cases steered with
  | onward onward _ => exact absurd trivial onward
  | skipped skips _ => exact absurd skips id
  | ret pending moved =>
      refine ⟨?_, congrArg Control.stack moved⟩
      rw [show done.depth = _ from congrArg Control.depth moved]
      exact pending.symm

/-- What neither calls nor returns leaves the stack alone. -/
theorem Steered.straight_frame (steered : machine.Steered done instruction)
    (call : ∀ target, instruction ≠ .call target) (ret : instruction ≠ .ret) :
    done.depth = machine.depth ∧ done.stack = machine.stack := by
  cases steered with
  | call _ _ => exact absurd rfl (call _)
  | ret _ _ => exact absurd rfl ret
  | onward _ moved | skipped _ moved | jump moved | jumpOffset moved | awaitKey moved =>
      exact ⟨congrArg Control.depth moved, congrArg Control.stack moved⟩

theorem Steered.awake_frame (steered : machine.Steered done instruction)
    (awake : ∀ x, instruction ≠ .awaitKey x) :
    done.waiting = machine.waiting ∧ done.waitRegister = machine.waitRegister := by
  cases steered with
  | awaitKey _ => exact absurd rfl (awake _)
  | onward _ moved | skipped _ moved | jump moved | jumpOffset moved | call _ moved
  | ret _ moved =>
      exact ⟨congrArg Control.waiting moved, congrArg Control.waitRegister moved⟩

theorem Steered.onward_frame (steered : machine.Steered done instruction)
    (onward : ¬ instruction.Redirects) :
    done.pc = machine.pc + 2 ∨ (done.pc = machine.pc + 4 ∧ instruction.Skips) := by
  cases steered with
  | onward _ moved => exact Or.inl (congrArg Control.pc moved)
  | skipped skips moved => exact Or.inr ⟨congrArg Control.pc moved, skips⟩
  | jump _ | jumpOffset _ | call _ _ | ret _ _ | awaitKey _ => exact absurd trivial onward

theorem unknown_framed (machine : Machine) (unknown : Instruction.ofOpcode? op = none) :
    machine.Framed op (machine.fetched op).advance where
  call kind := by simp [Instruction.ofOpcode?, kind] at unknown
  ret word := by
    subst word
    cases unknown
  straight _ _ := ⟨rfl, rfl⟩
  awake _ := ⟨rfl, rfl⟩
  drawn kind := by simp [Instruction.ofOpcode?, kind] at unknown
  equipment := rfl
  onward _ := Or.inl rfl

/-- An instruction stays within its footprint, case by case. -/
theorem perform_framed (decoded : Instruction.ofOpcode? op = some instruction)
    (carriedOut : (machine.fetched op).perform instruction = .ok done) :
    machine.Framed op done := by
  have encoded := Instruction.ofOpcode?_eq_some_iff.mp decoded
  have steered := perform_steered carriedOut
  have decodes : ∀ other : Instruction, Instruction.ofOpcode? op = some other →
      instruction = other :=
    fun _ same => Option.some.inj (decoded.symm.trans same)
  constructor
  case call =>
    intro kind
    obtain rfl := decodes (.call op.address) (by simp [Instruction.ofOpcode?, kind])
    exact steered.call_frame
  case ret =>
    rintro rfl
    obtain rfl := decodes .ret rfl
    exact steered.ret_frame
  case straight =>
    intro call ret
    apply steered.straight_frame
    · rintro target rfl
      exact call (encoded ▸ Opcode.kind_ofAddress _ _)
    · rintro rfl
      exact ret encoded
  case awake =>
    intro awake
    apply steered.awake_frame
    rintro x rfl
    exact awake (encoded ▸ ⟨Opcode.kind_ofByte _ _ _, Opcode.byte_ofByte _ _ _⟩)
  case drawn =>
    intro kind
    obtain rfl := decodes (.random op.x op.byte) (by simp [Instruction.ofOpcode?, kind])
    cases carriedOut
    rfl
  case equipment =>
    have kept := (machine.fetched op).perform_leaves instruction
    rw [carriedOut] at kept
    exact kept.1
  case onward =>
    intro onward
    have goesOn : ¬ instruction.Redirects := by
      intro redirects
      exact onward (encoded ▸ Instruction.redirects_word redirects)
    rcases steered.onward_frame goesOn with next | ⟨behind, skips⟩
    · exact Or.inl next
    · exact Or.inr ⟨behind, encoded ▸ Instruction.skips_word skips⟩

end Word

/-- Carrying out a word changes only what the word names, on every machine.  A register changes only
as the operand of a word that loads it, as the flag, or in a block of registers that is loaded. -/
theorem execute_framed (machine : Machine) (op : Opcode)
    (carriedOut : (machine.execute op).answer = .ok ()) :
    let done := (machine.execute op).state
    (∀ part : Part, ¬ part.Same machine done → op.Reaches part) ∧ machine.Framed op done := by
  intro done
  constructor
  · intro part changed
    by_cases reaches : op.Reaches part
    · exact reaches
    · exact absurd (execute_keeps carriedOut reaches) changed
  · cases decoded : Instruction.ofOpcode? op with
    | none =>
        simp only [done, execute_of_unknown machine decoded]
        exact machine.unknown_framed decoded
    | some instruction =>
        exact perform_framed decoded (perform_of_answer decoded carriedOut)

/-- Three registers are loaded from a glyph. -/
theorem execute_framed_block :
    let machine : Machine :=
      { powerOn (.whole 600) false (.ofScript [0x5A]) with index := 5, delay := 9, depth := 2 }
    let done := (machine.execute 0xF265).state
    (machine.execute 0xF265).answer = .ok () ∧ done.register 1 = 0x60 ∧ done.register 2 = 0x20 ∧
      (∀ part : Part, ¬ part.Same machine done → Opcode.Reaches 0xF265 part) ∧
      machine.Framed 0xF265 done := by
  intro machine done
  have carriedOut : (machine.execute 0xF265).answer = .ok () := rfl
  have loaded : done.register 1 = 0x60 ∧ done.register 2 = 0x20 := by decide +kernel
  exact ⟨carriedOut, loaded.1, loaded.2, execute_framed machine 0xF265 carriedOut⟩

end Machine

end ChipEight
