import ChipEight.Proofs.Instruction.Words
import ChipEight.Proofs.Machine.Histories

/-!
# Waiting for a key

While a program waits, timers tick and keys come and go, but cycles do nothing.  The machine that
waits is therefore followed together with one that loaded the key at once: `Loads` relates the two,
every request that may come meanwhile keeps them related, and the end of the wait makes them equal.
-/

namespace ChipEight

/-- The requests that may come while a program waits for a key. -/
def Operation.Passes : Operation → Prop
  | .cycle => True
  | .tickTimers => True
  | .setKey index _ => 0 ≤ index ∧ index < 16
  | _ => False

instance : DecidablePred Operation.Passes := fun operation => by
  cases operation <;> unfold Operation.Passes <;> infer_instance

/-- The requests other than cycles. -/
def withoutCycles (operations : List Operation) : List Operation :=
  operations.filter (· ≠ .cycle)

theorem withoutCycles_cycle (operations : List Operation) :
    withoutCycles (.cycle :: operations) = withoutCycles operations :=
  List.filter_cons_of_neg (by simp)

theorem withoutCycles_other {operation : Operation} (other : operation ≠ .cycle)
    (operations : List Operation) :
    withoutCycles (operation :: operations) = operation :: withoutCycles operations :=
  List.filter_cons_of_pos (by simpa using other)

namespace Machine

/-! ## The instruction that waits, and the one that loads -/

/-- The wait begins without a step forward, so the word stays the next one until the wait ends. -/
theorem execute_awaitKey (machine : Machine) {opcode : Opcode} {x : Register}
    (decoded : Instruction.ofOpcode? opcode = some (.awaitKey x)) :
    machine.execute opcode =
      ⟨{ machine with opcode := opcode, waiting := true, waitRegister := x }, .ok (),
        [.executing machine.pc opcode]⟩ := by
  rw [execute_of_decoded machine decoded]
  rfl

theorem execute_loadByte (machine : Machine) {opcode : Opcode} {x : Register} {value : Byte}
    (decoded : Instruction.ofOpcode? opcode = some (.loadByte x value)) :
    machine.execute opcode =
      ⟨{ machine.setRegister x value.toNat with
          opcode := opcode
          pc := machine.pc + 2 }, .ok (), [.executing machine.pc opcode]⟩ := by
  rw [execute_of_decoded machine decoded]
  rfl

theorem ofOpcode?_awaitKey {opcode : Opcode} {x : Register}
    (encoded : opcode.toNat = 0xF00A + 0x100 * x.val) :
    Instruction.ofOpcode? opcode = some (.awaitKey x) := by
  apply Instruction.ofOpcode?_eq_some_iff.mpr
  apply UInt16.toNat_inj.mp
  have fields : (Instruction.awaitKey x).word.toNat = 0xF * 4096 + x.val * 256 + 0x0A :=
    Opcode.toNat_ofByte 0xF x 0x0A
  omega

theorem ofOpcode?_loadByte {opcode : Opcode} {x : Register} {value : Byte}
    (encoded : opcode.toNat = 0x6000 + 0x100 * x.val + value.toNat) :
    Instruction.ofOpcode? opcode = some (.loadByte x value) := by
  apply Instruction.ofOpcode?_eq_some_iff.mpr
  apply UInt16.toNat_inj.mp
  have fields :
      (Instruction.loadByte x value).word.toNat = 0x6 * 4096 + x.val * 256 + value.toNat :=
    Opcode.toNat_ofByte 0x6 x value
  omega

/-- The word that loads the lower eight bits of a whole number. -/
def loadWord (x : Register) (index : Int) : Opcode :=
  UInt16.ofNat (0x6000 + 0x100 * x.val + (index % 256).toNat)

theorem execute_loadWord (machine : Machine) (x : Register) (index : Int) :
    machine.execute (loadWord x index) =
      ⟨{ machine.setRegister x (index % 256) with
          opcode := loadWord x index
          pc := machine.pc + 2 }, .ok (), [.executing machine.pc (loadWord x index)]⟩ := by
  have small : (index % 256).toNat < 256 := by omega
  have fits : 0x6000 + 0x100 * x.val + (index % 256).toNat < 65536 := by omega
  have byte : (UInt8.ofNat (index % 256).toNat).toNat = (index % 256).toNat :=
    UInt8.toNat_ofNat_of_lt' small
  have value : ((UInt8.ofNat (index % 256).toNat).toNat : Int) = index % 256 := by omega
  have encoded : (loadWord x index).toNat =
      0x6000 + 0x100 * x.val + (UInt8.ofNat (index % 256).toNat).toNat := by
    rw [byte]
    exact UInt16.toNat_ofNat_of_lt' fits
  rw [execute_loadByte machine (ofOpcode?_loadByte encoded), value]

/-- The cycle that begins a wait does not move the program counter. -/
theorem cycle_awaitKey {machine : Machine} {x : Register} (awake : machine.waiting = false)
    (inside : programStart ≤ machine.pc) (room : machine.pc < programEnd)
    (encoded : machine.nextWord.toNat = 0xF00A + 0x100 * x.val) :
    machine.cycle =
      ⟨{ machine with opcode := machine.nextWord, waiting := true, waitRegister := x },
        .ok false, [.executing machine.pc machine.nextWord]⟩ := by
  rw [cycle_of_executing inside room awake, execute_awaitKey machine (ofOpcode?_awaitKey encoded)]
  rfl

/-! ## While a program waits -/

/-- The timers run on during the wait, and it does not matter whether they run before or after its
end. -/
theorem endWait_tickTimers (machine : Machine) (index : Int) :
    (machine.tickTimers.endWait index).1 = (machine.endWait index).1.tickTimers := by
  cases waiting : machine.waiting <;> simp [endWait, tickTimers, setRegister, waiting]

theorem endWait_setKey (machine : Machine) (key : Key) (pressed : Bool) (index : Int) :
    ((machine.setKey key pressed).endWait index).1 =
      (machine.endWait index).1.setKey key pressed := by
  cases waiting : machine.waiting <;> simp [endWait, setKey, setRegister, waiting]

/-- A machine waits, and with the end of its wait becomes another one, but for the record of the
last word and for the register that the wait loads. -/
structure Loads (waiting : Machine) (index : Int) (loaded : Machine) : Prop where
  waits : waiting.waiting = true
  room : waiting.pc < programEnd
  ended : (waiting.endWait index).1 =
    { loaded with opcode := waiting.opcode, waitRegister := waiting.waitRegister }

namespace Loads

variable {waiting loaded : Machine} {index : Int}

/-- When the wait begins, the two machines differ in the load that has still to come. -/
theorem begin (machine : Machine) (room : machine.pc < programEnd) (x : Register) (index : Int)
    (word load : Opcode) :
    Loads { machine with opcode := word, waiting := true, waitRegister := x } index
      { machine.setRegister x (index % 256) with
        opcode := load
        waiting := false
        pc := machine.pc + 2 } where
  waits := rfl
  room := room
  ended := rfl

theorem cycle (loads : Loads waiting index loaded) :
    waiting.cycle = ⟨waiting, .ok false, []⟩ :=
  cycle_of_waiting loads.room loads.waits

theorem tickTimers (loads : Loads waiting index loaded) :
    Loads waiting.tickTimers index loaded.tickTimers where
  waits := loads.waits
  room := loads.room
  ended := by
    rw [endWait_tickTimers, loads.ended]
    rfl

theorem setKey (loads : Loads waiting index loaded) (key : Key) (pressed : Bool) :
    Loads (waiting.setKey key pressed) index (loaded.setKey key pressed) where
  waits := loads.waits
  room := loads.room
  ended := by
    rw [endWait_setKey, loads.ended]
    rfl

/-- A request other than a cycle is carried out by both machines. -/
theorem apply (loads : Loads waiting index loaded) {operation : Operation}
    (passes : operation.Passes) (other : operation ≠ .cycle) :
    Loads (waiting.apply operation).state index (loaded.apply operation).state := by
  cases operation with
  | cycle => exact absurd rfl other
  | tickTimers => exact loads.tickTimers
  | setKey keyIndex pressed =>
      have inside : 0 ≤ keyIndex ∧ keyIndex < 16 := passes
      obtain ⟨key, named⟩ : ∃ key, Key.ofIndex keyIndex = .ok key := by
        rw [Key.ofIndex, Key.ofIndex?, dif_pos inside]
        exact ⟨_, rfl⟩
      simp only [Machine.apply, setKeyAt, named, Except.map]
      exact loads.setKey key pressed
  | execute _ | load _ | reset | endWait _ | setShiftMode _ | draw _ _ _ => exact absurd passes id

/-- Requests that may pass keep the two machines related, and each cycle among them answers that
the program goes on. -/
theorem after (loads : Loads waiting index loaded) {operations : List Operation}
    (passing : ∀ operation ∈ operations, operation.Passes) :
    Loads (waiting.after operations) index (loaded.after (withoutCycles operations)) := by
  induction operations generalizing waiting loaded with
  | nil => exact loads
  | cons operation operations inductionHypothesis =>
      have passes := passing operation List.mem_cons_self
      have others := fun later member => passing later (List.mem_cons_of_mem operation member)
      by_cases cycles : operation = .cycle
      · subst cycles
        have idle : (waiting.apply .cycle).state = waiting := by
          simp only [Machine.apply, loads.cycle]
        have related : Loads (waiting.apply .cycle).state index loaded := by
          rw [idle]
          exact loads
        rw [withoutCycles_cycle]
        exact inductionHypothesis related others
      · have related := loads.apply passes cycles
        rw [withoutCycles_other cycles]
        exact inductionHypothesis related others

end Loads

/-- To wait for a key is to load it.  Whatever cycles, ticks and keys come before the wait ends, all
the cycles do nothing but answer that the program goes on, and the machine becomes the one that
loaded the key before the same ticks and keys, but for the record of the last word and for the
register that the wait loads. -/
theorem wait_loads_key (machine : Machine) (x : Register) (awake : machine.waiting = false)
    (inside : 0x200 ≤ machine.pc) (room : machine.pc ≤ 0xFFD)
    (encoded : machine.nextWord.toNat = 0xF00A + 0x100 * x.val) (operations : List Operation)
    (passing : ∀ operation ∈ operations, operation.Passes) (index : Int) :
    let begun := machine.apply .cycle
    let ended := (begun.state.after operations).apply (.endWait index)
    let loaded := machine.apply (.execute (loadWord x index))
    begun.answer = .ok (some false) ∧
    (∀ earlier later, operations = earlier ++ .cycle :: later →
      ((begun.state.after earlier).apply .cycle).answer = .ok (some false)) ∧
    ended.answer = .ok none ∧ loaded.answer = .ok none ∧
    ended.state =
      { loaded.state.after (withoutCycles operations) with
        opcode := ended.state.opcode
        waitRegister := ended.state.waitRegister } := by
  intro begun ended loaded
  have before : machine.pc < programEnd := by
    simp only [programEnd, memorySize]
    omega
  have first : machine.cycle =
      ⟨{ machine with opcode := machine.nextWord, waiting := true, waitRegister := x }, .ok false,
        [.executing machine.pc machine.nextWord]⟩ :=
    cycle_awaitKey awake inside before encoded
  have second : loaded =
      ⟨{ machine.setRegister x (index % 256) with
          opcode := loadWord x index
          waiting := false
          pc := machine.pc + 2 }, .ok none, [.executing machine.pc (loadWord x index)]⟩ := by
    simp only [loaded, apply, execute_loadWord, ← awake]
    rfl
  have related : Loads begun.state index loaded.state := by
    rw [second]
    simp only [begun, apply, first]
    exact Loads.begin machine before x index machine.nextWord _
  refine ⟨by simp only [begun, apply, first]; rfl, ?_, rfl, by rw [second], ?_⟩
  · intro earlier later split
    have passed : ∀ operation ∈ earlier, operation.Passes := by
      intro operation member
      exact passing operation (split ▸ List.mem_append_left _ member)
    have waits := related.after passed
    simp only [apply, waits.cycle]
    rfl
  · have waits := related.after passing
    have same : ended.state = _ := waits.ended
    rw [same]

/-- A key is awaited while the sound runs out and another key is pressed and released. -/
theorem wait_loads_key_meanwhile :
    let machine : Machine :=
      { ((powerOn (.whole 600) false (.ofScript [])).load [0xF3, 0x0A]).state with
        delay := 9, sound := 1 }
    let operations : List Operation :=
      [.tickTimers, .cycle, .setKey 5 true, .cycle, .setKey 5 false, .tickTimers]
    let ended := ((machine.apply .cycle).state.after operations).apply (.endWait (-3))
    machine.waiting = false ∧ 0x200 ≤ machine.pc ∧ machine.pc ≤ 0xFFD ∧
      machine.nextWord.toNat = 0xF00A + 0x100 * (3 : Register).val ∧
      (∀ operation ∈ operations, operation.Passes) ∧
      ended.state.register 3 = 253 ∧ ended.state.pc = 0x202 ∧ ended.state.delay = 7 ∧
      ended.state.sound = 0 := by
  intro machine operations ended
  have awake : machine.waiting = false := rfl
  have inside : 0x200 ≤ machine.pc := by decide
  have room : machine.pc ≤ 0xFFD := by decide
  have encoded : machine.nextWord.toNat = 0xF00A + 0x100 * (3 : Register).val := by
    decide +kernel
  have passing : ∀ operation ∈ operations, operation.Passes := by decide
  obtain ⟨_, _, _, _, same⟩ :=
    wait_loads_key machine 3 awake inside room encoded operations passing (-3)
  have loaded : ended.state =
      { ((machine.apply (.execute 0x63FD)).state.after (withoutCycles operations)) with
        opcode := ended.state.opcode, waitRegister := ended.state.waitRegister } := same
  refine ⟨awake, inside, room, encoded, passing, ?_⟩
  rw [loaded]
  decide +kernel

end Machine

end ChipEight
