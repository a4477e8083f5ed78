import ChipEight.ByteSource
import ChipEight.Log
import ChipEight.Screen

/-!
# The machine

A machine owns its memory, registers, call stack, timers, display and keypad.  This module holds
its state, the state at power-on, and the operations that do not run an instruction: timers, keys
and the end of a wait for a key.
-/

namespace ChipEight

/-- The number of slots of the call stack. -/
abbrev stackDepth : Nat := 16

structure Machine where
  memory : Memory
  /-- The registers.  Each holds a byte, unless it took the value of a delay timer that was set
  beyond one. -/
  registers : Vector Int 16
  /-- The register `I`, which addresses sprites, digits and blocks of registers. -/
  index : Int
  pc : Int
  /-- The addresses of the pending calls, and what older calls left above them. -/
  stack : Vector Int stackDepth
  depth : Fin (stackDepth + 1)
  /-- The ticks that the delay timer still counts down. -/
  delay : Int
  /-- The ticks for which the sound is still on. -/
  sound : Int
  /-- The word that was executed last. -/
  opcode : Opcode
  /-- Whether the program waits for a key. -/
  waiting : Bool
  /-- The register that the last wait loads. -/
  waitRegister : Register
  keypad : Keypad
  display : Display
  /-- The rate of the instruction clock. -/
  clock : Hertz
  /-- Whether shifts take their operand from the second register. -/
  shiftUsesVy : Bool
  random : ByteSource
  deriving DecidableEq

namespace Machine

/-- The machine as it is at power-on.  The display has to be shown, since it is blank. -/
def powerOn (clock : Hertz) (shiftUsesVy : Bool) (random : ByteSource) : Machine where
  memory := .initial
  registers := Vector.replicate 16 0
  index := 0
  pc := programStart
  stack := Vector.replicate stackDepth 0
  depth := 0
  delay := 0
  sound := 0
  opcode := 0
  waiting := false
  waitRegister := 0
  keypad := .released
  display := Display.initial.clear
  clock := clock
  shiftUsesVy := shiftUsesVy
  random := random

/-- Returns to the state at power-on.  Clock rate, shift mode and random bytes are kept. -/
def reset (machine : Machine) : Machine :=
  powerOn machine.clock machine.shiftUsesVy machine.random

def register (machine : Machine) (x : Register) : Int :=
  machine.registers[x]

def setRegister (machine : Machine) (x : Register) (value : Int) : Machine :=
  { machine with registers := machine.registers.set x value }

/-- Loading a register changes that register and no other. -/
theorem register_setRegister (machine : Machine) (x other : Register) (value : Int) :
    (machine.setRegister x value).register other =
      if other = x then value else machine.register other := by
  by_cases same : other = x
  · subst same
    simp [setRegister, register]
  · have different : x.val ≠ other.val := fun equal => same (Fin.ext equal.symm)
    simp [setRegister, register, same, different]

/-- The pending calls, the oldest first. -/
def pendingCalls (machine : Machine) : List Int :=
  machine.stack.toList.take machine.depth

/-- A timer after one tick: it counts down to zero and stays there. -/
def countDown (timer : Int) : Int :=
  if 0 < timer then timer - 1 else timer

def tickTimers (machine : Machine) : Machine :=
  { machine with delay := countDown machine.delay, sound := countDown machine.sound }

def setKey (machine : Machine) (key : Key) (pressed : Bool) : Machine :=
  { machine with keypad := machine.keypad.set key pressed }

/-- Ends a wait for a key: the lower eight bits of the key's index are loaded and the program goes
on.  A machine that does not wait stays as it is. -/
def endWait (machine : Machine) (index : Int) (logger : Logger := .complete) :
    Machine × List LogEvent :=
  if machine.waiting then
    ({ machine.setRegister machine.waitRegister (index % 256) with
        waiting := false
        pc := machine.pc + 2 }, [])
  else
    (machine, logger.record .noKeyAwaited)

end Machine

end ChipEight
