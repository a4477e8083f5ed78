import ChipEight.Access
import ChipEight.Machine.Execute
import ChipEight.Machine.Load

/-!
# Operations on a machine

Whoever owns a machine runs instructions, ticks its timers, loads programs, presses keys, draws and
resets.  An `Operation` is one such request, and `Machine.apply` carries it out.
-/

namespace ChipEight

/-- A request to a machine. -/
inductive Operation where
  | execute (opcode : Opcode)
  | cycle
  | tickTimers
  /-- Copy a program to the program counter. -/
  | load (program : List Byte)
  | reset
  | endWait (index : Int)
  | setKey (index : Int) (pressed : Bool)
  /-- Choose where shifts take their operand from. -/
  | setShiftMode (usesVy : Bool)
  | draw (x y : Int) (sprite : List Byte)
  deriving DecidableEq

/-- Why a request was not carried out. -/
inductive Refusal where
  | faulted (fault : Fault)
  | notLoaded (error : LoadError)
  /-- A number names nothing. -/
  | unknown (error : AccessError)
  deriving DecidableEq

/-- An interruption as the reason why a request to execute was not carried out. -/
def Interruption.refusal : Interruption → Refusal
  | .faulted fault => .faulted fault
  | .strayed error => .unknown error

def Refusal.message : Refusal → String
  | .faulted fault => fault.message
  | .notLoaded error => error.message
  | .unknown error => error.message

namespace Machine

/-- Carries out a request.  The answer says whether the program has ended or whether a sprite
collided; other requests have none. -/
def apply (machine : Machine) (operation : Operation) (logger : Logger := .complete) :
    Outcome Machine Refusal (Option Bool) :=
  match operation with
  | .execute opcode =>
      let executed := machine.execute opcode logger
      ⟨executed.state, (executed.answer.map fun _ => none).mapError Interruption.refusal,
        executed.log⟩
  | .cycle =>
      let cycled := machine.cycle logger
      ⟨cycled.state, (cycled.answer.map some).mapError Interruption.refusal, cycled.log⟩
  | .tickTimers => ⟨machine.tickTimers, .ok none, []⟩
  | .load program =>
      let loaded := machine.load program logger
      ⟨loaded.state, (loaded.answer.map fun _ => none).mapError .notLoaded, loaded.log⟩
  | .reset => ⟨machine.reset, .ok none, logger.record .memoryInitialised⟩
  | .endWait index =>
      let (ended, log) := machine.endWait index logger
      ⟨ended, .ok none, log⟩
  | .setKey index pressed =>
      match machine.setKeyAt index pressed with
      | .ok changed => ⟨changed, .ok none, []⟩
      | .error error => ⟨machine, .error (.unknown error), []⟩
  | .setShiftMode usesVy => ⟨{ machine with shiftUsesVy := usesVy }, .ok none, []⟩
  | .draw x y sprite =>
      let (display, collision) := machine.display.draw x y sprite
      ⟨{ machine with display }, .ok (some collision), []⟩

end Machine

end ChipEight
