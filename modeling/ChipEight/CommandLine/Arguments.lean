import ChipEight.CommandLine.Word
import ChipEight.Window.Settings

/-!
# Arguments

The words of a command line are taken from left to right.  A switch that takes a value takes the
argument behind it, the first argument left is the program, and whatever remains is a misuse.  The
value `--` is dropped like every other `--` and leaves its setting empty.
-/

namespace ChipEight

open Text

/-- What a command line asks for.  A setting may be empty. -/
structure Arguments where
  program : String
  clock : Option Int
  keyboard : Option KeyboardLayout
  shiftVy : Bool
  width : Option Int
  height : Option Int
  debug : Bool
  deriving DecidableEq

/-- Why no run begins: help was asked for, or the command line is not understood. -/
inductive Stop where
  | help
  | misuse (misuse : Misuse)
  deriving DecidableEq

/-- What the words taken so far amount to. -/
structure Taken where
  program : Option String := none
  clock : Option Int := some defaultRate
  keyboard : Option KeyboardLayout := some .qwerty
  shiftVy : Bool := false
  width : Option Int := some 800
  height : Option Int := some 600
  debug : Bool := false
  /-- The words that are left over, the last one first. -/
  leftOver : List String := []
  deriving DecidableEq

/-- What one word asks for: switches, each with its value if it takes one, and perhaps a last switch
that takes the next argument as its value. -/
structure Demand where
  settled : List (Switch × String)
  awaiting : Option Switch
  deriving DecidableEq

namespace Demand

/-- The demand for one switch without a text attached to it. -/
def ofBare (switch : Switch) : Demand :=
  if switch.takesValue then ⟨[], some switch⟩ else ⟨[(switch, "")], none⟩

/-- A demand with a switch in front that takes no value. -/
def after (switch : Switch) (demand : Demand) : Demand :=
  { demand with settled := (switch, "") :: demand.settled }

/-- The demand of a switch with a text attached to it.  The text is the value of a switch that takes
one.  Behind a letter that takes none it has to go on with another letter. -/
def ofAttached (switch : Switch) (letter : Bool) : List Char → Except Misuse Demand
  | [] =>
      if switch.takesValue then .ok ⟨[(switch, "")], none⟩
      else .error (.needlessValue switch "")
  | c :: rest =>
      let text := String.ofList (c :: rest)
      if switch.takesValue then
        .ok ⟨[(switch, text)], none⟩
      else
        match if letter then Switch.ofSpelling? (String.ofList ['-', c]) else none with
        | none => .error (.needlessValue switch text)
        | some next =>
            if rest.isEmpty then .ok ((ofBare next).after switch)
            else (ofAttached next true rest).map (after switch)

/-- The demand of a switch. -/
def ofSwitch (switch : Switch) (letter : Bool) : Option String → Except Misuse Demand
  | none => .ok (ofBare switch)
  | some text => ofAttached switch letter text.toList

end Demand

namespace Taken

/-- Sets a number that a switch gives. -/
def setNumber (switch : Switch) (value : String) (use : Int → Taken) : Except Stop Taken :=
  match readInteger? value with
  | some number => .ok (use number)
  | none => .error (.misuse (.noNumber switch value))

/-- Sets a switch to a value that is not empty. -/
def set (taken : Taken) (switch : Switch) (value : String) : Except Stop Taken :=
  match switch with
  | .help => .error .help
  | .clock => setNumber switch value fun clock => { taken with clock := some clock }
  | .keyboard =>
      match KeyboardLayout.ofName? value with
      | some keyboard => .ok { taken with keyboard := some keyboard }
      | none => .error (.misuse (.noChoice switch value))
  | .shiftVy => .ok { taken with shiftVy := true }
  | .width => setNumber switch value fun width => { taken with width := some width }
  | .height => setNumber switch value fun height => { taken with height := some height }
  | .debug => .ok { taken with debug := true }

/-- Leaves the setting of a switch empty. -/
def clear (taken : Taken) (switch : Switch) : Taken :=
  match switch with
  | .clock => { taken with clock := none }
  | .keyboard => { taken with keyboard := none }
  | .width => { taken with width := none }
  | .height => { taken with height := none }
  | _ => taken

/-- Sets switches in turn. -/
def setAll (taken : Taken) : List (Switch × String) → Except Stop Taken
  | [] => .ok taken
  | (switch, value) :: rest =>
      if value = "--" then (taken.clear switch).setAll rest
      else do (← taken.set switch value).setAll rest

/-- Leaves a text over. -/
def leave (taken : Taken) (text : String) : Taken :=
  { taken with leftOver := text :: taken.leftOver }

/-- Takes an argument that is no value: the first one is the program. -/
def argue (taken : Taken) (text : String) : Taken :=
  if taken.program.isNone then { taken with program := some text } else taken.leave text

/-- Does what a word demands, where the value that it awaits is at hand. -/
def meet (taken : Taken) (demand : Demand) (value : Option String) : Except Stop Taken :=
  let last := match demand.awaiting, value with
    | some switch, some value => [(switch, value)]
    | _, _ => []
  taken.setAll (demand.settled ++ last)

/-- Takes the words of a command line.  A separator beside the program is dropped. -/
def takeAll (taken : Taken) : List Word → Except Stop Taken
  | [] => .ok taken
  | .argument text :: .separator :: rest =>
      if taken.program.isNone then takeAll (taken.argue text) rest
      else takeAll ((taken.argue text).leave "--") rest
  | .argument text :: rest => takeAll (taken.argue text) rest
  | .separator :: .argument text :: rest =>
      if taken.program.isNone then takeAll (taken.argue text) rest
      else takeAll ((taken.leave "--").argue text) rest
  | .separator :: rest => takeAll (taken.leave "--") rest
  | .strange text :: rest => takeAll (taken.leave text) rest
  | .named switch letter attached :: rest =>
      match Demand.ofSwitch switch letter attached with
      | .error misuse => .error (.misuse misuse)
      | .ok demand =>
          match demand.awaiting, rest with
          | none, rest => do takeAll (← taken.meet demand none) rest
          | some _, .argument value :: rest => do takeAll (← taken.meet demand (some value)) rest
          | some switch, _ => .error (.misuse (.missingValue switch))

/-- The arguments that all words amount to. -/
def finish (taken : Taken) : Except Stop Arguments :=
  match taken.program, taken.leftOver with
  | none, _ => .error (.misuse .missingProgram)
  | some _, _ :: _ => .error (.misuse (.unrecognized taken.leftOver.reverse))
  | some program, [] =>
      .ok ⟨program, taken.clock, taken.keyboard, taken.shiftVy, taken.width, taken.height,
        taken.debug⟩

end Taken

namespace Arguments

/-- The arguments that a command line gives. -/
def ofTexts (texts : List String) : Except Stop Arguments := do
  let words ← (Word.ofTexts texts).mapError .misuse
  (← Taken.takeAll {} words).finish

end Arguments

end ChipEight
