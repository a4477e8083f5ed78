import ChipEight.Keypad
import ChipEight.Text.Quoted

/-!
# Keyboard layouts

The keypad lies on a square of sixteen keys of the keyboard, with its upper left corner at the key
`1`.  Which letters stand there depends on the layout of the keyboard.
-/

namespace ChipEight

/-- The code of a key of the keyboard: for a letter or a digit that of its character. -/
abbrev KeyCode := Int

/-- The layouts of the keyboard that are known. -/
inductive KeyboardLayout where
  | qwerty
  | azerty
  deriving DecidableEq

namespace KeyboardLayout

def all : List KeyboardLayout :=
  [.qwerty, .azerty]

def name : KeyboardLayout → String
  | .qwerty => "QWERTY"
  | .azerty => "AZERTY"

def ofName? (text : String) : Option KeyboardLayout :=
  all.find? fun layout => layout.name = text

/-- The keys that stand in the same place on every layout. -/
def commonKeys : List (KeyCode × Key) :=
  [(49, 0x1), (50, 0x2), (51, 0x3), (52, 0xC), (101, 0x6), (114, 0xD), (115, 0x8), (100, 0x9),
   (102, 0xE), (99, 0xB), (118, 0xF), (120, 0x0)]

/-- The keys that stand in a place of their own. -/
def ownKeys : KeyboardLayout → List (KeyCode × Key)
  | .qwerty => [(113, 0x4), (119, 0x5), (97, 0x7), (122, 0xA)]
  | .azerty => [(97, 0x4), (122, 0x5), (113, 0x7), (119, 0xA)]

/-- The keys of the keyboard that are keys of the keypad. -/
def bindings (layout : KeyboardLayout) : List (KeyCode × Key) :=
  commonKeys ++ layout.ownKeys

/-- The key of the keypad at a key of the keyboard. -/
def key? (layout : KeyboardLayout) (code : KeyCode) : Option Key :=
  layout.bindings.lookup code

end KeyboardLayout

/-- A text names no layout. -/
structure UnknownLayout where
  name : String
  deriving DecidableEq

def UnknownLayout.message (error : UnknownLayout) : String :=
  Text.quoted error.name ++ " is not a valid KeyboardBinding"

/-- The layout of a name, or the error that there is none. -/
def KeyboardLayout.ofName (text : String) : Except UnknownLayout KeyboardLayout :=
  match ofName? text with
  | some layout => .ok layout
  | none => .error ⟨text⟩

end ChipEight
