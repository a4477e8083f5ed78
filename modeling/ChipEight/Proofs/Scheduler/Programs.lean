import ChipEight.Proofs.Machine.Histories
import ChipEight.Proofs.Scheduler.Commands

/-!
# Loading programs

A program is copied to the program counter as a whole, or it is refused and the machine stays as it
is.  A file that can be read is loaded like its content.  What a machine takes when it was just
switched on it takes again after every reset: `program_taken_whole_or_refused`.
-/

namespace ChipEight

/-- A block that is laid over cells stands between those before it and those behind it. -/
theorem toList_overlay {α : Type} {size : Nat} (cells : Vector α size) {start : Nat}
    {block : List α} (fits : start + block.length ≤ size) :
    (overlay cells start block).toList =
      cells.toList.take start ++ block ++ cells.toList.drop (start + block.length) := by
  induction block generalizing cells start with
  | nil => simp [overlay]
  | cons value block inductionHypothesis =>
      rw [List.length_cons] at fits
      have inside : start < cells.toList.length := by
        rw [Vector.length_toList]
        omega
      have first : (cells.toList.set start value).take (start + 1) =
          cells.toList.take start ++ [value] := by
        rw [List.take_succ_eq_append_getElem (by rwa [List.length_set]), List.getElem_set_self,
          List.take_set_of_le (Nat.le_refl start)]
      have rest : (cells.toList.set start value).drop (start + 1 + block.length) =
          cells.toList.drop (start + (block.length + 1)) := by
        rw [List.drop_set_of_lt (by omega)]
        congr 1
        omega
      rw [overlay, inductionHypothesis _ (by omega), Vector.toList_setIfInBounds, first, rest]
      simp

namespace Machine

variable {machine : Machine} {program : List Byte}

/-! ## One program -/

/-- The machine with a program in its memory, from the program counter on. -/
def withProgram (machine : Machine) (program : List Byte) : Machine :=
  { machine with
    memory := { machine.memory with
      cells := overlay machine.memory.cells machine.pc.toNat program } }

theorem load_of_fits (above : 0 ≤ machine.pc) (fits : machine.pc + program.length ≤ 4096) :
    machine.load program =
      ⟨machine.withProgram program, .ok (), [.programLoaded program.length machine.pc]⟩ := by
  have within : machine.pc + program.length ≤ memorySize := fits
  rw [load, if_pos within, Memory.replace, if_pos ⟨above, within⟩]
  rfl

theorem load_of_too_large (large : 4096 < machine.pc + program.length) :
    machine.load program = ⟨machine, .error (.tooLarge program.length machine.pc), []⟩ :=
  if_neg (Int.not_le.mpr large)

theorem bytes_withProgram (fits : machine.pc.toNat + program.length ≤ 4096) :
    (machine.withProgram program).memory.bytes =
      machine.memory.bytes.take machine.pc.toNat ++ program ++
        machine.memory.bytes.drop (machine.pc.toNat + program.length) := by
  have cells : machine.memory.cells.toList.length = 4096 := Vector.length_toList
  simp only [Memory.bytes, withProgram, toList_overlay machine.memory.cells fits]
  rw [List.take_append_of_le_length (by omega), List.drop_append_of_le_length (by omega)]
  simp only [List.append_assoc]

/-- What a machine is once it has taken a program: the bytes of the program stand from the program
counter on, and all else is as it was. -/
structure Took (machine : Machine) (program : List Byte) (loaded : Machine) : Prop where
  others : loaded = { machine with memory := loaded.memory }
  size : loaded.memory.bytes.length = 4096
  bytes : loaded.memory.bytes =
    machine.memory.bytes.take machine.pc.toNat ++ program ++
      machine.memory.bytes.drop (machine.pc.toNat + program.length)

theorem withProgram_took (whole : machine.memory.bytes.length = 4096)
    (fits : machine.pc.toNat + program.length ≤ 4096) :
    machine.Took program (machine.withProgram program) where
  others := rfl
  size := by
    rw [← whole]
    simp [withProgram, Memory.bytes]
  bytes := bytes_withProgram fits

/-- A program that a new machine takes has room in the program space. -/
theorem length_of_load_powerOn {clock : Hertz} {shiftUsesVy : Bool} {random : ByteSource}
    (taken : ((powerOn clock shiftUsesVy random).load program).answer = .ok ()) :
    program.length ≤ 3584 := by
  refine Nat.le_of_not_lt fun long => ?_
  have large : 4096 < (powerOn clock shiftUsesVy random).pc + program.length := by
    simp only [powerOn, programStart]
    omega
  rw [load_of_too_large large] at taken
  cases taken

/-! ## Files -/

section Files

variable {path : String} (possible : path.contains '\x00' = false)

include possible

theorem loadContent_readable (content : List Byte) :
    machine.loadContent path (.ok content) =
      ⟨(machine.load content).state, (machine.load content).answer.map fun _ => content,
        .loadingProgram path :: (machine.load content).log⟩ := by
  rw [loadContent, if_neg (by simp [possible])]
  rfl

theorem loadContent_unreadable (failure : OpenFailure) :
    machine.loadContent path (.error failure) =
      ⟨machine, .error (.unreadable path failure), [.loadingProgram path]⟩ := by
  rw [loadContent, if_neg (by simp [possible])]
  rfl

end Files

/-- What was loaded from a file is a program that the machine takes. -/
theorem load_of_loadContent {path : String} {content : Except OpenFailure (List Byte)}
    (answered : (machine.loadContent path content).answer = .ok program) :
    (machine.load program).answer = .ok () := by
  simp only [loadContent] at answered
  split at answered
  next => cases answered
  next =>
    cases content with
    | error failure => cases answered
    | ok content =>
        simp only at answered
        cases taken : (machine.load content).answer with
        | error error =>
            rw [taken] at answered
            cases answered
        | ok _ =>
            rw [taken] at answered
            cases answered
            exact taken

end Machine

open Machine in
/-- A program is refused if and only if it is longer than the bytes from the program counter to the
end of memory, and a refusal leaves the machine as it was.  A file does what its bytes do, if they
can be read, and a path that holds a null byte is refused with an error of its own.  What a machine
that was just switched on takes from a file it takes again after every reset. -/
theorem program_taken_whole_or_refused {Time : Type} [Clock Time] (machine : Machine)
    (above : 0 ≤ machine.pc) (whole : machine.memory.bytes.length = 4096) :
    (∀ program : List Byte,
      (4096 - machine.pc < program.length →
        (machine.load program).answer = .error (.tooLarge program.length machine.pc) ∧
          (machine.load program).state = machine) ∧
      (¬ 4096 - machine.pc < program.length →
        (machine.load program).answer = .ok () ∧
          machine.Took program (machine.load program).state)) ∧
    (∀ path : String,
      (path.contains '\x00' = false →
        (∀ content,
          (machine.loadContent path (.ok content)).state = (machine.load content).state ∧
            (machine.loadContent path (.ok content)).answer =
              (machine.load content).answer.map fun _ => content) ∧
        ∀ failure,
          (machine.loadContent path (.error failure)).state = machine ∧
            (machine.loadContent path (.error failure)).answer =
              .error (.unreadable path failure)) ∧
      (path.contains '\x00' = true → ∀ content,
        (machine.loadContent path content).state = machine ∧
          (machine.loadContent path content).answer = .error .impossiblePath)) ∧
    (∀ clock shiftUsesVy random path content program,
      ((powerOn clock shiftUsesVy random).loadContent path content).answer = .ok program →
        (∀ other : Machine, (other.reset.load program).answer = .ok ()) ∧
        ∀ (scheduler : Scheduler Time) (now : Time), scheduler.program = program →
          (scheduler.handle .reset now).answer = .ok ()) := by
  refine ⟨fun program => ⟨fun large => ?refused, fun fits => ?taken⟩,
    fun path => ⟨fun possible => ⟨fun content => ?readable, fun failure => ?unreadable⟩,
      fun impossible content => ?impossible⟩,
    fun clock shiftUsesVy random path content program answered => ?again⟩
  case refused =>
    rw [load_of_too_large (by omega)]
    exact ⟨rfl, rfl⟩
  case taken =>
    rw [load_of_fits above (by omega)]
    exact ⟨rfl, withProgram_took whole (by omega)⟩
  case readable =>
    rw [loadContent_readable possible]
    exact ⟨rfl, rfl⟩
  case unreadable =>
    rw [loadContent_unreadable possible]
    exact ⟨rfl, rfl⟩
  case impossible =>
    simp only [loadContent, if_pos impossible, and_self]
  case again =>
    have fits : program.length ≤ 3584 :=
      length_of_load_powerOn (load_of_loadContent answered)
    refine ⟨fun other => Scheduler.load_reset_of_fits other fits, fun scheduler now same => ?_⟩
    rw [Scheduler.handle, Scheduler.reload_answer, if_pos (by rwa [same])]

/-- At the end of memory there is room for no byte, and an empty program is taken.  A loop of one
instruction is taken from its file and, after a reset, once more. -/
theorem program_taken_whole_or_refused_at_the_end :
    let fresh := Machine.powerOn (.whole 600) false (.ofScript [])
    let machine := { fresh with pc := 4096 }
    0 ≤ machine.pc ∧ machine.memory.bytes.length = 4096 ∧
      (machine.load [0x60]).answer = .error (.tooLarge 1 4096) ∧
      (machine.load []).answer = .ok () ∧
      (fresh.loadContent "loop.ch8" (.ok [0x12, 0x00])).answer = .ok [0x12, 0x00] ∧
      (machine.reset.load [0x12, 0x00]).answer = .ok () := by
  intro fresh machine
  have above : 0 ≤ machine.pc := by decide
  have whole : machine.memory.bytes.length = 4096 :=
    (Machine.powerOn_wellFormed (.whole 600) false (.ofScript [])).representation.memory
  have possible : "loop.ch8".contains '\x00' = false := by simp
  have taken : (fresh.loadContent "loop.ch8" (.ok [0x12, 0x00])).answer = .ok [0x12, 0x00] := by
    rw [Machine.loadContent_readable possible]
    rfl
  obtain ⟨programs, -, again⟩ := @program_taken_whole_or_refused Rat _ machine above whole
  exact ⟨above, whole, ((programs [0x60]).1 (by decide)).1, ((programs []).2 (by decide)).1, taken,
    (again _ _ _ _ _ _ taken).1 machine⟩

theorem Directory.follow_empty (above : Nat) (names : List String) :
    ∃ failure, (Directory.mk []).follow above names = .error failure := by
  induction names generalizing above with
  | nil => exact ⟨_, rfl⟩
  | cons name names inductionHypothesis =>
      have unknown : (if above = 0 then ([] : List (String × List Byte)).lookup name else none) =
          none := by
        split <;> rfl
      rw [follow, unknown]
      split
      next => exact inductionHypothesis above
      next =>
        split
        next => exact inductionHypothesis (above + 1)
        next => split <;> exact ⟨_, rfl⟩

theorem Directory.read_empty (path : String) :
    ∃ failure, (Directory.mk []).read path = .error failure := by
  rw [read]
  split
  next => exact ⟨_, rfl⟩
  next =>
    split
    next => exact ⟨_, rfl⟩
    next => exact follow_empty _ _

/-- No path leads to a file of an empty directory, but one that holds a null byte is not refused as
unreadable. -/
theorem impossible_path_not_unreadable :
    let machine := Machine.powerOn (.whole 600) false (.ofScript [])
    let directory : Directory := ⟨[]⟩
    let read := machine.loadFile directory "a\x00b"
    (∃ failure, directory.read "a\x00b" = .error failure) ∧
      read.answer = .error .impossiblePath ∧
      ¬ ∃ failure, read.answer = .error (.unreadable "a\x00b" failure) := by
  intro machine directory read
  have answer : read.answer = .error .impossiblePath := by
    simp only [read, Machine.loadFile, Machine.loadContent]
    rw [if_pos (by simp)]
  refine ⟨Directory.read_empty _, answer, ?_⟩
  rintro ⟨failure, refused⟩
  rw [answer] at refused
  cases refused

end ChipEight
