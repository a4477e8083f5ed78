import ChipEight.Proofs.Machine.Equipment
import ChipEight.Proofs.Machine.Situated
import ChipEight.Proofs.Scheduler.Deeds
import ChipEight.Proofs.Scheduler.KeyWait

/-!
# Bounds that runs keep

Between any two deeds of a run the machine stands where `Machine.Situated` says, and its clock has
the rate that the scheduler chose when it was made.  A wait for a key therefore ends behind the
instruction that began it.
-/

namespace ChipEight

theorem Hertz.clamp_of_bounds {rate : Nat} (least : 1 ≤ rate) (greatest : rate ≤ greatestRate) :
    (Hertz.whole rate).clamp = rate := by
  simp only [clamp, truncate]
  omega

namespace Machine

theorem start_situated (clock : Hertz) (shiftUsesVy : Bool) (random : ByteSource)
    (loaded : List Byte) : ((powerOn clock shiftUsesVy random).load loaded).state.Situated :=
  (powerOn_situated clock shiftUsesVy random).load rfl loaded

end Machine

namespace Scheduler

variable {Time : Type} [Clock Time]

theorem situated_chronicle :
    Chronicle fun before _ after =>
      before.Situated → after.Situated ∧ after.clock = before.clock where
  idle _ _ situated := ⟨situated, rfl⟩
  join first second situated := by
    obtain ⟨middle, firstClock⟩ := first situated
    obtain ⟨last, secondClock⟩ := second middle
    exact ⟨last, secondClock.trans firstClock⟩
  cycle machine situated := ⟨situated.cycle, machine.cycle_clock⟩
  tickTimers _ situated := ⟨situated.tickTimers, rfl⟩
  setKey _ key pressed situated := ⟨situated.setKey key pressed, rfl⟩
  endWait machine index situated := by
    refine ⟨situated.endWait index, ?_⟩
    rw [Machine.endWait]
    split <;> rfl
  reload machine program _ := by
    have fresh : machine.reset.Situated :=
      Machine.powerOn_situated machine.clock machine.shiftUsesVy machine.random
    exact ⟨fresh.load rfl program,
      (machine.reset.load_clock program).trans machine.reset_clock⟩

theorem performAll_situated {scheduler : Scheduler Time}
    (situated : scheduler.machine.Situated) (deeds : List (Deed Time)) :
    (scheduler.performAll deeds).scheduler.machine.Situated ∧
      (scheduler.performAll deeds).scheduler.machine.clock = scheduler.machine.clock := by
  have shown : ∀ machine : Machine, machine.Situated →
      { machine with display := { machine.display with dirty := false } }.Situated ∧
        machine.clock = machine.clock :=
    fun _ situated => ⟨situated.setDisplay _, rfl⟩
  exact situated_chronicle.performAll shown scheduler deeds situated

/-! ## The end of a wait -/

section Wait

variable {scheduler : Scheduler Time}

omit [Clock Time] in
theorem handleKey_goes_on (waiting : scheduler.machine.waiting = true) {index : Int}
    {pressed : Bool} (ended : (scheduler.handleKey index pressed).state.machine.waiting = false) :
    (scheduler.handleKey index pressed).state.machine.pc = scheduler.machine.pc + 2 ∧
      (scheduler.handleKey index pressed).state.machine.memory = scheduler.machine.memory := by
  cases named : Key.ofIndex? index with
  | none =>
      rw [handleKey_of_none _ _ _ named, waiting] at ended
      cases ended
  | some key =>
      obtain rfl := Key.eq_val_of_ofIndex? named
      cases pressed with
      | false =>
          rw [handleKey_release] at ended
          have still : (scheduler.releaseKey key).machine.waiting = true := waiting
          rw [still] at ended
          cases ended
      | true =>
          rw [handleKey_press] at ended ⊢
          by_cases last : scheduler.lastKey = some key
          · rw [pressKey_repeated waiting last, waiting] at ended
            cases ended
          · rw [pressKey_fresh waiting last]
            exact ⟨rfl, rfl⟩

/-- A wait that a deed ends goes on behind the word that waited, unless the program begins anew. -/
theorem perform_goes_on (situated : scheduler.machine.Situated)
    (waiting : scheduler.machine.waiting = true) {deed : Deed Time}
    (kept : deed.command? ≠ some .reset)
    (ended : (scheduler.perform deed).scheduler.machine.waiting = false) :
    (scheduler.perform deed).scheduler.machine.pc = scheduler.machine.pc + 2 ∧
      (scheduler.perform deed).scheduler.machine.memory = scheduler.machine.memory := by
  -- Only the press of a key ends a wait, so every other deed contradicts its end.
  have impossible : ∀ {after : Machine}, after.waiting = scheduler.machine.waiting →
      after.waiting = false → False := by
    intro after same awake
    rw [same, waiting] at awake
    cases awake
  cases deed with
  | obey command now =>
      cases command with
      | setKey index pressed => exact handleKey_goes_on waiting ended
      | reset => exact absurd rfl kept
      | setRunning running =>
          have same := congrArg Machine.waiting (scheduler.setRunning_machine running now)
          exact (impossible same ended).elim
      | quit => exact (impossible rfl ended).elim
      | stray text => exact (impossible rfl ended).elim
      | unwritable reason => exact (impossible rfl ended).elim
  | cycle period =>
      have room := (situated.wait waiting).inside.2
      have idle := congrArg Outcome.state (Machine.cycle_of_waiting room waiting)
      exact (impossible (congrArg Machine.waiting idle) ended).elim
  | dueCycle time => exact (impossible rfl ended).elim
  | dueTick time => exact (impossible rfl ended).elim
  | tick => exact (impossible rfl ended).elim
  | publish => exact (impossible rfl ended).elim

end Wait

/-- Throughout a run the program counter stays within `0x10FE`, pending calls stand in the program,
and the clock has the rate that was chosen at the start.  A machine that waits for a key stands at
the instruction that waits, and goes on behind it unless it is reset. -/
theorem machine_stays_in_bounds (clock : Hertz) (shiftUsesVy : Bool) (random : ByteSource)
    (loaded program : List Byte) (running : Bool) (limit : Nat) (began : Time)
    (inbox : List Command) (ticks : List (Tick Time)) :
    let fresh := ((Machine.powerOn clock shiftUsesVy random).load loaded).state
    let begun : Scheduler Time := ((start fresh program running).1.begin began).1
    (∀ turn ∈ begun.turns limit inbox ticks,
      begun.ComesThrough limit inbox ticks turn.scheduler) ∧
    ∀ reached, begun.ComesThrough limit inbox ticks reached →
      (0 ≤ reached.machine.pc ∧ reached.machine.pc ≤ 0x10FE) ∧
      (∀ slot : Fin stackDepth, slot.val < reached.machine.depth.val →
        0x200 ≤ reached.machine.stack.get slot ∧ reached.machine.stack.get slot ≤ 0xFFD) ∧
      (reached.machine.clock = .whole clock.clamp ∧
        reached.period = Clock.cyclePeriod clock.clamp ∧
        1 ≤ clock.clamp ∧ clock.clamp ≤ 5000) ∧
      (reached.machine.waiting = true →
        (0x200 ≤ reached.machine.pc ∧ reached.machine.pc ≤ 0xFFD) ∧
        reached.machine.opcode = reached.machine.nextWord ∧
        reached.machine.opcode.toNat = 0xF00A + 0x100 * reached.machine.waitRegister.val ∧
        ∀ deed : Deed Time, deed.command? ≠ some .reset →
          (reached.perform deed).scheduler.machine.waiting = false →
            (reached.perform deed).scheduler.machine.pc = reached.machine.pc + 2 ∧
            (reached.perform deed).scheduler.machine.memory = reached.machine.memory) := by
  intro fresh begun
  refine ⟨fun turn met => comesThrough_turn met, ?_⟩
  rintro reached ⟨deeds, _, rfl⟩
  have settled : fresh.Situated := Machine.start_situated clock shiftUsesVy random loaded
  have begunSituated : begun.machine.Situated :=
    ⟨{ settled.wellFormed with surplus := settled.wellFormed.surplus }, settled.pc, settled.sites,
      fun waiting => { settled.wait waiting with }⟩
  have chosen : fresh.clock = clock := Machine.load_clock _ loaded
  obtain ⟨situated, kept⟩ := performAll_situated begunSituated deeds
  have rate : (begun.performAll deeds).scheduler.machine.clock = .whole clock.clamp := by
    rw [← chosen]
    exact kept
  obtain ⟨least, greatest⟩ := clock.clamp_bounds
  refine ⟨⟨situated.wellFormed.pc, situated.pc⟩, ?_, ⟨rate, ?_, least, greatest⟩, ?_⟩
  · exact fun slot pending => (situated.stack_inProgram pending).bounds
  · rw [period, rate, Hertz.clamp_of_bounds least greatest]
  · intro waiting
    obtain ⟨inside, fetched, awaits⟩ := situated.wait waiting
    have word := Opcode.toNat_ofByte 0xF (begun.performAll deeds).scheduler.machine.waitRegister
      0x0A
    have byte : (0x0A : Byte).toNat = 10 := rfl
    have kind : (0xF : Nibble).val = 15 := rfl
    refine ⟨inside.bounds, fetched, ?_, ?_⟩
    · rw [awaits, Instruction.word, word, byte, kind]
      omega
    · exact fun deed kept ended => perform_goes_on situated waiting kept ended

/-- A wait in the register `V2` begins at the first instruction and ends behind it, at a rate that
was asked for too high. -/
theorem machine_stays_in_bounds_waiting :
    let fresh := ((Machine.powerOn (.whole 9000) true (.ofScript [])).load [0xF2, 0x0A]).state
    let begun : Scheduler Rat := ((start fresh [0xF2, 0x0A] true).1.begin 0).1
    let reached := (begun.performAll [.cycle (1 / 5000)]).scheduler
    let press : Deed Rat := .obey (.setKey 5 true) 0
    begun.ComesThrough 10 [] [⟨0, []⟩] reached ∧ reached.machine.waiting = true ∧
      reached.machine.opcode.toNat = 0xF20A ∧ reached.period = 1 / 5000 ∧
      press.command? ≠ some .reset ∧
      (reached.perform press).scheduler.machine.waiting = false ∧
      (reached.perform press).scheduler.machine.pc = 0x202 := by
  intro fresh begun reached press
  obtain ⟨first, waiting, loads, here, ended⟩ :
      [.cycle (1 / 5000)] <+: (begun.history 10 [] [⟨0, []⟩]).flatten ∧
        reached.machine.waiting = true ∧ reached.machine.waitRegister = 2 ∧
        reached.machine.pc = 0x200 ∧
        (reached.perform press).scheduler.machine.waiting = false := by
    decide +kernel
  obtain ⟨_, bounds⟩ :=
    machine_stays_in_bounds (.whole 9000) true (.ofScript []) [0xF2, 0x0A] [0xF2, 0x0A] true 10
      (0 : Rat) [] [⟨0, []⟩]
  have comes : begun.ComesThrough 10 [] [⟨0, []⟩] reached := ⟨_, first, rfl⟩
  obtain ⟨_, _, ⟨_, period, _⟩, wait⟩ := bounds reached comes
  obtain ⟨_, _, word, goesOn⟩ := wait waiting
  have kept : press.command? ≠ some .reset := by decide
  obtain ⟨behind, _⟩ := goesOn press kept ended
  rw [loads] at word
  rw [here] at behind
  exact ⟨comes, waiting, word, period, kept, ended, behind⟩

end Scheduler

end ChipEight
