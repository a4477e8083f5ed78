import ChipEight.Proofs.Machine.AwaitKey
import ChipEight.Proofs.Scheduler.DueTimes
import ChipEight.Proofs.Scheduler.Obedience

/-!
# When the machine is driven

The scheduler cycles and ticks its machine only while it runs, cycles it only while the program does
not wait for a key, and never again once a cycle has ended the program or was interrupted.  The
deeds of a run are looked at together with the schedulers that they meet; `Discipline` is kept when
such lists are put together, and so it goes from batches to turns and from turns to runs.
-/

namespace ChipEight

/-- Whether a deed drives the machine. -/
def Deed.drives {Time : Type} : Deed Time → Bool
  | .cycle _ => true
  | .tick => true
  | _ => false

def Deed.isCycle {Time : Type} : Deed Time → Bool
  | .cycle _ => true
  | _ => false

/-- A deed and the scheduler that it meets. -/
structure Moment (Time : Type) where
  scheduler : Scheduler Time
  deed : Deed Time

/-- The program goes on behind a moment: it runs no instruction, or one that neither finds the
program at its end nor is interrupted. -/
def Moment.GoesOn {Time : Type} (moment : Moment Time) : Prop :=
  moment.deed.isCycle = true → moment.scheduler.machine.cycle.answer = .ok false

/-- What the scheduler keeps to in all that it does. -/
structure Discipline {Time : Type} (moments : List (Moment Time)) : Prop where
  running : ∀ moment ∈ moments, moment.deed.drives = true →
    moment.scheduler.running = true ∧ moment.scheduler.quit = false
  awake : ∀ moment ∈ moments, moment.deed.isCycle = true →
    moment.scheduler.machine.waiting = false
  goesOn : moments.Pairwise fun earlier later => later.deed.isCycle = true → earlier.GoesOn

/-- The program cannot go on behind the batch. -/
def BatchEnding.Stops : BatchEnding → Prop
  | .programEnded => True
  | .interrupted _ => True
  | _ => False

namespace Discipline

variable {Time : Type} {moments later : List (Moment Time)}

theorem nil : Discipline ([] : List (Moment Time)) where
  running _ member := absurd member List.not_mem_nil
  awake _ member := absurd member List.not_mem_nil
  goesOn := .nil

theorem cycle {scheduler : Scheduler Time} {period : Time} (running : scheduler.running = true)
    (quit : scheduler.quit = false) (awake : scheduler.machine.waiting = false) :
    Discipline [⟨scheduler, .cycle period⟩] where
  running := List.forall_mem_singleton.mpr fun _ => ⟨running, quit⟩
  awake := List.forall_mem_singleton.mpr fun _ => awake
  goesOn := List.pairwise_singleton _ _

theorem append (first : Discipline moments) (second : Discipline later)
    (apart : (∀ moment ∈ moments, moment.GoesOn) ∨
      ∀ moment ∈ later, moment.deed.isCycle = false) :
    Discipline (moments ++ later) where
  running := List.forall_mem_append.mpr ⟨first.running, second.running⟩
  awake := List.forall_mem_append.mpr ⟨first.awake, second.awake⟩
  goesOn := by
    refine List.pairwise_append.mpr ⟨first.goesOn, second.goesOn, ?_⟩
    intro before member after laterMember cycles
    rcases apart with goOn | none
    · exact goOn before member
    · rw [none after laterMember] at cycles
      cases cycles

/-- Where nothing cycles, only ticks have to be seen to. -/
theorem ofNoCycle (none : ∀ moment ∈ moments, moment.deed.isCycle = false)
    (running : ∀ moment ∈ moments, moment.deed.drives = true →
      moment.scheduler.running = true ∧ moment.scheduler.quit = false) :
    Discipline moments where
  running := running
  awake moment member cycles := by
    rw [none moment member] at cycles
    cases cycles
  goesOn := by
    refine List.Pairwise.imp_mem.mpr (List.pairwise_of_forall ?_)
    intro before after _ member cycles
    rw [none after member] at cycles
    cases cycles

end Discipline

theorem Moment.goesOn_of_noCycle {Time : Type} {moments : List (Moment Time)}
    (none : ∀ moment ∈ moments, moment.deed.isCycle = false) :
    ∀ moment ∈ moments, moment.GoesOn := by
  intro moment member cycles
  rw [none moment member] at cycles
  cases cycles

namespace Scheduler

variable {Time : Type} [Clock Time]

/-- The moments at which a scheduler does some deeds. -/
def moments (scheduler : Scheduler Time) : List (Deed Time) → List (Moment Time)
  | [] => []
  | deed :: deeds => ⟨scheduler, deed⟩ :: (scheduler.perform deed).scheduler.moments deeds

theorem moments_append (scheduler : Scheduler Time) (deeds later : List (Deed Time)) :
    scheduler.moments (deeds ++ later) =
      scheduler.moments deeds ++ (scheduler.performAll deeds).scheduler.moments later := by
  induction deeds generalizing scheduler with
  | nil => rfl
  | cons deed deeds inductionHypothesis =>
      simp only [List.cons_append, moments, performAll, inductionHypothesis]

theorem deed_mem {scheduler : Scheduler Time} {deeds : List (Deed Time)} {moment : Moment Time}
    (member : moment ∈ scheduler.moments deeds) : moment.deed ∈ deeds := by
  induction deeds generalizing scheduler with
  | nil => cases member
  | cons deed deeds inductionHypothesis =>
      rcases List.mem_cons.mp member with rfl | later
      · exact List.mem_cons_self
      · exact List.mem_cons_of_mem deed (inductionHypothesis later)

theorem noCycle_moments (scheduler : Scheduler Time) {deeds : List (Deed Time)}
    (none : ∀ deed ∈ deeds, deed.isCycle = false) :
    ∀ moment ∈ scheduler.moments deeds, moment.deed.isCycle = false :=
  fun moment member => none moment.deed (deed_mem member)

theorem perform_mode (scheduler : Scheduler Time) {deed : Deed Time}
    (silent : deed.command? = none) :
    (scheduler.perform deed).scheduler.running = scheduler.running ∧
      (scheduler.perform deed).scheduler.quit = scheduler.quit := by
  cases deed with
  | obey command now => cases silent
  | dueCycle time | cycle period | dueTick time | tick | publish => exact ⟨rfl, rfl⟩

/-- Only commands pause, resume or end a run. -/
theorem moments_mode {scheduler : Scheduler Time} {deeds : List (Deed Time)}
    (silent : commandsOf deeds = []) {moment : Moment Time}
    (member : moment ∈ scheduler.moments deeds) :
    moment.scheduler.running = scheduler.running ∧ moment.scheduler.quit = scheduler.quit := by
  induction deeds generalizing scheduler with
  | nil => cases member
  | cons deed deeds inductionHypothesis =>
      have none := List.filterMap_eq_nil_iff.mp silent
      have silentLater : commandsOf deeds = [] :=
        List.filterMap_eq_nil_iff.mpr fun later among =>
          none later (List.mem_cons_of_mem deed among)
      rcases List.mem_cons.mp member with rfl | later
      · exact ⟨rfl, rfl⟩
      · obtain ⟨running, quit⟩ := scheduler.perform_mode (none deed List.mem_cons_self)
        obtain ⟨stillRunning, stillAwake⟩ := inductionHypothesis silentLater later
        exact ⟨stillRunning.trans running, stillAwake.trans quit⟩

/-! ## Batches -/

section Batch

variable {period now : Time} {scheduler : Scheduler Time} {batch : Batch Time}

/-- Every cycle of a batch meets a program that does not wait. -/
theorem Batched.awake (batched : Batched period now scheduler batch) {count : Nat}
    (before : count < batch.cycles) :
    ((fun machine => machine.cycle.state)^[count] scheduler.machine).waiting = false := by
  induction batched generalizing count with
  | caughtUp _ => exact absurd before (Nat.not_lt_zero _)
  | exhausted _ => exact absurd before (Nat.not_lt_zero _)
  | awaitingKey _ _ => exact absurd before (Nat.not_lt_zero _)
  | interrupted _ awake _ =>
      obtain rfl := Nat.lt_one_iff.mp before
      exact awake
  | programEnded _ awake _ =>
      obtain rfl := Nat.lt_one_iff.mp before
      exact awake
  | further _ awake _ _ inductionHypothesis =>
      cases count with
      | zero => exact awake
      | succ count =>
          rw [Function.iterate_succ_apply]
          rw [Nat.add_comm 1] at before
          exact inductionHypothesis (Nat.lt_of_succ_lt_succ before)

/-- A batch keeps the discipline, and the program goes on behind it unless it has found the end or
was interrupted. -/
theorem Batched.discipline (batched : Batched period now scheduler batch)
    (running : scheduler.running = true) (quit : scheduler.quit = false) :
    Discipline (scheduler.moments (batch.deeds period now)) ∧
      (¬ batch.ending.Stops →
        ∀ moment ∈ scheduler.moments (batch.deeds period now), moment.GoesOn) := by
  induction batched with
  | caughtUp _ => exact ⟨.nil, fun _ _ member => absurd member List.not_mem_nil⟩
  | exhausted _ => exact ⟨.nil, fun _ _ member => absurd member List.not_mem_nil⟩
  | @awaitingKey scheduler _ _ =>
      have none : ∀ moment ∈ scheduler.moments [.dueCycle (now + period)],
          moment.deed.isCycle = false :=
        noCycle_moments scheduler (List.forall_mem_singleton.mpr rfl)
      refine ⟨.ofNoCycle none ?_, fun _ => Moment.goesOn_of_noCycle none⟩
      exact List.forall_mem_singleton.mpr nofun
  | interrupted _ awake _ => exact ⟨.cycle running quit awake, fun goesOn => absurd trivial goesOn⟩
  | programEnded _ awake _ => exact ⟨.cycle running quit awake, fun goesOn => absurd trivial goesOn⟩
  | @further scheduler rest _ awake answer _ inductionHypothesis =>
      obtain ⟨disciplined, goOn⟩ := inductionHypothesis running quit
      have first : ∀ moment ∈ [(⟨scheduler, .cycle period⟩ : Moment Time)], moment.GoesOn :=
        List.forall_mem_singleton.mpr fun _ => answer
      have deeds : Batch.deeds { rest with
          cycles := 1 + rest.cycles
          log := scheduler.machine.cycle.log ++ rest.log } period now =
          .cycle period :: rest.deeds period now := by
        simp only [Batch.deeds, Nat.add_comm 1, List.replicate_succ, List.cons_append]
      rw [deeds]
      constructor
      · exact Discipline.append (.cycle running quit awake) disciplined (Or.inl first)
      · exact fun goesOn => List.forall_mem_append.mpr ⟨first, goOn goesOn⟩

/-- The instruction that waits for a key is the last one of its batch. -/
theorem Batched.awaitKey_last (batched : Batched period now scheduler batch) {count : Nat}
    {x : Register} (before : count < batch.cycles) :
    let reached := (fun machine => machine.cycle.state)^[count] scheduler.machine
    0x200 ≤ reached.pc → reached.pc ≤ 0xFFD → reached.nextWord.toNat = 0xF00A + 0x100 * x.val →
      count + 1 = batch.cycles ∧ batch.scheduler.machine =
        { reached with opcode := reached.nextWord, waiting := true, waitRegister := x } := by
  intro reached inside room encoded
  have short : reached.pc < programEnd := by
    simp only [programEnd, memorySize]
    omega
  have cycled : reached.cycle.state =
      { reached with opcode := reached.nextWord, waiting := true, waitRegister := x } := by
    rw [Machine.cycle_awaitKey (batched.awake before) inside short encoded]
  have next : (fun machine => machine.cycle.state)^[count + 1] scheduler.machine =
      reached.cycle.state :=
    Function.iterate_succ_apply' _ _ _
  have last : count + 1 = batch.cycles := by
    by_contra different
    have further : count + 1 < batch.cycles := by omega
    have awake := batched.awake further
    rw [next, cycled] at awake
    cases awake
  refine ⟨last, ?_⟩
  rw [batched.machine, ← last, next, cycled]

/-- A batch runs nothing while the program waits. -/
theorem runInstructions_waiting (limit : Nat) (scheduler : Scheduler Time) (now : Time)
    (waiting : scheduler.machine.waiting = true) :
    let batch := scheduler.runInstructions (limit + 1) now
    batch.scheduler.machine = scheduler.machine ∧ batch.cycles = 0 ∧ batch.log = [] ∧
      (batch.ending = .caughtUp ∨ batch.ending = .awaitingKey) := by
  intro batch
  obtain ⟨due, dropped⟩ := scheduler.dropLateCycles_frame now
  have ran : batch =
      cycleUntil scheduler.period now (limit + 1) 0 [] { scheduler with nextCycle := due } := by
    rw [← dropped]
    rfl
  rw [ran, cycleUntil]
  by_cases isDue : due ≤ now
  · simp [isDue, waiting]
  · simp [isDue]

end Batch

/-! ## Turns -/

section Turn

variable {scheduler : Scheduler Time}

theorem moments_running {deeds : List (Deed Time)} (silent : commandsOf deeds = [])
    (running : scheduler.running = true) (quit : scheduler.quit = false) :
    ∀ moment ∈ scheduler.moments deeds, moment.deed.drives = true →
      moment.scheduler.running = true ∧ moment.scheduler.quit = false := by
  intro moment member _
  obtain ⟨sameRunning, sameQuit⟩ := moments_mode silent member
  exact ⟨sameRunning.trans running, sameQuit.trans quit⟩

theorem noCycle_timerDeeds (limit : Nat) (scheduler : Scheduler Time) (now : Time) :
    ∀ deed ∈ scheduler.timerDeeds limit now, deed.isCycle = false := by
  intro deed member
  simp only [timerDeeds, lateTicks, List.mem_append] at member
  rcases member with late | ticked
  · split at late
    · rw [List.mem_singleton.mp late]
      rfl
    · cases late
  · rw [List.eq_of_mem_replicate ticked]
    rfl

theorem runInstructions_frame (limit : Nat) (scheduler : Scheduler Time) (now : Time) :
    ∃ machine due, (scheduler.runInstructions limit now).scheduler =
      { scheduler with machine := machine, nextCycle := due } := by
  obtain ⟨late, dropped⟩ := scheduler.dropLateCycles_frame now
  obtain ⟨machine, due, ran⟩ := (scheduler.runInstructions_batched limit now).frame
  exact ⟨machine, due, by rw [ran, dropped]⟩

theorem discipline_instructionDeeds (limit : Nat) (now : Time) (running : scheduler.running = true)
    (quit : scheduler.quit = false) :
    Discipline (scheduler.moments (scheduler.instructionDeeds limit now)) ∧
      (¬ (scheduler.runInstructions limit now).ending.Stops →
        ∀ moment ∈ scheduler.moments (scheduler.instructionDeeds limit now), moment.GoesOn) := by
  obtain ⟨due, dropped⟩ := scheduler.dropLateCycles_frame now
  have stillRunning : (scheduler.dropLateCycles now).running = true := by
    rw [dropped]
    exact running
  have stillAwake : (scheduler.dropLateCycles now).quit = false := by
    rw [dropped]
    exact quit
  obtain ⟨disciplined, goOn⟩ :=
    (scheduler.runInstructions_batched limit now).discipline stillRunning stillAwake
  have none : ∀ deed ∈ scheduler.lateCycles now, deed.isCycle = false := by
    intro deed member
    rw [lateCycles] at member
    split at member
    · rw [List.mem_singleton.mp member]
      rfl
    · cases member
  have silent : commandsOf (scheduler.lateCycles now) = [] := by
    rw [lateCycles]
    split <;> rfl
  have late := Moment.goesOn_of_noCycle (noCycle_moments scheduler none)
  rw [instructionDeeds, moments_append, performAll_lateCycles]
  constructor
  · have first := moments_running silent running quit
    exact Discipline.append (.ofNoCycle (noCycle_moments _ none) first) disciplined (Or.inl late)
  · exact fun goesOn => List.forall_mem_append.mpr ⟨late, goOn goesOn⟩

theorem discipline_catchUpDeeds (limit : Nat) (now : Time) (quit : scheduler.quit = false) :
    Discipline (scheduler.moments (scheduler.catchUpDeeds limit now)) ∧
      ((scheduler.catchUp limit now).2.1 = none →
        ∀ moment ∈ scheduler.moments (scheduler.catchUpDeeds limit now), moment.GoesOn) := by
  cases running : scheduler.running with
  | false =>
      simp only [catchUpDeeds, running, Bool.false_eq_true, if_false]
      exact ⟨.nil, fun _ _ member => absurd member List.not_mem_nil⟩
  | true =>
      obtain ⟨first, goOn⟩ :=
        discipline_instructionDeeds limit now running quit
      have ran := scheduler.performAll_instructionDeeds limit now
      obtain ⟨machine, due, frame⟩ := scheduler.runInstructions_frame limit now
      simp only [catchUp, catchUpDeeds, running, if_true]
      generalize scheduler.runInstructions limit now = batch at first goOn ran frame ⊢
      have none := noCycle_timerDeeds limit batch.scheduler now
      have silent := commandsOf_timerDeeds limit batch.scheduler now
      have stillRunning : batch.scheduler.running = true := by
        rw [frame]
        exact running
      have stillAwake : batch.scheduler.quit = false := by
        rw [frame]
        exact quit
      have second : Discipline (batch.scheduler.moments (batch.scheduler.timerDeeds limit now)) :=
        .ofNoCycle (noCycle_moments _ none) (moments_running silent stillRunning stillAwake)
      have both := first.append second (Or.inr (noCycle_moments _ none))
      have ticksGoOn := Moment.goesOn_of_noCycle (noCycle_moments batch.scheduler none)
      cases ending : batch.ending with
      | interrupted interruption | exhausted =>
          exact ⟨by simpa using first, fun goesOn => by cases goesOn⟩
      | caughtUp | awaitingKey =>
          rw [moments_append, ran]
          have bothGoOn := goOn (by rw [ending]; exact id)
          exact ⟨both, fun _ => List.forall_mem_append.mpr ⟨bothGoOn, ticksGoOn⟩⟩
      | programEnded =>
          rw [moments_append, ran]
          refine ⟨both, fun goesOn => ?_⟩
          dsimp only at goesOn
          split at goesOn <;> cases goesOn

omit [Clock Time] in
theorem noCycle_of_idle {deeds : List (Deed Time)} (idle : ∀ deed ∈ deeds, deed.drives = false) :
    ∀ deed ∈ deeds, deed.isCycle = false := by
  intro deed member
  have drives := idle deed member
  cases deed with
  | cycle period => cases drives
  | obey _ _ | dueCycle _ | dueTick _ | tick | publish => rfl

/-- Deeds that leave the machine to itself keep the discipline. -/
theorem discipline_idle (scheduler : Scheduler Time) {deeds : List (Deed Time)}
    (idle : ∀ deed ∈ deeds, deed.drives = false) :
    Discipline (scheduler.moments deeds) ∧
      ∀ moment ∈ scheduler.moments deeds, moment.GoesOn := by
  have none := noCycle_of_idle idle
  refine ⟨.ofNoCycle (noCycle_moments _ none) ?_, Moment.goesOn_of_noCycle (noCycle_moments _ none)⟩
  intro moment member drives
  rw [idle moment.deed (deed_mem member)] at drives
  cases drives

theorem discipline_workDeeds (limit : Nat) (now : Time) (quit : scheduler.quit = false) :
    Discipline (scheduler.moments (scheduler.workDeeds limit now)) ∧
      ((scheduler.catchUp limit now).2.1 = none →
        ∀ moment ∈ scheduler.moments (scheduler.workDeeds limit now), moment.GoesOn) := by
  obtain ⟨first, goOn⟩ := discipline_catchUpDeeds limit now quit
  obtain ⟨told, split, idle⟩ : ∃ told,
      scheduler.workDeeds limit now = scheduler.catchUpDeeds limit now ++ told ∧
        ∀ deed ∈ told, deed.drives = false := by
    refine ⟨_, rfl, ?_⟩
    split <;> simp [Deed.drives]
  obtain ⟨second, toldGoesOn⟩ :=
    (scheduler.performAll (scheduler.catchUpDeeds limit now)).scheduler.discipline_idle idle
  have none : ∀ deed ∈ told, deed.isCycle = false := noCycle_of_idle idle
  rw [split, moments_append]
  constructor
  · exact first.append second (Or.inr (noCycle_moments _ none))
  · exact fun goesOn => List.forall_mem_append.mpr ⟨goOn goesOn, toldGoesOn⟩

/-- A turn keeps the discipline, and the program goes on behind a turn that is not the last one. -/
theorem discipline_turnDeeds (limit : Nat) (scheduler : Scheduler Time) (inbox : List Command)
    (now : Time) :
    Discipline (scheduler.moments (scheduler.turnDeeds limit inbox now)) ∧
      ((scheduler.turn limit inbox now).ending = none →
        ∀ moment ∈ scheduler.moments (scheduler.turnDeeds limit inbox now), moment.GoesOn) := by
  obtain ⟨_, obeyed⟩ := scheduler.drain_deeds inbox now
  have idle : ∀ deed ∈ (obeying (scheduler.obeyed inbox now) now : List (Deed Time)),
      deed.drives = false := by
    intro deed member
    obtain ⟨command, _, rfl⟩ := List.mem_map.mp member
    rfl
  obtain ⟨first, obeyedGoesOn⟩ := scheduler.discipline_idle idle
  rw [turnDeeds, moments_append, obeyed]
  simp only [turn]
  generalize scheduler.drain now inbox.length inbox = drained
  cases drained.answer with
  | error error =>
      exact ⟨first.append .nil (Or.inl obeyedGoesOn), fun goesOn => by cases goesOn⟩
  | ok _ =>
      cases quit : drained.state.1.quit with
      | true => exact ⟨first.append .nil (Or.inl obeyedGoesOn), fun goesOn => by cases goesOn⟩
      | false =>
          obtain ⟨second, goOn⟩ := discipline_workDeeds limit now quit
          refine ⟨first.append second (Or.inl obeyedGoesOn), fun goesOn => ?_⟩
          have reached : (drained.state.1.catchUp limit now).2.1 = none := by
            simp only [Bool.false_eq_true, if_false] at goesOn
            generalize drained.state.1.catchUp limit now = reached at goesOn ⊢
            obtain ⟨caughtUp, ending, log⟩ := reached
            cases ending with
            | none => rfl
            | some ending => cases ending <;> cases goesOn
          exact List.forall_mem_append.mpr ⟨obeyedGoesOn, goOn reached⟩

end Turn

/-! ## Runs -/

theorem discipline_history (limit : Nat) (scheduler : Scheduler Time) (inbox : List Command)
    (ticks : List (Tick Time)) :
    Discipline (scheduler.moments (scheduler.history limit inbox ticks).flatten) := by
  induction ticks generalizing scheduler inbox with
  | nil => exact .nil
  | cons tick ticks inductionHypothesis =>
      obtain ⟨first, goOn⟩ :=
        discipline_turnDeeds limit scheduler (inbox ++ tick.arrivals) tick.now
      obtain ⟨reached, _⟩ := scheduler.turn_deeds limit (inbox ++ tick.arrivals) tick.now
      simp only [history, List.flatten_cons, moments_append]
      rw [← reached]
      cases ending : (scheduler.turn limit (inbox ++ tick.arrivals) tick.now).ending with
      | some ending => simpa [moments] using first
      | none => exact first.append (inductionHypothesis _ _) (Or.inl (goOn ending))

theorem moments_split (scheduler : Scheduler Time) (earlier : List (Deed Time))
    (deed : Deed Time) (later : List (Deed Time)) :
    scheduler.moments (earlier ++ deed :: later) =
      scheduler.moments earlier ++ ⟨(scheduler.performAll earlier).scheduler, deed⟩ ::
        (scheduler.performAll (earlier ++ [deed])).scheduler.moments later := by
  rw [moments_append, scheduler_performAll_append, performAll_singleton]
  rfl

theorem moment_mem_of_split {scheduler : Scheduler Time} {deeds earlier later : List (Deed Time)}
    {deed : Deed Time} (split : deeds = earlier ++ deed :: later) :
    ⟨(scheduler.performAll earlier).scheduler, deed⟩ ∈ scheduler.moments deeds := by
  rw [split, moments_split]
  exact List.mem_append_right _ List.mem_cons_self

/-- A machine is driven only by a scheduler that runs and has not been asked to quit.  Whenever a
run cycles the machine, the program does not wait, and no cycle before has found the program at its
end or was interrupted.  A batch that begins while the program waits runs nothing, and an
instruction that waits for a key is the last one of its batch. -/
theorem machine_driven_with_discipline (scheduler : Scheduler Time) :
    (∀ (limit : Nat) (began : Time) (inbox : List Command) (ticks : List (Tick Time)),
      let begun := (scheduler.begin began).1
      let run := begun.turns limit inbox ticks
      let history := begun.history limit inbox ticks
      history.length = run.length ∧
      (∀ (index : Nat) (turn : Turn Time), run[index]? = some turn →
        let done := begun.performAll (history.take (index + 1)).flatten
        done.scheduler = turn.scheduler ∧
          messagesOf (run.take (index + 1)) = done.messages ++ farewell turn.ending) ∧
      (∀ (earlier : List (Deed Time)) (period : Time) (later : List (Deed Time)),
        history.flatten = earlier ++ .cycle period :: later →
        let reached := (begun.performAll earlier).scheduler
        reached.running = true ∧ reached.quit = false ∧ reached.machine.waiting = false ∧
          ∀ (before : List (Deed Time)) (earlierPeriod : Time) (between : List (Deed Time)),
            earlier = before ++ .cycle earlierPeriod :: between →
              (begun.performAll before).scheduler.machine.cycle.answer = .ok false) ∧
      ∀ earlier later : List (Deed Time), history.flatten = earlier ++ .tick :: later →
        let reached := (begun.performAll earlier).scheduler
        reached.running = true ∧ reached.quit = false) ∧
    ∀ (limit : Nat) (now : Time),
      let batch := scheduler.runInstructions (limit + 1) now
      (scheduler.machine.waiting = true →
        batch.scheduler.machine = scheduler.machine ∧ batch.cycles = 0 ∧ batch.log = [] ∧
          (batch.ending = .caughtUp ∨ batch.ending = .awaitingKey)) ∧
      ∀ (count : Nat) (x : Register), count < batch.cycles →
        let reached := (fun machine => machine.cycle.state)^[count] scheduler.machine
        0x200 ≤ reached.pc → reached.pc ≤ 0xFFD →
          reached.nextWord.toNat = 0xF00A + 0x100 * x.val →
            count + 1 = batch.cycles ∧ batch.scheduler.machine =
              { reached with opcode := reached.nextWord, waiting := true, waitRegister := x } := by
  constructor
  · intro limit began inbox ticks begun run history
    have disciplined := discipline_history limit begun inbox ticks
    refine ⟨length_history, fun index turn met => performAll_history met, ?_, ?_⟩
    · intro earlier period later split reached
      have member : ⟨reached, .cycle period⟩ ∈ begun.moments history.flatten :=
        moment_mem_of_split split
      obtain ⟨running, quit⟩ := disciplined.running _ member rfl
      refine ⟨running, quit, disciplined.awake _ member rfl, ?_⟩
      intro before earlierPeriod between earlierSplit
      have pairs := disciplined.goesOn
      rw [show (begun.history limit inbox ticks).flatten = _ from split, moments_split] at pairs
      obtain ⟨_, _, goOn⟩ := List.pairwise_append.mp pairs
      exact goOn _ (moment_mem_of_split earlierSplit) _ List.mem_cons_self rfl rfl
    · intro earlier later split reached
      exact disciplined.running _ (moment_mem_of_split split) rfl
  · intro limit now batch
    have batched := scheduler.runInstructions_batched (limit + 1) now
    obtain ⟨due, dropped⟩ := scheduler.dropLateCycles_frame now
    rw [dropped] at batched
    exact ⟨scheduler.runInstructions_waiting limit now,
      fun count x before => batched.awaitKey_last before⟩

/-- A program waits for a key in the middle of a batch, is given one, and ends. -/
theorem machine_driven_with_discipline_to_the_end :
    let program : List Byte := [0x60, 0x01, 0xF2, 0x0A, 0x1F, 0xFE]
    let machine := ((Machine.powerOn (.whole 600) false (.ofScript [])).load program).state
    let scheduler : Scheduler Rat := (start machine program true).1
    let ticks : List (Tick Rat) := [⟨0, []⟩, ⟨1 / 60, []⟩, ⟨1 / 30, [.setKey 5 true]⟩]
    let begun := (scheduler.begin 0).1
    let history := begun.history 10 [] ticks
    let first : List (Deed Rat) := [.cycle (1 / 600), .publish]
    let second : List (Deed Rat) := [.cycle (1 / 600), .dueCycle (11 / 600)]
    let third : List (Deed Rat) := [.obey (.setKey 5 true) (1 / 30), .cycle (1 / 600)]
    let loaded := (begun.performAll first).scheduler
    let batch := loaded.runInstructions 10 (1 / 60)
    let idle := batch.scheduler.runInstructions 10 (1 / 30)
    let last := (begun.performAll (first ++ second ++ [.tick, .publish] ++ third)).scheduler
    history = [first, second ++ [.tick, .publish], third ++ [.cycle (1 / 600), .tick, .publish]] ∧
      (begun.turns 10 [] ticks).length = 3 ∧
      last.machine.waiting = false ∧ last.machine.cycle.answer = .ok true ∧
      loaded.machine.cycle.answer = .ok false ∧
      (begun.performAll (first ++ second)).scheduler.running = true ∧
      batch.cycles = 1 ∧ batch.scheduler.machine.waiting = true ∧
      batch.scheduler.machine.waitRegister = 2 ∧
      idle.scheduler.machine = batch.scheduler.machine ∧ idle.cycles = 0 := by
  intro program machine scheduler ticks begun history first second third loaded batch idle last
  have done : history =
      [first, second ++ [.tick, .publish], third ++ [.cycle (1 / 600), .tick, .publish]] := by
    decide +kernel
  obtain ⟨runs, _⟩ := machine_driven_with_discipline scheduler
  obtain ⟨turns, _, cycles, drivenTicks⟩ := runs 10 0 [] ticks
  have length : history.length = 3 := by rw [done]; rfl
  have whole : history.flatten = (first ++ second ++ [.tick, .publish] ++ third) ++
      .cycle (1 / 600) :: [.tick, .publish] := by
    rw [done]
    rfl
  have ticked : history.flatten = (first ++ second) ++
      .tick :: ([.publish] ++ third ++ [.cycle (1 / 600), .tick, .publish]) := by
    rw [done]
    rfl
  obtain ⟨_, _, awake, goOn⟩ := cycles _ _ _ whole
  obtain ⟨running, _⟩ := drivenTicks _ _ ticked
  have goesOn : loaded.machine.cycle.answer = .ok false :=
    goOn first (1 / 600) ([.dueCycle (11 / 600), .tick, .publish] ++ third) rfl
  obtain ⟨_, batches⟩ := machine_driven_with_discipline loaded
  obtain ⟨before, inside, room, encoded⟩ : 0 < batch.cycles ∧ 0x200 ≤ loaded.machine.pc ∧
      loaded.machine.pc ≤ 0xFFD ∧
      loaded.machine.nextWord.toNat = 0xF00A + 0x100 * (2 : Register).val := by
    decide +kernel
  obtain ⟨one, awaits⟩ := (batches 9 (1 / 60)).2 0 2 before inside room encoded
  have waiting : batch.scheduler.machine.waiting = true := congrArg Machine.waiting awaits
  obtain ⟨_, waits⟩ := machine_driven_with_discipline batch.scheduler
  obtain ⟨same, none, _, _⟩ := (waits 9 (1 / 30)).1 waiting
  exact ⟨done, turns.symm.trans length, awake, by decide +kernel, goesOn, running, one.symm,
    waiting, congrArg Machine.waitRegister awaits, same, none⟩

end Scheduler

end ChipEight
