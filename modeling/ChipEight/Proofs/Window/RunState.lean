import ChipEight.Proofs.Scheduler.Discipline
import ChipEight.Proofs.Scheduler.KeyWait
import ChipEight.Proofs.Scheduler.View
import ChipEight.Window.Session

/-!
# The run state of the window and of the scheduler

The window and the scheduler both keep whether the run goes on, and only the scheduler's answer to a
request brings them together again.  They are `Agreed` as long as the requests that are under way go
to and fro, beginning with a change of what the scheduler keeps and ending with what the window
keeps.  Whatever the two do beside each other keeps them agreed, so that no request is redundant.
-/

namespace ChipEight

/-- What is asked of the run state in a queue, in order. -/
def asksOf (commands : List Command) : List Bool :=
  commands.filterMap fun command =>
    match command with
    | .setRunning running => some running
    | _ => none

theorem asksOf_append (commands later : List Command) :
    asksOf (commands ++ later) = asksOf commands ++ asksOf later :=
  List.filterMap_append

/-- Values that go to and fro go on with the opposite of the last one. -/
theorem Alternates.concat {first : Bool} {values : List Bool}
    (alternates : Alternates first values) :
    Alternates first (values ++ [!(values.getLast?.getD !first)]) := by
  induction values generalizing first with
  | nil => exact ⟨by simp, trivial⟩
  | cons value values inductionHypothesis =>
      obtain ⟨rfl, later⟩ := alternates
      have last := inductionHypothesis later
      rw [Bool.not_not] at last
      rw [List.getLast?_cons]
      exact ⟨rfl, last⟩

/-! ## Events of the window -/

section Events

variable (layout : KeyboardLayout) (running : Bool) (event : WindowEvent)

/-- An event changes the run state and asks for the change, or causes other commands. -/
theorem WindowEvent.commands_cases :
    event.commands layout running = (!running, [.setRunning !running]) ∨
      ∃ commands, event.commands layout running = (running, commands) ∧
        ∀ command ∈ commands, command = .quit ∨ command = .reset ∨
          ∃ (key : Key) (pressed : Bool), command = .setKey key.val pressed := by
  have keysOnly : ∀ (code : KeyCode) (pressed : Bool),
      ∀ command ∈ (layout.key? code).toList.map fun key => Command.setKey key.val pressed,
        command = .quit ∨ command = .reset ∨
          ∃ (key : Key) (down : Bool), command = .setKey key.val down := by
    intro code pressed command member
    obtain ⟨key, _, rfl⟩ := List.mem_map.mp member
    exact Or.inr (Or.inr ⟨key, pressed, rfl⟩)
  cases event with
  | closed => exact Or.inr ⟨[.quit], rfl, by simp⟩
  | other => exact Or.inr ⟨[], rfl, by simp⟩
  | keyUp code => exact Or.inr ⟨_, rfl, keysOnly code false⟩
  | keyDown code =>
      simp only [commands]
      by_cases escapes : code = escapeCode
      · exact Or.inr ⟨[.quit], if_pos escapes, by simp⟩
      · by_cases pauses : code = pauseCode
        · exact Or.inl (by rw [if_neg escapes, if_pos pauses])
        · by_cases restarts : code = restartCode
          · exact Or.inr ⟨[.reset], by rw [if_neg escapes, if_neg pauses, if_pos restarts], by simp⟩
          · exact Or.inr ⟨_, by rw [if_neg escapes, if_neg pauses, if_neg restarts],
              keysOnly code true⟩

/-- An event names keys of the keypad only. -/
theorem WindowEvent.commands_keys {index : Int} {pressed : Bool}
    (sent : .setKey index pressed ∈ (event.commands layout running).2) :
    ∃ key : Key, index = key.val := by
  rcases event.commands_cases layout running with asks | ⟨commands, same, others⟩
  · simp [asks] at sent
  · rw [same] at sent
    rcases others _ sent with never | never | ⟨key, _, named⟩
    · cases never
    · cases never
    · cases named
      exact ⟨key, rfl⟩

end Events

variable {Time : Type} [Clock Time]

/-! ## One command -/

/-- The command of a moment is not for nothing: a request to pause or to resume changes the run
state, a resumed run starts its clocks anew, and a key event names a key. -/
structure Moment.Heeded (moment : Moment Time) (now : Time) : Prop where
  changes (running : Bool) : moment.deed = .obey (.setRunning running) now →
    let reached := (moment.scheduler.perform moment.deed).scheduler
    running ≠ moment.scheduler.running ∧ reached.running = running ∧
      (running = true →
        reached.nextCycle = now ∧ reached.nextTimer = now + Clock.timerPeriod)
  named (index : Int) : .invalidKey index ∉ (moment.scheduler.perform moment.deed).log

namespace Scheduler

variable {scheduler : Scheduler Time} {command : Command}

theorem handle_running (scheduler : Scheduler Time)
    (other : ∀ running, command ≠ .setRunning running) (now : Time) :
    (scheduler.handle command now).state.running = scheduler.running := by
  cases command with
  | setRunning running => exact absurd rfl (other running)
  | setKey index pressed =>
      obtain ⟨_, _, frame⟩ := scheduler.handleKey_frame index pressed
      simp only [handle, frame]
  | reset =>
      simp only [handle, reload]
      split <;> rfl
  | quit => rfl
  | stray text => rfl
  | unwritable reason => rfl

theorem setRunning_changes {running : Bool} (change : running ≠ scheduler.running) (now : Time) :
    let reached := (scheduler.setRunning running now).1
    reached.running = running ∧
      (running = true →
        reached.nextCycle = now ∧ reached.nextTimer = now + Clock.timerPeriod) := by
  rw [setRunning, if_neg change]
  cases running with
  | true => exact ⟨rfl, fun _ => ⟨rfl, rfl⟩⟩
  | false => exact ⟨rfl, fun resumes => by cases resumes⟩

omit [Clock Time] in
/-- A key event that names a key is not reported as invalid. -/
theorem handleKey_log (scheduler : Scheduler Time) (key : Key) (pressed : Bool) (index : Int) :
    .invalidKey index ∉ (scheduler.handleKey key.val pressed).log := by
  simp only [handleKey, Key.ofIndex?_val]
  cases pressed with
  | false => simp
  | true =>
      simp only [if_true, pressKey, Machine.endWait]
      split
      · split <;> simp
      · simp

theorem handle_log (named : ∀ index pressed, command = .setKey index pressed →
    ∃ key : Key, index = key.val) (now : Time) (index : Int) :
    .invalidKey index ∉ (scheduler.handle command now).log := by
  cases command with
  | setRunning running =>
      simp only [handle, setRunning]
      split
      · simp
      · split <;> simp
  | setKey number pressed =>
      obtain ⟨key, rfl⟩ := named number pressed rfl
      exact scheduler.handleKey_log key pressed index
  | reset =>
      have loaded : .invalidKey index ∉ (scheduler.machine.reset.load scheduler.program).log := by
        rw [Machine.load]
        split <;> simp
      simp only [handle, reload]
      split <;> simp [loaded]
  | quit => simp [handle]
  | stray text => simp [handle]
  | unwritable reason => simp [handle]

/-! ## Agreement -/

/-- The requests under way lead from the run state of the scheduler to that of the window, and the
key events among them name keys. -/
structure Agreed (scheduler : Scheduler Time) (inbox : List Command) (running : Bool) : Prop where
  alternates : Alternates (!scheduler.running) (asksOf inbox)
  last : running = (asksOf inbox).getLast?.getD scheduler.running
  keys (index : Int) (pressed : Bool) : .setKey index pressed ∈ inbox → ∃ key : Key, index = key.val

namespace Agreed

variable {inbox rest commands : List Command} {running : Bool}

omit [Clock Time] in
/-- The commands of an event are sent. -/
theorem send (agreed : Agreed scheduler inbox running) (layout : KeyboardLayout)
    (event : WindowEvent) :
    Agreed scheduler (inbox ++ (event.commands layout running).2)
      (event.commands layout running).1 := by
  have keys : ∀ (index : Int) (pressed : Bool),
      .setKey index pressed ∈ inbox ++ (event.commands layout running).2 →
        ∃ key : Key, index = key.val := by
    intro index pressed member
    rcases List.mem_append.mp member with earlier | sent
    · exact agreed.keys index pressed earlier
    · exact event.commands_keys layout running sent
  rcases event.commands_cases layout running with asks | ⟨commands, same, others⟩
  · have further := agreed.alternates.concat
    rw [Bool.not_not, ← agreed.last] at further
    rw [asks] at keys ⊢
    refine ⟨?_, ?_, keys⟩
    · rw [asksOf_append]
      exact further
    · rw [asksOf_append]
      simp [asksOf]
  · have silent : asksOf commands = [] := by
      refine List.filterMap_eq_nil_iff.mpr fun command member => ?_
      rcases others command member with rfl | rfl | ⟨key, pressed, rfl⟩ <;> rfl
    rw [same] at keys ⊢
    refine ⟨?_, ?_, keys⟩
    · rw [asksOf_append, silent, List.append_nil]
      exact agreed.alternates
    · rw [asksOf_append, silent, List.append_nil]
      exact agreed.last

/-- The next command is obeyed. -/
theorem handle (agreed : Agreed scheduler (command :: inbox) running) (now : Time) :
    Agreed (scheduler.handle command now).state inbox running ∧
      Moment.Heeded ⟨scheduler, .obey command now⟩ now := by
  have keys : ∀ (index : Int) (pressed : Bool), .setKey index pressed ∈ inbox →
      ∃ key : Key, index = key.val :=
    fun index pressed member => agreed.keys index pressed (List.mem_cons_of_mem command member)
  have named : ∀ index, .invalidKey index ∉ (scheduler.handle command now).log :=
    handle_log (fun index pressed same => agreed.keys index pressed (same ▸ List.mem_cons_self)) now
  by_cases asks : ∃ asked, command = .setRunning asked
  · obtain ⟨asked, rfl⟩ := asks
    obtain ⟨flips, later⟩ : asked = !scheduler.running ∧ Alternates (!asked) (asksOf inbox) := by
      obtain ⟨rfl, later⟩ := agreed.alternates
      exact ⟨rfl, later⟩
    have change : asked ≠ scheduler.running := by
      rw [flips]
      exact Bool.not_ne_self scheduler.running
    obtain ⟨reached, clocks⟩ := scheduler.setRunning_changes change now
    refine ⟨⟨?_, ?_, keys⟩, ?_, named⟩
    · rwa [show (scheduler.handle (.setRunning asked) now).state.running = asked from reached]
    · rw [show (scheduler.handle (.setRunning asked) now).state.running = asked from reached]
      have last := agreed.last
      rw [show asksOf (.setRunning asked :: inbox) = asked :: asksOf inbox from rfl,
        List.getLast?_cons] at last
      exact last
    · intro running same
      cases same
      exact ⟨change, reached, clocks⟩
  · have other : ∀ asked, command ≠ .setRunning asked := fun asked same => asks ⟨asked, same⟩
    have quiet : asksOf (command :: inbox) = asksOf inbox := by
      refine List.filterMap_cons_none ?_
      split
      next asked => exact absurd rfl (other asked)
      next => rfl
    have same := scheduler.handle_running other now
    refine ⟨⟨?_, ?_, keys⟩, ?_, named⟩
    · rw [same, ← quiet]
      exact agreed.alternates
    · rw [same, ← quiet]
      exact agreed.last
    · intro asked same
      cases same
      exact absurd rfl (other asked)

/-- Some commands are obeyed in turn. -/
theorem obeying (agreed : Agreed scheduler (commands ++ rest) running) (now : Time) :
    Agreed (scheduler.performAll (ChipEight.obeying commands now)).scheduler rest running ∧
      ∀ moment ∈ scheduler.moments (ChipEight.obeying commands now), moment.Heeded now := by
  induction commands generalizing scheduler with
  | nil => exact ⟨agreed, fun _ member => absurd member List.not_mem_nil⟩
  | cons command commands inductionHypothesis =>
      obtain ⟨still, heeded⟩ := agreed.handle now
      obtain ⟨last, laterHeeded⟩ := inductionHypothesis still
      exact ⟨last, List.forall_mem_cons.mpr ⟨heeded, laterHeeded⟩⟩

theorem drain (agreed : Agreed scheduler inbox running) (count : Nat) (now : Time) :
    let drained := scheduler.drain now count inbox
    Agreed drained.state.1 drained.state.2 running ∧
      ∃ handled, inbox = handled ++ drained.state.2 ∧
        scheduler.performAll (ChipEight.obeying handled now) =
          ⟨drained.state.1, [], drained.log⟩ ∧
        ∀ moment ∈ scheduler.moments (ChipEight.obeying handled now), moment.Heeded now := by
  intro drained
  obtain ⟨handled, split, performed⟩ := (drain_drained now count scheduler inbox).deeds
  rw [split] at agreed
  obtain ⟨last, heeded⟩ := agreed.obeying now
  rw [performed] at last
  exact ⟨last, handled, split, performed, heeded⟩

end Agreed

end Scheduler

/-! ## Window and scheduler beside each other -/

/-- What the window or the scheduler does next. -/
inductive Exchange (Time : Type) where
  /-- The window finds an event and sends its commands. -/
  | event (event : WindowEvent)
  /-- The scheduler obeys commands that have arrived, at most a number of them. -/
  | drain (count : Nat) (now : Time)
  /-- The scheduler does something else than to obey. -/
  | work (deed : Deed Time)

namespace Session

def exchange (layout : KeyboardLayout) (session : Session Time) : Exchange Time → Session Time
  | .event event =>
      let (running, commands) := event.commands layout session.running
      { session with running := running, inbox := session.inbox ++ commands }
  | .drain count now =>
      let drained := session.scheduler.drain now count session.inbox
      { session with scheduler := drained.state.1, inbox := drained.state.2 }
  | .work deed =>
      match deed.command? with
      | none => { session with scheduler := (session.scheduler.perform deed).scheduler }
      | some _ => session

def exchanges (layout : KeyboardLayout) (session : Session Time)
    (exchanges : List (Exchange Time)) : Session Time :=
  exchanges.foldl (exchange layout) session

variable {session : Session Time} {layout : KeyboardLayout}

theorem exchange_agreed (agreed : session.scheduler.Agreed session.inbox session.running)
    (next : Exchange Time) :
    let reached := session.exchange layout next
    reached.scheduler.Agreed reached.inbox reached.running := by
  cases next with
  | event event => exact agreed.send layout event
  | drain count now => exact (agreed.drain count now).1
  | work deed =>
      simp only [exchange]
      cases silent : deed.command? with
      | some command => exact agreed
      | none =>
          have same := (session.scheduler.perform_mode silent).1
          exact ⟨by rw [same]; exact agreed.alternates, by rw [same]; exact agreed.last,
            agreed.keys⟩

theorem exchanges_agreed (agreed : session.scheduler.Agreed session.inbox session.running)
    (exchanges : List (Exchange Time)) :
    let reached := session.exchanges layout exchanges
    reached.scheduler.Agreed reached.inbox reached.running := by
  induction exchanges generalizing session with
  | nil => exact agreed
  | cons next later inductionHypothesis => exact inductionHypothesis (exchange_agreed agreed next)

/-- Whatever window and scheduler do beside each other, the window keeps what it asked for last, and
the scheduler will have it once it has obeyed.  The window sends key events of the keypad only, and
however many of its commands the scheduler obeys, none is for nothing. -/
theorem run_state_agreed (layout : KeyboardLayout) (scheduler : Scheduler Time)
    (exchanges : List (Exchange Time)) :
    let begun : Session Time := ⟨scheduler, [], [], false, scheduler.running⟩
    let session := begun.exchanges layout exchanges
    session.running = (asksOf session.inbox).getLast?.getD session.scheduler.running ∧
    (∀ (event : WindowEvent) (index : Int) (pressed : Bool),
      .setKey index pressed ∈ (event.commands layout session.running).2 →
        0 ≤ index ∧ index ≤ 15) ∧
    ∀ (count : Nat) (now : Time),
      let drained := session.scheduler.drain now count session.inbox
      ∃ handled, session.inbox = handled ++ drained.state.2 ∧
        session.scheduler.performAll (obeying handled now) =
          ⟨drained.state.1, [], drained.log⟩ ∧
        ∀ moment ∈ session.scheduler.moments (obeying handled now), moment.Heeded now := by
  intro begun session
  have start : begun.scheduler.Agreed begun.inbox begun.running :=
    ⟨trivial, rfl, fun _ _ member => absurd member List.not_mem_nil⟩
  have agreed : session.scheduler.Agreed session.inbox session.running :=
    exchanges_agreed start exchanges
  refine ⟨agreed.last, ?_, fun count now => (agreed.drain count now).2⟩
  intro event index pressed sent
  obtain ⟨key, rfl⟩ := event.commands_keys layout session.running sent
  omega

end Session

end ChipEight
