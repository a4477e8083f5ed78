import ChipEight.Proofs.Instruction.Words
import ChipEight.Proofs.Machine.Control
import ChipEight.Proofs.Machine.FaultingWords

/-!
# Pending calls

A stack of call sites is kept from outside the machine: each call that is carried out pushes the
address at which it stands, and each return pops one.  `pendingCalls_after` says that the machine
keeps the same stack, whatever it is asked to do before its next reset.  Whoever calls a subroutine
with as many calls as returns finds the pending calls as they were.
-/

namespace ChipEight

/-- A word that a machine carried out, with the address at which it stood. -/
structure CarriedOut where
  site : Int
  word : Opcode
  deriving DecidableEq

/-- What a word does to a stack of call sites, the latest one first. -/
def book (calls : List Int) (entry : CarriedOut) : List Int :=
  if entry.word.kind = 0x2 then entry.site :: calls
  else if entry.word = 0x00EE then calls.tail
  else calls

/-- Every call among the words is followed by its return, and every return belongs to a call. -/
inductive Balanced : List CarriedOut → Prop
  | empty : Balanced []
  | other {entry : CarriedOut} {rest : List CarriedOut} :
      entry.word.kind ≠ 0x2 → entry.word ≠ 0x00EE → Balanced rest → Balanced (entry :: rest)
  | nested {call ret : CarriedOut} {inner rest : List CarriedOut} :
      call.word.kind = 0x2 → Balanced inner → ret.word = 0x00EE → Balanced rest →
      Balanced (call :: (inner ++ ret :: rest))

theorem book_call {entry : CarriedOut} (calls : List Int) (call : entry.word.kind = 0x2) :
    book calls entry = entry.site :: calls :=
  if_pos call

theorem book_ret {entry : CarriedOut} (calls : List Int) (ret : entry.word = 0x00EE) :
    book calls entry = calls.tail := by
  have kind : entry.word.kind ≠ 0x2 := by
    rw [ret]
    decide
  rw [book, if_neg kind, if_pos ret]

theorem book_other {entry : CarriedOut} (calls : List Int) (call : entry.word.kind ≠ 0x2)
    (ret : entry.word ≠ 0x00EE) : book calls entry = calls := by
  rw [book, if_neg call, if_neg ret]

/-- A balanced stretch leaves the book as it found it: its calls are closed in it. -/
theorem Balanced.book {entries : List CarriedOut} (balanced : Balanced entries)
    (calls : List Int) : entries.foldl book calls = calls := by
  induction balanced generalizing calls with
  | empty => rfl
  | other call ret _ rest =>
      rw [List.foldl_cons, book_other calls call ret]
      exact rest calls
  | nested call _ ret _ inner rest =>
      rw [List.foldl_cons, List.foldl_append, List.foldl_cons, book_call calls call, inner,
        book_ret _ ret]
      exact rest calls

/-- A word that encodes neither a call nor a return books nothing. -/
theorem book_straight {word : Opcode}
    (call : ∀ target, Instruction.ofOpcode? word ≠ some (.call target))
    (ret : Instruction.ofOpcode? word ≠ some .ret) (calls : List Int) (site : Int) :
    book calls ⟨site, word⟩ = calls := by
  apply book_other
  · intro kind
    apply call word.address
    simp [Instruction.ofOpcode?, show word.kind = 0x2 from kind]
  · rintro rfl
    exact ret rfl

namespace Machine

/-! ## One instruction -/

section Instruction

variable {machine done : Machine}

theorem pendingCalls_congr (stack : done.stack = machine.stack)
    (depth : done.depth = machine.depth) : done.pendingCalls = machine.pendingCalls := by
  simp only [pendingCalls, stack, depth]

theorem length_pendingCalls (machine : Machine) :
    machine.pendingCalls.length = machine.depth.val := by
  rw [pendingCalls, List.length_take, Vector.length_toList]
  omega

/-- A call writes the slot above the pending ones and leaves those below alone. -/
theorem pendingCalls_push (free : machine.depth.val < stackDepth)
    (stack : done.stack = machine.stack.set machine.depth.val machine.pc free)
    (depth : done.depth.val = machine.depth.val + 1) :
    done.pendingCalls = machine.pendingCalls ++ [machine.pc] := by
  have room : machine.depth.val < machine.stack.toList.length := by
    rw [Vector.length_toList]
    exact free
  have below : (machine.stack.toList.take machine.depth.val).set machine.depth.val machine.pc =
      machine.stack.toList.take machine.depth.val :=
    List.set_eq_of_length_le (List.length_take_le _ _)
  simp only [pendingCalls, stack, depth, Vector.toList_set]
  rw [List.take_succ_eq_append_getElem (by rwa [List.length_set]), List.getElem_set_self,
    List.take_set, below]

/-- A return takes the last pending call and leaves the slot of it as it is. -/
theorem pendingCalls_pop {slot : Fin stackDepth} (pending : machine.depth.val = slot.val + 1)
    (stack : done.stack = machine.stack) (depth : done.depth = slot.castSucc) :
    machine.pendingCalls = done.pendingCalls ++ [machine.stack[slot]] := by
  have room : slot.val < machine.stack.toList.length := by
    rw [Vector.length_toList]
    exact slot.isLt
  simp only [pendingCalls, stack, depth, pending]
  rw [List.take_succ_eq_append_getElem room]
  rfl

theorem Steered.books {instruction : Instruction} (steered : machine.Steered done instruction)
    {word : Opcode} (decoded : Instruction.ofOpcode? word = some instruction) :
    done.pendingCalls.reverse = book machine.pendingCalls.reverse ⟨machine.pc, word⟩ := by
  have encoded := Instruction.ofOpcode?_eq_some_iff.mp decoded
  -- Whatever is neither a call nor a return leaves the stack and its height alone.
  have straight : ∀ {control : Control}, done.control = control →
      control.stack = machine.stack → control.depth = machine.depth →
      (∀ target, instruction ≠ .call target) → instruction ≠ .ret →
      done.pendingCalls.reverse = book machine.pendingCalls.reverse ⟨machine.pc, word⟩ := by
    intro control moved stack depth call ret
    rw [book_straight (by simpa [decoded] using call) (by simpa [decoded] using ret)]
    rw [pendingCalls_congr ((congrArg Control.stack moved).trans stack)
      ((congrArg Control.depth moved).trans depth)]
  cases steered with
  | onward onward moved =>
      apply straight moved rfl rfl
      · rintro target rfl
        exact onward trivial
      · rintro rfl
        exact onward trivial
  | skipped skips moved =>
      apply straight moved rfl rfl
      · rintro target rfl
        exact skips
      · rintro rfl
        exact skips
  | jump moved => exact straight moved rfl rfl (fun _ => nofun) nofun
  | jumpOffset moved => exact straight moved rfl rfl (fun _ => nofun) nofun
  | awaitKey moved => exact straight moved rfl rfl (fun _ => nofun) nofun
  | call free moved =>
      have kind : word.kind = 0x2 := by
        rw [encoded]
        exact Opcode.kind_ofAddress _ _
      rw [book_call _ kind, pendingCalls_push free (congrArg Control.stack moved)
        (congrArg (fun control => control.depth.val) moved), List.reverse_append]
      rfl
  | ret pending moved =>
      rw [book_ret _ encoded, pendingCalls_pop pending (congrArg Control.stack moved)
        (congrArg Control.depth moved), List.reverse_append]
      rfl

end Instruction

/-! ## One word -/

section Word

variable {machine : Machine} {word : Opcode}

/-- A word that is carried out does to the stack what it does to the book. -/
theorem execute_books (carriedOut : (machine.execute word).answer = .ok ()) :
    (machine.execute word).state.pendingCalls.reverse =
      book machine.pendingCalls.reverse ⟨machine.pc, word⟩ := by
  cases decoded : Instruction.ofOpcode? word with
  | none =>
      rw [book_straight (by simp [decoded]) (by simp [decoded]), execute_of_unknown machine decoded]
      rfl
  | some instruction =>
      exact (perform_steered (perform_of_answer decoded carriedOut)).books decoded

theorem execute_refused (valid : machine.WellFormed)
    (refused : (machine.execute word).answer ≠ .ok ()) :
    (machine.execute word).state = machine.fetched word := by
  have executed := execute_executed valid word
  generalize machine.execute word = outcome at executed refused ⊢
  cases executed with
  | done _ _ => exact absurd rfl refused
  | faulted _ => rfl

theorem execute_faulted_iff (valid : machine.WellFormed) :
    (∃ fault, (machine.execute word).answer = .error (.faulted fault)) ↔
      machine.FaultsOn word := by
  rw [← faultOf?_ne_none_iff]
  have executed := execute_executed valid word
  generalize machine.execute word = outcome at executed ⊢
  cases executed with
  | done harmless _ => simp [harmless]
  | faulted cause => simp [cause]

theorem faultsOn_call (call : word.kind = 0x2) :
    machine.FaultsOn word ↔ machine.depth.val = 16 := by
  have notReturn : word ≠ 0x00EE := by
    rintro rfl
    cases call
  simp [FaultsOn, call, notReturn]

theorem faultsOn_ret : machine.FaultsOn 0x00EE ↔ machine.depth.val = 0 := by
  have kind : (0x00EE : Opcode).kind = 0 := rfl
  simp [FaultsOn, kind]

/-- A return continues behind the latest call that is pending. -/
theorem execute_ret {site : Int} {rest : List Int}
    (calls : machine.pendingCalls.reverse = site :: rest) :
    (machine.execute 0x00EE).answer = .ok () ∧
      (machine.execute 0x00EE).state.pc = site + 2 := by
  rw [execute_of_decoded machine (show Instruction.ofOpcode? 0x00EE = some .ret from rfl)]
  rcases (machine.fetched 0x00EE).perform_ret with ⟨empty, _⟩ | ⟨slot, pending, returned⟩
  · have none : machine.pendingCalls.length = 0 := machine.length_pendingCalls.trans empty
    rw [List.eq_nil_of_length_eq_zero none] at calls
    cases calls
  · rw [returned]
    refine ⟨rfl, ?_⟩
    let popped : Machine := { machine with depth := slot.castSucc }
    have top : machine.pendingCalls = popped.pendingCalls ++ [machine.stack[slot]] :=
      pendingCalls_pop pending rfl rfl
    rw [top, List.reverse_append] at calls
    have same : machine.stack[slot] = site := (List.cons.inj calls).1
    rw [← same]
    rfl

end Word

/-! ## One request -/

/-- The word that a request executes. -/
def executes? (machine : Machine) : Operation → Option Opcode
  | .execute word => some word
  | .cycle =>
      if programStart ≤ machine.pc ∧ machine.pc < programEnd ∧ machine.waiting = false then
        some machine.nextWord
      else
        none
  | _ => none

/-- The word that a request executes without a fault. -/
def carriesOut? (machine : Machine) (operation : Operation) : Option CarriedOut :=
  if (machine.apply operation).answer.isOk then
    (machine.executes? operation).map fun word => ⟨machine.pc, word⟩
  else
    none

/-- The words that are carried out by some requests, in order. -/
def carriedOut (machine : Machine) : List Operation → List CarriedOut
  | [] => []
  | operation :: operations =>
      (machine.carriesOut? operation).toList ++
        (machine.apply operation).state.carriedOut operations

section Request

variable {machine : Machine} {operation : Operation} {word : Opcode}

theorem apply_of_executes (executes : machine.executes? operation = some word) :
    (machine.apply operation).state = (machine.execute word).state ∧
      ∃ answer, (machine.apply operation).answer =
        ((machine.execute word).answer.map fun _ => answer).mapError Interruption.refusal := by
  cases operation with
  | execute other =>
      cases executes
      exact ⟨rfl, none, rfl⟩
  | cycle =>
      unfold executes? at executes
      dsimp only at executes
      split at executes
      next ready =>
        cases executes
        obtain ⟨inside, room, awake⟩ := ready
        have cycled := cycle_of_executing inside room awake
        refine ⟨by simp only [apply, cycled], some false, ?_⟩
        simp only [apply, cycled]
        cases (machine.execute machine.nextWord).answer <;> rfl
      next => cases executes
  | _ => cases executes

theorem apply_isOk_iff (executes : machine.executes? operation = some word) :
    (machine.apply operation).answer.isOk = true ↔ (machine.execute word).answer = .ok () := by
  obtain ⟨_, answer, answered⟩ := apply_of_executes executes
  rw [answered]
  cases (machine.execute word).answer with
  | ok _ => exact ⟨fun _ => rfl, fun _ => rfl⟩
  | error _ => exact ⟨nofun, nofun⟩

theorem apply_faulted_iff (executes : machine.executes? operation = some word) :
    (∃ fault, (machine.apply operation).answer = .error (.faulted fault)) ↔
      ∃ fault, (machine.execute word).answer = .error (.faulted fault) := by
  obtain ⟨_, answer, answered⟩ := apply_of_executes executes
  rw [answered]
  cases (machine.execute word).answer with
  | ok _ => constructor <;> rintro ⟨fault, impossible⟩ <;> cases impossible
  | error interruption =>
      cases interruption with
      | faulted cause =>
          constructor <;> rintro ⟨fault, same⟩ <;> cases same <;> exact ⟨cause, rfl⟩
      | strayed error => constructor <;> rintro ⟨fault, impossible⟩ <;> cases impossible

theorem cycle_of_not_executes (idle : machine.executes? .cycle = none) :
    machine.cycle.state = machine := by
  rcases machine.cycle_cases with
    ended | ⟨room, waiting⟩ | ⟨below, awake⟩ | ⟨inside, room, awake⟩
  · rw [cycle_of_ended ended]
  · rw [cycle_of_waiting room waiting]
  · rw [cycle_of_below below awake]
  · unfold executes? at idle
    rw [if_pos ⟨inside, room, awake⟩] at idle
    cases idle

theorem pendingCalls_of_not_executes (idle : machine.executes? operation = none)
    (kept : operation ≠ .reset) :
    (machine.apply operation).state.pendingCalls = machine.pendingCalls := by
  cases operation with
  | execute word => cases idle
  | reset => exact absurd rfl kept
  | cycle => simp only [apply, cycle_of_not_executes idle]
  | tickTimers => rfl
  | load program =>
      simp only [apply, load]
      split <;> rfl
  | endWait index =>
      simp only [apply, endWait]
      split <;> rfl
  | setKey index pressed =>
      simp only [apply, setKeyAt]
      cases Key.ofIndex index <;> rfl
  | setShiftMode usesVy => rfl
  | draw x y sprite => rfl

/-- One operation is booked if it carries a word out, and else the pending calls stay. -/
theorem apply_books (valid : machine.WellFormed) (kept : operation ≠ .reset) :
    (machine.apply operation).state.pendingCalls.reverse =
      (machine.carriesOut? operation).toList.foldl book machine.pendingCalls.reverse := by
  cases executes : machine.executes? operation with
  | none =>
      rw [pendingCalls_of_not_executes executes kept]
      simp [carriesOut?, executes]
  | some word =>
      have reached := (apply_of_executes executes).1
      by_cases carried : (machine.execute word).answer = .ok ()
      · have answered := (apply_isOk_iff executes).mpr carried
        rw [reached, execute_books carried]
        simp [carriesOut?, executes, answered]
      · have answered := mt (apply_isOk_iff executes).mp carried
        rw [reached, execute_refused valid carried]
        simp only [carriesOut?, answered]
        rfl

end Request

/-! ## Runs -/

section Runs

variable {machine : Machine}

/-- The book is kept over a whole history without a reset, by induction over its operations. -/
theorem pendingCalls_after (valid : machine.WellFormed) {operations : List Operation}
    (unbroken : .reset ∉ operations) :
    (machine.after operations).pendingCalls.reverse =
      (machine.carriedOut operations).foldl book machine.pendingCalls.reverse := by
  induction operations generalizing machine with
  | nil => rfl
  | cons operation operations inductionHypothesis =>
      obtain ⟨kept, later⟩ := not_or.mp (mt List.mem_cons.mpr unbroken)
      rw [carriedOut, List.foldl_append, ← apply_books valid (Ne.symm kept)]
      exact inductionHypothesis (valid.apply operation) later

/-- A subroutine with as many calls as returns comes back to where it was called. -/
theorem subroutine_returns (valid : machine.WellFormed) {call ret : Operation}
    {body : List Operation} {word : Opcode} (calls : machine.executes? call = some word)
    (kind : word.kind = 0x2) (entered : (machine.apply call).answer.isOk = true)
    (unbroken : .reset ∉ body)
    (balanced : Balanced ((machine.apply call).state.carriedOut body))
    (returns : ((machine.apply call).state.after body).executes? ret = some 0x00EE) :
    let returned := ((machine.apply call).state.after body).apply ret
    returned.answer.isOk = true ∧ returned.state.pc = machine.pc + 2 ∧
      returned.state.depth = machine.depth ∧
      returned.state.pendingCalls = machine.pendingCalls := by
  intro returned
  have pushed : (machine.apply call).state.pendingCalls.reverse =
      machine.pc :: machine.pendingCalls.reverse := by
    rw [(apply_of_executes calls).1, execute_books ((apply_isOk_iff calls).mp entered),
      book_call _ kind]
  have inner : ((machine.apply call).state.after body).pendingCalls.reverse =
      machine.pc :: machine.pendingCalls.reverse := by
    rw [pendingCalls_after (valid.apply call) unbroken, balanced.book, pushed]
  have innerValid := (valid.apply call).after body
  obtain ⟨left, behind⟩ := execute_ret inner
  have reached : returned.state = _ := (apply_of_executes returns).1
  have popped : returned.state.pendingCalls.reverse = machine.pendingCalls.reverse := by
    rw [reached, execute_books left, inner, book_ret _ rfl]
    rfl
  have same := List.reverse_inj.mp popped
  refine ⟨(apply_isOk_iff returns).mpr left, by rw [reached, behind], ?_, same⟩
  apply Fin.ext
  rw [← length_pendingCalls, same, length_pendingCalls]

end Runs

/-- Until its next reset, a machine that was switched on keeps the stack of call sites that its
calls push and its returns pop.  A call faults if sixteen calls are pending, a return if none is,
and a return continues behind its call.  A subroutine that leaves as many calls as it makes returns
behind its call, and finds the calls below as they were. -/
theorem pending_calls_mirrored (clock : Hertz) (shiftUsesVy : Bool) (random : ByteSource)
    (operations : List Operation) (unbroken : .reset ∉ operations) :
    let fresh := powerOn clock shiftUsesVy random
    let machine := fresh.after operations
    let calls := (fresh.carriedOut operations).foldl book []
    machine.depth.val = calls.length ∧
      machine.stack.toList.take machine.depth.val = calls.reverse ∧
      (∀ operation word, machine.executes? operation = some word →
        (word.kind = 0x2 →
          ((∃ fault, (machine.apply operation).answer = .error (.faulted fault)) ↔
            calls.length = 16)) ∧
        (word = 0x00EE →
          ((∃ fault, (machine.apply operation).answer = .error (.faulted fault)) ↔ calls = []) ∧
          ∀ site pending, calls = site :: pending →
            (machine.apply operation).state.pc = site + 2)) ∧
      ∀ (call ret : Operation) (body : List Operation) (word : Opcode),
        machine.executes? call = some word → word.kind = 0x2 →
        (machine.apply call).answer.isOk = true → .reset ∉ body →
        Balanced ((machine.apply call).state.carriedOut body) →
        ((machine.apply call).state.after body).executes? ret = some 0x00EE →
          let returned := ((machine.apply call).state.after body).apply ret
          returned.answer.isOk = true ∧ returned.state.pc = machine.pc + 2 ∧
            returned.state.depth = machine.depth ∧
            returned.state.stack.toList.take machine.depth.val =
              machine.stack.toList.take machine.depth.val := by
  intro fresh machine calls
  have begun : fresh.WellFormed := powerOn_wellFormed clock shiftUsesVy random
  have valid : machine.WellFormed := begun.after operations
  have mirrored : machine.pendingCalls.reverse = calls := pendingCalls_after begun unbroken
  have depth : machine.depth.val = calls.length := by
    rw [← mirrored, List.length_reverse, length_pendingCalls]
  refine ⟨depth, ?_, ?_, ?_⟩
  · rw [← mirrored, List.reverse_reverse]
    rfl
  · intro operation word executes
    rw [apply_faulted_iff executes, execute_faulted_iff valid, ← depth]
    refine ⟨faultsOn_call, ?_⟩
    rintro rfl
    refine ⟨?_, ?_⟩
    · rw [faultsOn_ret, depth, List.length_eq_zero_iff]
    · intro site pending top
      rw [(apply_of_executes executes).1]
      exact (execute_ret (mirrored.trans top)).2
  · intro call ret body word executes kind entered unbroken balanced returns
    obtain ⟨answered, behind, same, pending⟩ :=
      subroutine_returns valid executes kind entered unbroken balanced returns
    refine ⟨answered, behind, same, ?_⟩
    rw [pendingCalls, same] at pending
    exact pending

/-- A subroutine calls another one and comes back behind the first call. -/
theorem pending_calls_mirrored_nested :
    let operations : List Operation :=
      [.load [0x22, 0x04, 0x00, 0x00, 0x22, 0x08, 0x00, 0xEE, 0x60, 0x01, 0x00, 0xEE]]
    let machine := (powerOn (.whole 600) true (.ofScript [])).after operations
    let body : List Operation := [.cycle, .cycle, .tickTimers, .cycle]
    let inner := (machine.apply .cycle).state.after body
    .reset ∉ operations ∧ machine.executes? .cycle = some 0x2204 ∧
      (machine.apply .cycle).answer.isOk = true ∧ .reset ∉ body ∧
      Balanced ((machine.apply .cycle).state.carriedOut body) ∧
      inner.executes? .cycle = some 0x00EE ∧
      (inner.apply .cycle).state.pc = 0x202 ∧ (inner.apply .cycle).state.depth = 0 := by
  intro operations machine body inner
  obtain ⟨unbroken, calls, entered, inside, carried, returns, here, bottom⟩ :
      .reset ∉ operations ∧ machine.executes? .cycle = some 0x2204 ∧
        (machine.apply .cycle).answer.isOk = true ∧ .reset ∉ body ∧
        (machine.apply .cycle).state.carriedOut body =
          [⟨0x204, 0x2208⟩, ⟨0x208, 0x6001⟩, ⟨0x20A, 0x00EE⟩] ∧
        inner.executes? .cycle = some 0x00EE ∧ machine.pc = 0x200 ∧ machine.depth = 0 := by
    decide +kernel
  have innermost : Balanced [⟨0x208, 0x6001⟩] := .other (by decide) (by decide) .empty
  have balanced : Balanced ((machine.apply .cycle).state.carriedOut body) := by
    rw [carried]
    exact .nested rfl innermost rfl .empty
  obtain ⟨_, _, _, subroutine⟩ :=
    pending_calls_mirrored (.whole 600) true (.ofScript []) operations unbroken
  obtain ⟨_, behind, depth, _⟩ :=
    subroutine .cycle .cycle body 0x2204 calls rfl entered inside balanced returns
  refine ⟨unbroken, calls, entered, inside, balanced, returns, ?_, depth.trans bottom⟩
  have came : (inner.apply .cycle).state.pc = machine.pc + 2 := behind
  rw [came, here]
  rfl

end Machine

end ChipEight
