import ChipEight.Proofs.Machine.Stores
import ChipEight.Proofs.Screen.Stamps

/-!
# Sprites in memory

The instruction that draws takes at most fifteen rows from memory.  A sprite that is no higher than
the screen never falls on itself: it toggles every pixel at most once, so that a collision is a
pixel that goes dark.  Drawn twice at one place it takes itself back, and one of the two times it
collides unless it is empty.
-/

namespace ChipEight

/-! ## Sprites that do not fall on themselves -/

/-- A sprite that is no higher than the screen covers no pixel twice. -/
theorem coverage_le_one (x y : Int) {sprite : List Byte} (short : sprite.length ≤ 32) (p : Column)
    (q : Row) : coverage x y sprite p q ≤ 1 := by
  rw [coverage, Finset.card_le_one]
  rintro ⟨row, column⟩ member ⟨otherRow, otherColumn⟩ otherMember
  obtain ⟨_, _, across, down⟩ := Finset.mem_filter.mp member
  obtain ⟨_, _, otherAcross, otherDown⟩ := Finset.mem_filter.mp otherMember
  have sameRow : row.val = otherRow.val := by
    have inside := row.isLt
    have otherInside := otherRow.isLt
    simp only at down otherDown
    omega
  have sameColumn : column.val = otherColumn.val := by
    simp only at across otherAcross
    omega
  exact Prod.ext (Fin.ext sameRow) (Fin.ext sameColumn)

theorem exists_testBit_of_ne_zero {byte : Byte} (set : byte ≠ 0) :
    ∃ column : Fin 8, byte.toNat.testBit (7 - column.val) = true := by
  have positive : byte.toNat ≠ 0 := fun zero => set (UInt8.toNat_inj.mp zero)
  obtain ⟨position, isSet⟩ := Nat.exists_testBit_of_ne_zero positive
  have inside : position < 8 := by
    have reached := Nat.ge_two_pow_of_testBit isSet
    have small := byte.toNat_lt
    exact (Nat.pow_lt_pow_iff_right (by decide)).mp (Nat.lt_of_le_of_lt reached small)
  refine ⟨⟨7 - position, by omega⟩, ?_⟩
  rwa [Nat.sub_sub_self (by omega)]

/-- Some pixel lies under a sprite unless all its bytes are zero. -/
theorem exists_coverage_iff (x y : Int) (sprite : List Byte) :
    (∃ p q, coverage x y sprite p q ≠ 0) ↔ ∃ byte ∈ sprite, byte ≠ 0 := by
  simp only [coverage, Finset.card_ne_zero, Finset.Nonempty, Finset.mem_filter]
  constructor
  · rintro ⟨p, q, ⟨row, column⟩, _, isSet, _⟩
    refine ⟨sprite[row], List.getElem_mem row.isLt, fun zero => ?_⟩
    simp [zero] at isSet
  · rintro ⟨byte, member, set⟩
    obtain ⟨row, inside, rfl⟩ := List.getElem_of_mem member
    obtain ⟨column, isSet⟩ := exists_testBit_of_ne_zero set
    exact ⟨wrap 63 (x + (column.val : Int)), wrap 31 (y + (row : Int)), ⟨⟨row, inside⟩, column⟩,
      Finset.mem_univ _, isSet, (wrap_eq_iff 63 _ _).mp rfl, (wrap_eq_iff 31 _ _).mp rfl⟩

namespace Screen

variable (screen : Screen) (x y : Int) {sprite : List Byte}

theorem lit_draw (short : sprite.length ≤ 32) (p : Column) (q : Row) :
    (screen.draw x y sprite).1.lit p q =
      (screen.lit p q ^^ decide (coverage x y sprite p q = 1)) := by
  have atMost := coverage_le_one x y short p q
  have odd : coverage x y sprite p q % 2 = coverage x y sprite p q := by omega
  rw [draw, lit_toggleAll, count_pixelsUnder, odd]

/-- A sprite that does not fall on itself collides if it leaves some lit pixel dark. -/
theorem draw_collides_iff (short : sprite.length ≤ 32) :
    (screen.draw x y sprite).2 = true ↔
      ∃ p q, screen.lit p q = true ∧ (screen.draw x y sprite).1.lit p q = false := by
  rw [draw, toggleAll_collides_iff, ← draw]
  refine exists_congr fun p => exists_congr fun q => ?_
  have atMost := coverage_le_one x y short p q
  rw [count_pixelsUnder, screen.lit_draw x y short]
  constructor
  · rintro (twice | ⟨once, lit⟩)
    · omega
    · simp [once, lit]
  · rintro ⟨lit, dark⟩
    exact Or.inr ⟨by simpa [lit] using dark, lit⟩

/-- A sprite that is drawn twice at one place is gone again. -/
theorem draw_draw (sprite : List Byte) :
    ((screen.draw x y sprite).1.draw x y sprite).1 = screen := by
  apply eq_of_lit
  intro p q
  rw [draw, draw, lit_toggleAll, lit_toggleAll, Bool.xor_assoc, Bool.xor_self, Bool.xor_false]

/-- Of two draws of a sprite at one place one collides unless the sprite is empty. -/
theorem draw_draw_collides_iff (short : sprite.length ≤ 32) :
    ((screen.draw x y sprite).2 = true ∨
        ((screen.draw x y sprite).1.draw x y sprite).2 = true) ↔
      ∃ byte ∈ sprite, byte ≠ 0 := by
  rw [draw_collides_iff screen x y short, draw_collides_iff _ x y short, draw_draw,
    ← exists_coverage_iff x y]
  have drawn := screen.lit_draw x y short
  constructor
  · have kept : ∀ p q, coverage x y sprite p q = 0 →
        (screen.draw x y sprite).1.lit p q = screen.lit p q := by
      intro p q uncovered
      simp [drawn, uncovered]
    rintro (⟨p, q, lit, dark⟩ | ⟨p, q, lit, dark⟩)
    · refine ⟨p, q, fun uncovered => ?_⟩
      rw [kept p q uncovered, lit] at dark
      cases dark
    · refine ⟨p, q, fun uncovered => ?_⟩
      rw [kept p q uncovered, dark] at lit
      cases lit
  · -- A pixel under the sprite is lit before one of the two draws, and that one darkens it.
    rintro ⟨p, q, covered⟩
    have atMost := coverage_le_one x y short p q
    have once : coverage x y sprite p q = 1 := by omega
    cases lit : screen.lit p q with
    | true => exact Or.inl ⟨p, q, lit, by simp [drawn, once, lit]⟩
    | false => exact Or.inr ⟨p, q, by simp [drawn, once, lit], lit⟩

end Screen

namespace Machine

/-! ## The instruction that draws -/

/-- The sprite to which the index points, row by row. -/
def sprite (machine : Machine) (rows : Nibble) : List Byte :=
  List.ofFn fun row : Fin rows.val =>
    machine.byteAt (Fin.ofNat 4096 (machine.index.toNat + row.val))

theorem length_sprite (machine : Machine) (rows : Nibble) :
    (machine.sprite rows).length ≤ 32 := by
  rw [sprite, List.length_ofFn]
  omega

section Execution

variable {machine : Machine} {rows : Nibble} (nonneg : 0 ≤ machine.index)
  (fits : machine.index + rows.val ≤ 4096)

include nonneg fits

theorem between_eq_sprite :
    machine.memory.between machine.index rows.val = machine.sprite rows := by
  have inside : machine.index.toNat + rows.val ≤ 4096 := by omega
  rw [Memory.between, if_pos nonneg]
  apply List.ext_getElem
  · simp only [slice, sprite, Array.length_toList, Array.size_extract, Vector.size_toArray,
      List.length_ofFn, memorySize]
    omega
  · intro row _ within
    rw [sprite, List.length_ofFn] at within
    have address : (machine.index.toNat + row) % 4096 = machine.index.toNat + row :=
      Nat.mod_eq_of_lt (by omega)
    simp [slice, sprite, byteAt, Vector.get, address]

variable (x y : Register)

theorem execute_draw :
    let word := Opcode.ofNibbles 0xD x y rows
    let drawn := machine.display.draw (machine.register x) (machine.register y)
      (machine.sprite rows)
    machine.execute word =
      ⟨{ machine.setRegister flagRegister (if drawn.2 then 1 else 0) with
          display := drawn.1
          pc := machine.pc + 2
          opcode := word }, .ok (), [.executing machine.pc word]⟩ := by
  intro word drawn
  have decoded : Instruction.ofOpcode? word = some (.draw x y rows) :=
    Instruction.ofOpcode?_word (.draw x y rows)
  have allowed : (machine.fetched word).accessFault? rows.val = none :=
    if_neg (Int.not_lt.mpr fits)
  have same : (machine.fetched word).memory.between (machine.fetched word).index rows.val =
      machine.sprite rows :=
    between_eq_sprite nonneg fits
  rw [execute_of_decoded machine decoded, perform_draw, allowed, same]
  rfl

theorem screen_execute_draw :
    (machine.execute (.ofNibbles 0xD x y rows)).state.display.screen =
      (machine.display.screen.draw (machine.register x) (machine.register y)
        (machine.sprite rows)).1 := by
  rw [execute_draw nonneg fits]
  rfl

theorem flag_execute_draw :
    (machine.execute (.ofNibbles 0xD x y rows)).state.register flagRegister = 1 ↔
      (machine.display.screen.draw (machine.register x) (machine.register y)
        (machine.sprite rows)).2 = true := by
  rw [execute_draw nonneg fits]
  refine (iff_of_eq (congrArg (· = 1) (machine.register_setRegister _ _ _))).trans ?_
  rw [if_pos rfl]
  change (if (machine.display.screen.draw _ _ _).2 = true then (1 : Int) else 0) = 1 ↔ _
  split <;> simp [*]

theorem register_execute_draw {z : Register} (other : z ≠ flagRegister) :
    (machine.execute (.ofNibbles 0xD x y rows)).state.register z = machine.register z := by
  rw [execute_draw nonneg fits]
  exact (machine.register_setRegister flagRegister z _).trans (if_neg other)

theorem index_execute_draw :
    (machine.execute (.ofNibbles 0xD x y rows)).state.index = machine.index := by
  rw [execute_draw nonneg fits]
  rfl

theorem sprite_execute_draw :
    (machine.execute (.ofNibbles 0xD x y rows)).state.sprite rows = machine.sprite rows := by
  rw [execute_draw nonneg fits]
  rfl

end Execution

/-- An instruction that draws switches the pixels under its sprite, each once, where the coordinates
are those that the registers hold before it, and the flag says whether a lit pixel went dark.  If it
does not take its coordinates from the flag and is executed again, the screen is what it was, and
one of the two times it collides unless the sprite is empty. -/
theorem draw_toggles_sprite (machine : Machine) (x y : Register) (rows : Nibble)
    (nonneg : 0 ≤ machine.index) (fits : machine.index + rows.val ≤ 4096) :
    let word := Opcode.ofNibbles 0xD x y rows
    let covers := coverage (machine.register x) (machine.register y) (machine.sprite rows)
    let drawn := machine.execute word
    let again := drawn.state.execute word
    let before := machine.display.screen
    let after := drawn.state.display.screen
    let flag : Int := if ∃ p q, before.lit p q = true ∧ after.lit p q = false then 1 else 0
    drawn.answer = .ok () ∧
    (∀ p q, covers p q ≤ 1 ∧ (after.lit p q ≠ before.lit p q ↔ covers p q = 1)) ∧
    drawn.state =
      { machine.setRegister flagRegister flag with
        display := ⟨after, true⟩
        pc := machine.pc + 2
        opcode := word } ∧
    (x ≠ flagRegister → y ≠ flagRegister →
      again.answer = .ok () ∧ again.state.display.screen = before ∧
        (drawn.state.register flagRegister = 1 ∨ again.state.register flagRegister = 1 ↔
          ∃ byte ∈ machine.sprite rows, byte ≠ 0)) := by
  intro word covers drawn again before after flag
  have short := machine.length_sprite rows
  have executed : drawn = _ := execute_draw nonneg fits x y
  have screen : after = (before.draw (machine.register x) (machine.register y) _).1 :=
    screen_execute_draw nonneg fits x y
  refine ⟨by rw [executed], fun p q => ⟨coverage_le_one _ _ short p q, ?_⟩, ?_, ?_⟩
  · rw [screen, before.lit_draw _ _ short]
    cases before.lit p q <;> simp [covers]
  · have collides := before.draw_collides_iff (machine.register x) (machine.register y) short
    rw [← screen] at collides
    have flagged : (if (before.draw (machine.register x) (machine.register y)
        (machine.sprite rows)).2 then 1 else 0) = flag := by
      simp only [flag, collides]
    rw [screen, ← flagged, executed]
    rfl
  · intro otherX otherY
    have index : drawn.state.index = machine.index := index_execute_draw nonneg fits x y
    have stillNonneg : 0 ≤ drawn.state.index := by rwa [index]
    have stillFits : drawn.state.index + rows.val ≤ 4096 := by rwa [index]
    have first := flag_execute_draw nonneg fits x y
    have second := flag_execute_draw stillNonneg stillFits x y
    have restored := screen_execute_draw stillNonneg stillFits x y
    rw [register_execute_draw nonneg fits x y otherX, register_execute_draw nonneg fits x y otherY,
      sprite_execute_draw nonneg fits, screen_execute_draw nonneg fits] at restored second
    have repeated : again = _ := execute_draw stillNonneg stillFits x y
    refine ⟨by rw [repeated], restored.trans (before.draw_draw _ _ _), ?_⟩
    rw [first, second]
    exact before.draw_draw_collides_iff _ _ short

/-- Two rows at the very end of memory are drawn over a corner of the screen. -/
theorem draw_toggles_sprite_corner :
    let machine : Machine :=
      { ((powerOn (.whole 600) false (.ofScript [])).setRegister 1 63).setRegister 2 31 with
        index := 4094
        memory := ⟨Vector.replicate memorySize 0xC0, []⟩ }
    let word := Opcode.ofNibbles 0xD 1 2 2
    let drawn := machine.execute word
    let again := drawn.state.execute word
    0 ≤ machine.index ∧ machine.index + (2 : Nibble).val ≤ 4096 ∧
      (1 : Register) ≠ flagRegister ∧ (2 : Register) ≠ flagRegister ∧
      drawn.state.display.screen.lit 63 31 = true ∧ drawn.state.display.screen.lit 0 31 = true ∧
      drawn.state.display.screen.lit 63 0 = true ∧ drawn.state.register flagRegister = 0 ∧
      again.state.display.screen = machine.display.screen ∧
      again.state.register flagRegister = 1 := by
  intro machine word drawn again
  have nonneg : 0 ≤ machine.index := by decide
  have fits : machine.index + (2 : Nibble).val ≤ 4096 := by decide
  have otherX : (1 : Register) ≠ flagRegister := by decide
  have otherY : (2 : Register) ≠ flagRegister := by decide
  obtain ⟨_, _, _, twice⟩ := draw_toggles_sprite machine 1 2 2 nonneg fits
  obtain ⟨_, restored, collided⟩ := twice otherX otherY
  have rows : ∃ byte ∈ machine.sprite 2, byte ≠ 0 := by decide +kernel
  obtain ⟨corner, beside, below, untouched⟩ :
      drawn.state.display.screen.lit 63 31 = true ∧ drawn.state.display.screen.lit 0 31 = true ∧
        drawn.state.display.screen.lit 63 0 = true ∧ drawn.state.register flagRegister = 0 := by
    decide +kernel
  have missed : drawn.state.register flagRegister ≠ 1 := by
    rw [untouched]
    decide
  -- Screens are compared cell by cell, so the second draw is unfolded before its screen is taken.
  have same : again.state.display = ((machine.execute (Opcode.ofNibbles 0xD 1 2 2)).state.execute
      (Opcode.ofNibbles 0xD 1 2 2)).state.display :=
    congrArg (fun done : Machine => done.display) rfl
  refine ⟨nonneg, fits, otherX, otherY, corner, beside, below, untouched, ?_, ?_⟩
  · rw [same]
    exact restored
  · exact (collided.mpr rows).resolve_left missed

end Machine

end ChipEight
