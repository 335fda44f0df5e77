import Lc3Simulator.Computer
import Lc3Simulator.IsaConformance

/-!
# Programs that leave the keyboard alone

While no interrupt can come, a program that never touches the keyboard is not disturbed by it. Such
a program runs on a `Task`: registers, memory, the display, and what was printed so far, where an
instruction does what the instruction set says.

An instruction of a task is used through one rule for each kind of instruction, which gives the next
task in terms of a few changes. What these do to registers and memory is known to `simp`.

## Main definitions

* `Task`, `Task.step` — one instruction of an undisturbed program
* `Task.result`, `Task.poke`, `Task.print`, `Task.goto`, `Task.link` — what instructions change

## Main results

* `Task.step_ld`, `Task.step_st`, `Task.step_br`, ... — the rules
-/

namespace Lc3Simulator

open Interaction Isa

/-! ### Tasks -/

/-- What a program sees that leaves the keyboard alone. -/
structure Task where
  registers : Registers
  memory : Word → Word
  display : DisplayData
  printed : List Byte

/-- The registers of the keyboard are out of bounds, and so is setting the status of the display. -/
def taskHandler : Handler BusRequest BusResponse Task
  | .read address, t =>
    if Ordinary address then some (t.memory address, t)
    else if address = dsrAddress then some (t.display.dsr, t)
    else none
  | .write address value, t =>
    if Ordinary address then some ((), { t with memory := Function.update t.memory address value })
    else if address = ddrAddress then
      some ((), { t with printed := t.printed ++ [value.setWidth 8] })
    else none

/-- What the instruction set says about a word. JSRR is left out, where `cpu.c` differs. -/
def instruction (w : Word) : Option (Registers → BusProg Registers) :=
  match DataInstr.decode w, ControlInstr.decode w with
  | some i, _ => some fun regs => i.execute regs
  | none, some (.jsrr _) => none
  | none, some i => some fun regs => i.execute regs
  | none, none => none

/-- One instruction, with the clock on before it. The result says whether it is on after it. -/
def Task.tick (t : Task) : Option (Bool × Task) := do
  guard (clockEnabled (t.memory mcrAddr) ∧ Ordinary (t.registers .pc))
  let program ← instruction (t.memory (t.registers .pc))
  let (registers, t) ← (program (fetched t.registers)).run taskHandler t
  return (clockEnabled (t.memory mcrAddr), { t with registers })

/-- An instruction that leaves the clock on. -/
def Task.step (t : Task) : Option Task :=
  t.tick.bind fun x => if x.1 then some x.2 else none

/-- What an instruction is made of. -/
theorem Task.tick_eq_some {t : Task} {x : Bool × Task} (h : t.tick = some x) :
    clockEnabled (t.memory mcrAddr) = true ∧ Ordinary (t.registers .pc) ∧
      ∃ program registers t₁, instruction (t.memory (t.registers .pc)) = some program ∧
        (program (fetched t.registers)).run taskHandler t = some (registers, t₁) ∧
        x = (clockEnabled (t₁.memory mcrAddr), { t₁ with registers }) := by
  obtain ⟨_, hguard, h⟩ := Option.bind_eq_some_iff.mp h
  obtain ⟨hclock, hpc⟩ := (Option.guard_eq_some' _).mp hguard
  obtain ⟨program, hprogram, h⟩ := Option.bind_eq_some_iff.mp h
  obtain ⟨⟨registers, t₁⟩, hrun, h⟩ := Option.bind_eq_some_iff.mp h
  exact ⟨hclock, hpc, program, registers, t₁, hprogram, hrun, (Option.some.inj h).symm⟩

theorem Task.step_eq_some_iff {t t' : Task} : t.step = some t' ↔ t.tick = some (true, t') := by
  rw [Task.step, Option.bind_eq_some_iff]
  constructor
  · rintro ⟨⟨on, t₁⟩, htick, h⟩
    cases on with
    | false => cases h
    | true => rwa [← Option.some.inj h]
  · intro htick
    exact ⟨_, htick, rfl⟩

/-! ### What instructions change -/

namespace Task

/-- The register file changes. -/
def withRegisters (t : Task) (registers : Registers) : Task := { t with registers }

/-- The PC goes on. -/
def next (t : Task) : Task := t.withRegisters (fetched t.registers)

/-- A result goes to a register, and its sign to the condition codes. -/
def result (t : Task) (r : Lc3Reg) (value : Word) : Task :=
  t.withRegisters (Function.update (Function.update (fetched t.registers) r value) .psr
    (withCondition (t.registers .psr) (condition value)))

/-- The program goes on elsewhere. -/
def goto (t : Task) (target : Word) : Task := t.withRegisters (jump t.registers target)

/-- The program goes on elsewhere, and `R7` has the way back. -/
def link (t : Task) (target : Word) : Task :=
  t.withRegisters (jumpAndLink (fetched t.registers) target)

/-- A word goes to memory. -/
def poke (t : Task) (address value : Word) : Task :=
  { t with memory := Function.update t.memory address value }

/-- A character is printed. -/
def print (t : Task) (character : Byte) : Task := { t with printed := t.printed ++ [character] }

/-- The condition codes. -/
def codes (t : Task) : BitVec 3 := (t.registers .psr).extractLsb' 0 3

/-- The processor status but for the condition codes. -/
def status (t : Task) : BitVec 13 := (t.registers .psr).extractLsb' 3 13

section

variable (t : Task) (r s : Lc3Reg) (value target address : Word) (character : Byte)

@[simp] theorem next_memory : t.next.memory = t.memory := rfl
@[simp] theorem next_display : t.next.display = t.display := rfl
@[simp] theorem next_printed : t.next.printed = t.printed := rfl
@[simp] theorem next_pc : t.next.registers .pc = t.registers .pc + 1 := rfl
@[simp] theorem next_codes : t.next.codes = t.codes := rfl
@[simp] theorem next_status : t.next.status = t.status := rfl

@[simp] theorem next_registers (h : s ≠ .pc) : t.next.registers s = t.registers s :=
  Function.update_of_ne h _ _

@[simp] theorem result_memory : (t.result r value).memory = t.memory := rfl
@[simp] theorem result_display : (t.result r value).display = t.display := rfl
@[simp] theorem result_printed : (t.result r value).printed = t.printed := rfl

@[simp] theorem result_self (h : r ≠ .psr) : (t.result r value).registers r = value := by
  simp [result, withRegisters, h]

@[simp] theorem result_pc (h : r ≠ .pc) :
    (t.result r value).registers .pc = t.registers .pc + 1 := by
  simp [result, withRegisters, fetched, h.symm]

@[simp] theorem result_registers (hs : s ≠ r) (hpc : s ≠ .pc) (hpsr : s ≠ .psr) :
    (t.result r value).registers s = t.registers s := by
  simp [result, withRegisters, fetched, hs, hpc, hpsr]

@[simp] theorem result_codes : (t.result r value).codes = condition value := by
  simpa [result, withRegisters, codes, withCondition] using BitVec.extractLsb'_append_eq_right

@[simp] theorem result_status : (t.result r value).status = t.status := by
  simpa [result, withRegisters, status, withCondition] using BitVec.extractLsb'_append_eq_left

@[simp] theorem goto_memory : (t.goto target).memory = t.memory := rfl
@[simp] theorem goto_display : (t.goto target).display = t.display := rfl
@[simp] theorem goto_printed : (t.goto target).printed = t.printed := rfl
@[simp] theorem goto_pc : (t.goto target).registers .pc = target := rfl
@[simp] theorem goto_codes : (t.goto target).codes = t.codes := rfl
@[simp] theorem goto_status : (t.goto target).status = t.status := rfl

@[simp] theorem goto_registers (h : s ≠ .pc) : (t.goto target).registers s = t.registers s :=
  Function.update_of_ne h _ _

@[simp] theorem link_memory : (t.link target).memory = t.memory := rfl
@[simp] theorem link_display : (t.link target).display = t.display := rfl
@[simp] theorem link_printed : (t.link target).printed = t.printed := rfl
@[simp] theorem link_pc : (t.link target).registers .pc = target := rfl
@[simp] theorem link_r7 : (t.link target).registers .r7 = t.registers .pc + 1 := rfl
@[simp] theorem link_status : (t.link target).status = t.status := rfl

@[simp] theorem link_registers (h7 : s ≠ .r7) (hpc : s ≠ .pc) :
    (t.link target).registers s = t.registers s := by
  simp [link, withRegisters, jumpAndLink, jump, fetched, h7, hpc]

@[simp] theorem poke_registers : (t.poke address value).registers = t.registers := rfl
@[simp] theorem poke_display : (t.poke address value).display = t.display := rfl
@[simp] theorem poke_printed : (t.poke address value).printed = t.printed := rfl
@[simp] theorem poke_codes : (t.poke address value).codes = t.codes := rfl
@[simp] theorem poke_status : (t.poke address value).status = t.status := rfl

@[simp] theorem poke_memory :
    (t.poke address value).memory = Function.update t.memory address value := rfl

@[simp] theorem print_registers : (t.print character).registers = t.registers := rfl
@[simp] theorem print_memory : (t.print character).memory = t.memory := rfl
@[simp] theorem print_display : (t.print character).display = t.display := rfl
@[simp] theorem print_codes : (t.print character).codes = t.codes := rfl
@[simp] theorem print_status : (t.print character).status = t.status := rfl
@[simp] theorem print_printed : (t.print character).printed = t.printed ++ [character] := rfl

end

/-! ### One rule for each kind of instruction -/

/-- The task is at an instruction, and the clock is on. -/
structure At (t : Task) (w : Word) : Prop where
  clock : clockEnabled (t.memory mcrAddr) = true
  ordinary : Ordinary (t.registers .pc)
  word : t.memory (t.registers .pc) = w

variable {t t₁ : Task} {w : Word} {registers : Registers}

theorem tick_of_data {i : DataInstr} (h : t.At w) (hdecode : DataInstr.decode w = some i)
    (hrun : (i.execute (fetched t.registers)).run taskHandler t = some (registers, t₁)) :
    t.tick = some (clockEnabled (t₁.memory mcrAddr), t₁.withRegisters registers) := by
  rw [tick, h.word, instruction, hdecode]
  simp [h.clock, h.ordinary, guard, hrun]
  rfl

theorem tick_of_control {i : ControlInstr} (h : t.At w) (hdata : DataInstr.decode w = none)
    (hdecode : ControlInstr.decode w = some i) (hjsrr : ∀ base, i ≠ .jsrr base)
    (hrun : (i.execute (fetched t.registers)).run taskHandler t = some (registers, t₁)) :
    t.tick = some (clockEnabled (t₁.memory mcrAddr), t₁.withRegisters registers) := by
  have hinstruction : instruction w = some fun regs => i.execute regs := by
    rw [instruction, hdata, hdecode]
    cases i with
    | jsrr base => exact absurd rfl (hjsrr base)
    | br | jmp | jsr | trap => rfl
  rw [tick, h.word, hinstruction]
  simp [h.clock, h.ordinary, guard, hrun]
  rfl

theorem step_of_data {i : DataInstr} (h : t.At w) (hdecode : DataInstr.decode w = some i)
    (hrun : (i.execute (fetched t.registers)).run taskHandler t = some (registers, t₁))
    (hclock : clockEnabled (t₁.memory mcrAddr) = true) :
    t.step = some (t₁.withRegisters registers) := by
  rw [step_eq_some_iff, tick_of_data h hdecode hrun, hclock]

theorem step_of_control {i : ControlInstr} (h : t.At w) (hdata : DataInstr.decode w = none)
    (hdecode : ControlInstr.decode w = some i) (hjsrr : ∀ base, i ≠ .jsrr base)
    (hrun : (i.execute (fetched t.registers)).run taskHandler t = some (registers, t)) :
    t.step = some (t.withRegisters registers) := by
  rw [step_eq_some_iff, tick_of_control h hdata hdecode hjsrr hrun, h.clock]

/-- Reading a word of memory. -/
theorem run_read {α : Type} {f : Word → BusProg α} {address : Word} (h : Ordinary address) :
    (busAccessRead address >>= f).run taskHandler t = (f (t.memory address)).run taskHandler t := by
  simp [busAccessRead, Prog.send, taskHandler, h]

/-- Storing a word in memory. -/
theorem run_write {α : Type} {f : Unit → BusProg α} {address : Word} (h : Ordinary address)
    (value : Word) : (busAccessWrite address value >>= f).run taskHandler t =
      (f ()).run taskHandler (t.poke address value) := by
  simp [busAccessWrite, Prog.send, taskHandler, h, poke]

variable {dr sr base : BitVec 3} {offset : BitVec 9} {address value : Word}

theorem step_add_imm {imm : BitVec 5} (h : t.At w)
    (hdecode : DataInstr.decode w = some (.add dr sr (.imm imm)))
    (hvalue : t.next.registers (reg sr) + imm.signExtend 16 = value) :
    t.step = some (t.result (reg dr) value) :=
  hvalue ▸ step_of_data h hdecode rfl h.clock

theorem step_and_imm {imm : BitVec 5} (h : t.At w)
    (hdecode : DataInstr.decode w = some (.and dr sr (.imm imm)))
    (hvalue : t.next.registers (reg sr) &&& imm.signExtend 16 = value) :
    t.step = some (t.result (reg dr) value) :=
  hvalue ▸ step_of_data h hdecode rfl h.clock

theorem step_lea (h : t.At w) (hdecode : DataInstr.decode w = some (.lea dr offset))
    (hvalue : t.registers .pc + 1 + offset.signExtend 16 = value) :
    t.step = some (t.result (reg dr) value) :=
  hvalue ▸ step_of_data h hdecode rfl h.clock

theorem step_ld (h : t.At w) (hdecode : DataInstr.decode w = some (.ld dr offset))
    (haddress : t.registers .pc + 1 + offset.signExtend 16 = address)
    (hordinary : Ordinary address) :
    t.step = some (t.result (reg dr) (t.memory address)) := by
  refine step_of_data h hdecode ?_ h.clock
  show (busAccessRead (t.registers .pc + 1 + offset.signExtend 16) >>= _).run taskHandler t = _
  rw [haddress, run_read hordinary]
  rfl

theorem step_ldr {offset : BitVec 6} (h : t.At w)
    (hdecode : DataInstr.decode w = some (.ldr dr base offset))
    (haddress : t.next.registers (reg base) + offset.signExtend 16 = address)
    (hordinary : Ordinary address) :
    t.step = some (t.result (reg dr) (t.memory address)) := by
  refine step_of_data h hdecode ?_ h.clock
  show (busAccessRead (t.next.registers (reg base) + offset.signExtend 16) >>= _).run taskHandler t
    = _
  rw [haddress, run_read hordinary]
  rfl

/-- LDI, where the pointer leads to the status of the display. -/
theorem step_ldi_dsr (h : t.At w) (hdecode : DataInstr.decode w = some (.ldi dr offset))
    (haddress : t.registers .pc + 1 + offset.signExtend 16 = address)
    (hordinary : Ordinary address) (hpointer : t.memory address = dsrAddress) :
    t.step = some (t.result (reg dr) t.display.dsr) := by
  refine step_of_data h hdecode ?_ h.clock
  show (busAccessRead (t.registers .pc + 1 + offset.signExtend 16) >>= _).run taskHandler t = _
  rw [haddress, run_read hordinary, hpointer]
  rfl

theorem step_st (h : t.At w) (hdecode : DataInstr.decode w = some (.st sr offset))
    (haddress : t.registers .pc + 1 + offset.signExtend 16 = address)
    (hordinary : Ordinary address) (hmcr : mcrAddr ≠ address) :
    t.step = some (t.next.poke address (t.next.registers (reg sr))) := by
  have hclock : clockEnabled ((t.poke address (t.next.registers (reg sr))).memory mcrAddr) =
      true := by
    rw [poke_memory, Function.update_of_ne hmcr]
    exact h.clock
  refine step_of_data h hdecode ?_ hclock
  show (busAccessWrite (t.registers .pc + 1 + offset.signExtend 16)
    (t.next.registers (reg sr)) >>= _).run taskHandler t = _
  rw [haddress, run_write hordinary]
  rfl

/-- STI, where the pointer leads to the data of the display. -/
theorem step_sti_ddr (h : t.At w) (hdecode : DataInstr.decode w = some (.sti sr offset))
    (haddress : t.registers .pc + 1 + offset.signExtend 16 = address)
    (hordinary : Ordinary address) (hpointer : t.memory address = ddrAddress) :
    t.step = some (t.next.print ((t.next.registers (reg sr)).setWidth 8)) := by
  have hrun : ((DataInstr.sti sr offset).execute (fetched t.registers)).run taskHandler t =
      some (fetched t.registers, t.print ((t.next.registers (reg sr)).setWidth 8)) := by
    show (busAccessRead (t.registers .pc + 1 + offset.signExtend 16) >>= _).run taskHandler t = _
    rw [haddress, run_read hordinary, hpointer]
    rfl
  exact step_of_data h hdecode hrun h.clock

/-- STI, where the pointer leads to memory. The word may stop the clock. -/
theorem tick_sti {pointer : Word} (h : t.At w)
    (hdecode : DataInstr.decode w = some (.sti sr offset))
    (haddress : t.registers .pc + 1 + offset.signExtend 16 = address)
    (hordinary : Ordinary address) (hpointer : t.memory address = pointer)
    (hordinary' : Ordinary pointer) :
    t.tick = some (clockEnabled ((t.poke pointer (t.next.registers (reg sr))).memory mcrAddr),
      t.next.poke pointer (t.next.registers (reg sr))) := by
  refine tick_of_data h hdecode ?_
  show (busAccessRead (t.registers .pc + 1 + offset.signExtend 16) >>= _).run taskHandler t = _
  rw [haddress, run_read hordinary, hpointer]
  show (busAccessWrite pointer (t.next.registers (reg sr)) >>= _).run taskHandler t = _
  rw [run_write hordinary']
  rfl

variable {nzp : BitVec 3} {target : Word}

theorem step_br_taken (h : t.At w) (hdata : DataInstr.decode w = none)
    (hdecode : ControlInstr.decode w = some (.br nzp offset)) (htaken : nzp &&& t.codes ≠ 0)
    (htarget : t.registers .pc + 1 + offset.signExtend 16 = target) :
    t.step = some (t.goto target) := by
  have hregisters : (if nzp &&& t.codes ≠ 0 then
      jump (fetched t.registers) (t.registers .pc + 1 + offset.signExtend 16)
      else fetched t.registers) = jump t.registers target := by
    rw [if_pos htaken, htarget, jump, fetched, jump, Function.update_idem]
  refine step_of_control h hdata hdecode (fun _ => by simp) ?_
  rw [← hregisters]
  rfl

theorem step_br_not_taken (h : t.At w) (hdata : DataInstr.decode w = none)
    (hdecode : ControlInstr.decode w = some (.br nzp offset)) (htaken : nzp &&& t.codes = 0) :
    t.step = some t.next := by
  refine step_of_control h hdata hdecode (fun _ => by simp) ?_
  have hregisters : (if nzp &&& t.codes ≠ 0 then
      jump (fetched t.registers) (t.registers .pc + 1 + offset.signExtend 16)
      else fetched t.registers) = fetched t.registers := if_neg (not_not_intro htaken)
  exact congrArg (fun registers => some (registers, t)) hregisters

theorem step_jmp (h : t.At w) (hdata : DataInstr.decode w = none)
    (hdecode : ControlInstr.decode w = some (.jmp base)) :
    t.step = some (t.goto (t.next.registers (reg base))) := by
  refine step_of_control h hdata hdecode (fun _ => by simp) ?_
  show some (jump (fetched t.registers) (t.next.registers (reg base)), t) = _
  rw [jump, fetched, Function.update_idem]
  rfl

theorem step_trap {vector : BitVec 8} (h : t.At w) (hdata : DataInstr.decode w = none)
    (hdecode : ControlInstr.decode w = some (.trap vector))
    (hordinary : Ordinary (vector.setWidth 16)) :
    t.step = some (t.link (t.memory (vector.setWidth 16))) := by
  refine step_of_control h hdata hdecode (fun _ => by simp) ?_
  show (busAccessRead (vector.setWidth 16) >>= _).run taskHandler t = _
  rw [run_read hordinary]
  rfl

end Task

end Lc3Simulator
