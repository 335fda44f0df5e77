import Lc3Simulator.Field

/-!
# Entering and leaving a handler

Interrupts and exceptions are delivered by two functions of `cpu.c` that differ in the priority
only: they push the status word and the PC through the supervisor stack pointer, switch to
supervisor mode, and jump through the vector table. `deliver` says this once.

## Main definitions

* `deliver` — pushing the frame and jumping through the table
* `entryRegisters` — the registers on entry to the handler
* `returnRegisters` — the registers after RTI in supervisor mode

## Main results

* `cpuExecuteInterrupt_eq`, `cpuExecuteException_eq` — both are `deliver`
* `run_cpuSignalInterrupt` — when an interrupt that is offered is delivered
* `rti_of_supervisor`, `rti_of_user` — what RTI does in the two modes
-/

namespace Lc3Simulator

open Interaction

/-! ### Entry -/

/-- The stack pointer the frame is pushed through: the saved one if the CPU is in user mode. -/
def entryStack (regs : Registers) : Word :=
  if supervisorBit (regs .psr) then regs .ssp else regs .r6

/-- The registers on entry to a handler, with the new status word and PC. -/
def entryRegisters (regs : Registers) (psr pc : Word) : Registers
  | .pc => pc
  | .psr => psr
  | .r6 => entryStack regs - 2
  | .usp => if supervisorBit (regs .psr) then regs .r6 else regs .usp
  | r => regs r

/-- Push the old status word and PC, and jump through the vector table. -/
def deliver (cpu : Cpu) (vec : Byte) (psr : Word) : BusProg Cpu := do
  busAccessWrite (entryStack cpu.registers - 1) (cpu.registers .psr)
  busAccessWrite (entryStack cpu.registers - 2) (cpu.registers .pc)
  let pc ← busAccessRead (interruptVectorTable + vec.setWidth 16)
  return cpu.withRegisters (entryRegisters cpu.registers psr pc)

/-- What a delivery leaves in the registers. -/
theorem run_deliver_registers {σ : Type} {h : Handler BusRequest BusResponse σ} {cpu : Cpu}
    {vec : Byte} {psr : Word} {s : σ} {x : Cpu × σ}
    (hrun : (deliver cpu vec psr).run h s = some x) :
    ∃ pc, x.1.registers = entryRegisters cpu.registers psr pc := by
  rw [deliver] at hrun
  obtain ⟨y₁, -, hrun⟩ := Option.bind_eq_some_iff.mp hrun
  obtain ⟨y₂, -, hrun⟩ := Option.bind_eq_some_iff.mp hrun
  obtain ⟨y₃, -, hrun⟩ := Option.bind_eq_some_iff.mp hrun
  obtain rfl := Option.some.inj hrun
  exact ⟨y₃.1, rfl⟩

/-- A vector is below 256, so that the table's address and the vector have no bit in common. -/
theorem table_or_eq_add (vec : Byte) :
    interruptVectorTable ||| vec.setWidth 16 = interruptVectorTable + vec.setWidth 16 := by
  revert vec
  decide +kernel

theorem sub_one_sub_one (x : Word) : x - 1#16 - 1#16 = x - 2#16 := by bv_omega

/-- The status word of a handler: supervisor mode, condition code Z, and a priority. -/
def handlerPsr (priority : Word) : Word := initPsrMaskSupervisor ||| priority <<< 8

/-- The lines that `cpu_execute_interrupt` and `cpu_execute_exception` have in common. -/
theorem pushFrame_eq (cpu : Cpu) (vec : Byte) (priority : Word) :
    (do
      let cpu :=
        if supervisorBit (cpu.registers .psr) then
          let cpu := cpu.setReg .usp (cpu.registers .r6)
          cpu.setReg .r6 (cpu.registers .ssp)
        else cpu
      let cpu ← supervisorStackPush cpu (cpu.registers .psr)
      let cpu ← supervisorStackPush cpu (cpu.registers .pc)
      let cpu := cpu.setReg .psr 0
      let cpu := cpu.setReg .psr (cpu.registers .psr ||| initPsrMaskSupervisor)
      let cpu := cpu.setReg .psr (cpu.registers .psr ||| priority <<< 8)
      let pc ← busAccessRead (interruptVectorTable ||| vec.setWidth 16)
      return cpu.setReg .pc pc : BusProg Cpu) = deliver cpu vec (handlerPsr priority) := by
  simp only [deliver, supervisorStackPush, handlerPsr]
  rw [table_or_eq_add]
  cases huser : supervisorBit (cpu.registers .psr) with
  | false =>
    have hregs : ∀ psr pc, Function.update (Function.update (Function.update cpu.registers .r6
        (cpu.registers .r6 - 2#16)) .psr psr) .pc pc = entryRegisters cpu.registers psr pc := by
      intro psr pc
      funext r
      cases r <;> simp [entryRegisters, entryStack, huser, Function.update]
    simp [entryStack, huser, Cpu.setReg, Cpu.withRegisters, ← hregs, sub_one_sub_one]
  | true =>
    have hregs : ∀ psr pc, Function.update (Function.update (Function.update (Function.update
        cpu.registers .usp (cpu.registers .r6)) .r6 (cpu.registers .ssp - 2#16)) .psr psr) .pc pc =
          entryRegisters cpu.registers psr pc := by
      intro psr pc
      funext r
      cases r <;> simp [entryRegisters, entryStack, huser, Function.update]
    simp [entryStack, huser, Cpu.setReg, Cpu.withRegisters, ← hregs, sub_one_sub_one]

theorem cpuExecuteInterrupt_eq (cpu : Cpu) (vec priority : Byte) :
    cpuExecuteInterrupt cpu vec priority = deliver cpu vec (handlerPsr (priority.setWidth 16)) :=
  pushFrame_eq cpu vec (priority.setWidth 16)

/-- **Offering an interrupt.** Up to the priority of the CPU nothing happens, and above it the
interrupt is delivered. -/
theorem run_cpuSignalInterrupt {σ : Type} {h : Handler BusRequest BusResponse σ} {cpu : Cpu}
    {vec priority : Byte} {s : σ} {x : (Bool × Cpu) × σ}
    (hrun : (cpuSignalInterrupt cpu vec priority).run h s = some x) :
    (priority.setWidth 16 ≤ psrPriority (cpu.registers .psr) ∧ x = ((false, cpu), s)) ∨
      (psrPriority (cpu.registers .psr) < priority.setWidth 16 ∧ ∃ cpu' s',
        (deliver cpu vec (handlerPsr (priority.setWidth 16))).run h s = some (cpu', s') ∧
          x = ((true, cpu'), s')) := by
  rw [cpuSignalInterrupt] at hrun
  by_cases hle : priority.setWidth 16 ≤ psrPriority (cpu.registers .psr)
  · rw [if_pos hle] at hrun
    exact Or.inl ⟨hle, (Option.some.inj hrun).symm⟩
  · rw [if_neg hle, cpuExecuteInterrupt_eq, Prog.run_bind] at hrun
    obtain ⟨⟨cpu', s'⟩, hdeliver, hrun⟩ := Option.bind_eq_some_iff.mp hrun
    exact Or.inr ⟨BitVec.not_le.mp hle, cpu', s', hdeliver, (Option.some.inj hrun).symm⟩

/-- An exception keeps the priority. -/
theorem cpuExecuteException_eq (cpu : Cpu) (vec : Byte) :
    cpuExecuteException cpu vec =
      deliver cpu vec (handlerPsr (psrPriority (cpu.registers .psr))) :=
  pushFrame_eq cpu vec (psrPriority (cpu.registers .psr))

/-- The status word of a handler is in supervisor mode and has the priority, if that has three
bits. -/
theorem handlerPsr_spec {priority : Word} (h : priority ≤ 7) :
    supervisorBit (handlerPsr priority) = false ∧ psrPriority (handlerPsr priority) = priority := by
  have hcases : ∀ field : BitVec 3, supervisorBit (handlerPsr (field.setWidth 16)) = false ∧
      psrPriority (handlerPsr (field.setWidth 16)) = field.setWidth 16 := by decide
  have hfield : (priority.setWidth 3).setWidth 16 = priority := by
    have hle : priority.toNat ≤ 7 := h
    refine BitVec.eq_of_toNat_eq ?_
    simp only [BitVec.toNat_setWidth]
    omega
  exact hfield ▸ hcases (priority.setWidth 3)

theorem psrPriority_le (psr : Word) : psrPriority psr ≤ 7 := by
  rw [psrPriority, BitVec.le_def, BitVec.toNat_and]
  exact Nat.and_le_left

/-- Entering a handler changes the mode or the stack pointer. -/
theorem entryRegisters_ne {regs : Registers} {priority : Word} (pc : Word) (h : priority ≤ 7) :
    entryRegisters regs (handlerPsr priority) pc .psr ≠ regs .psr ∨
      entryRegisters regs (handlerPsr priority) pc .r6 ≠ regs .r6 := by
  cases huser : supervisorBit (regs .psr) with
  | true =>
    left
    intro heq
    have hpsr : handlerPsr priority = regs .psr := heq
    rw [← hpsr, (handlerPsr_spec h).1] at huser
    exact Bool.false_ne_true huser
  | false =>
    right
    show entryStack regs - 2 ≠ regs .r6
    rw [entryStack, huser, if_neg Bool.false_ne_true]
    bv_omega

/-! ### Return -/

/-- The registers after RTI in supervisor mode, with the popped PC and status word. `cpu.c` takes
the saved user stack pointer when it returns to *supervisor* mode. -/
def returnRegisters (regs : Registers) (pc psr : Word) : Registers
  | .pc => pc
  | .psr => psr
  | .r6 => if supervisorBit psr then regs .r6 + 2 else regs .usp
  | r => regs r

theorem add_one_add_one (x : Word) : x + 1#16 + 1#16 = x + 2#16 := by bv_omega

/-- RTI in supervisor mode. -/
theorem rti_of_supervisor {cpu : Cpu} (w : Word) (h : supervisorBit (cpu.registers .psr) = false) :
    rti cpu w = do
      let pc ← busAccessRead (cpu.registers .r6)
      let psr ← busAccessRead (cpu.registers .r6 + 1)
      return cpu.withRegisters (returnRegisters cpu.registers pc psr) := by
  simp only [rti, supervisorStackPop]
  simp only [h, Bool.false_eq_true, if_false, bind_assoc, pure_bind, setReg_registers,
    Function.update_self]
  refine bind_congr fun pc => bind_congr fun psr => ?_
  cases hmode : supervisorBit psr with
  | false =>
    simp [Cpu.setReg, Cpu.withRegisters]
    funext r
    cases r <;> simp [returnRegisters, hmode, Function.update]
  | true =>
    simp [Cpu.setReg, Cpu.withRegisters]
    funext r
    cases r <;> simp [returnRegisters, hmode, Function.update, add_one_add_one]

/-- RTI in user mode raises the privilege exception. -/
theorem rti_of_user {cpu : Cpu} (w : Word) (h : supervisorBit (cpu.registers .psr) = true) :
    rti cpu w = return { cpu with privModeViolationExceptionLine :=
      { cpu.privModeViolationExceptionLine with toggle := true } } := by
  simp [rti, h]

end Lc3Simulator
