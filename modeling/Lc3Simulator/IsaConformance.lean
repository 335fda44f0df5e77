import Lc3Simulator.Field

/-!
# The instruction handlers against the reference

For an operate or memory instruction the handler of `cpu.c` and the reference are the *same bus
program*: the same accesses, in the same order, whatever the bus answers, and the same next
registers. The same holds for the control instructions other than JSRR.

## Main results

* `cpuDispatch_dataInstr` — the ten operate and memory instructions
* `cpuDispatch_controlInstr` — BR, JMP, JSR and TRAP
-/

namespace Lc3Simulator

open Interaction Isa

/-! ### The decoder -/

theorem opcode_cases (op : BitVec 4) :
    op = 0 ∨ op = 1 ∨ op = 2 ∨ op = 3 ∨ op = 4 ∨ op = 5 ∨ op = 6 ∨ op = 7 ∨ op = 8 ∨ op = 9 ∨
      op = 10 ∨ op = 11 ∨ op = 12 ∨ op = 13 ∨ op = 14 ∨ op = 15 := by
  revert op
  decide

/-- The dispatch of `cpu_tick`, by the opcode field. -/
theorem cpuDispatch_eq (cpu : Cpu) (w : Word) :
    cpuDispatch cpu w =
      match w.extractLsb' 12 4 with
      | 0 => br cpu w
      | 1 | 5 => addAnd cpu w
      | 2 => ld cpu w
      | 3 => st cpu w
      | 4 => jsrJsrr cpu w
      | 6 => ldr cpu w
      | 7 => str cpu w
      | 8 => rti cpu w
      | 9 => not cpu w
      | 10 => ldi cpu w
      | 11 => sti cpu w
      | 12 => jmpRet cpu w
      | 13 => return { cpu with
          illegalOpcodeExceptionLine := { cpu.illegalOpcodeExceptionLine with toggle := true } }
      | 14 => lea cpu w
      | _ => trap cpu w := by
  rw [cpuDispatch, opcode_eq]
  rcases opcode_cases (w.extractLsb' 12 4) with
    h | h | h | h | h | h | h | h | h | h | h | h | h | h | h | h <;> rw [h] <;> rfl

/-! ### Operate and memory instructions -/

/-- Run the reference on the registers of a CPU. -/
def onRegisters (cpu : Cpu) (p : Registers → BusProg Registers) : BusProg Cpu := do
  let regs ← p cpu.registers
  return cpu.withRegisters regs

theorem operand_value (regs : Registers) (w : Word) :
    (if isImm5 w then signExtend (imm5 w) 5 else regs (gpr (reg3Instru w))) =
      (Operand.decode w).value regs := by
  rw [isImm5_eq, signExtend_imm5, gpr_reg3Instru, Operand.decode]
  cases w.getLsbD 5 <;> rfl

/-- ADD and AND share a handler, which looks at the opcode again. -/
theorem addAnd_eq {cpu : Cpu} {w : Word} :
    (w.extractLsb' 12 4 = 1 → addAnd cpu w = onRegisters cpu fun regs =>
      (DataInstr.add (w.extractLsb' 9 3) (w.extractLsb' 6 3) (Operand.decode w)).execute regs) ∧
    (w.extractLsb' 12 4 = 5 → addAnd cpu w = onRegisters cpu fun regs =>
      (DataInstr.and (w.extractLsb' 9 3) (w.extractLsb' 6 3) (Operand.decode w)).execute regs) := by
  have hadd : w.extractLsb' 12 4 = 1 → opcode w = 0x1 := by rintro h; rw [opcode_eq, h]; rfl
  have hand : w.extractLsb' 12 4 = 5 → opcode w = 0x5 := by rintro h; rw [opcode_eq, h]; rfl
  rw [addAnd, operand_value]
  constructor
  · intro h
    simp [hadd h, setConditionCode_setReg, onRegisters, DataInstr.execute]
  · intro h
    simp [hand h, setConditionCode_setReg, onRegisters, DataInstr.execute]

/-- **The handlers of the operate and memory instructions are the reference.** Both sides are bus
programs: they make the same accesses in the same order, whatever the bus answers, and leave the
same registers. -/
theorem cpuDispatch_dataInstr {cpu : Cpu} {w : Word} {i : DataInstr}
    (h : DataInstr.decode w = some i) :
    cpuDispatch cpu w = onRegisters cpu fun regs => i.execute regs := by
  rw [cpuDispatch_eq]
  rw [DataInstr.decode] at h
  rcases opcode_cases (w.extractLsb' 12 4) with
    hop | hop | hop | hop | hop | hop | hop | hop | hop | hop | hop | hop | hop | hop | hop | hop
    <;> rw [hop] at h ⊢ <;> obtain ⟨rfl⟩ := h
  · exact addAnd_eq.1 hop
  · simp [ld, setConditionCode_setReg, onRegisters, DataInstr.execute, computeDirectAddress]
  · simp [st, onRegisters, DataInstr.execute, computeDirectAddress]
  · exact addAnd_eq.2 hop
  · simp [ldr, setConditionCode_setReg, onRegisters, DataInstr.execute, computeBasePlusOffset]
  · simp [str, onRegisters, DataInstr.execute, computeBasePlusOffset]
  · simp [not, setConditionCode_setReg, onRegisters, DataInstr.execute]
  · simp [ldi, setConditionCode_setReg, onRegisters, DataInstr.execute, computeIndirectAddress]
  · simp [sti, onRegisters, DataInstr.execute, computeIndirectAddress]
  · simp [lea, setConditionCode_setReg, onRegisters, DataInstr.execute, computeDirectAddress]

/-! ### Control instructions -/

theorem nzpInstru_and_nzpPsr (w psr : Word) :
    nzpInstru w &&& nzpPsr psr = (w.extractLsb' 9 3 &&& psr.extractLsb' 0 3).setWidth 16 := by
  rw [nzpInstru, nzpPsr]
  ext i hi
  interval_cases i <;> simp

/-- BR is taken exactly when its mask meets the condition codes. -/
theorem br_eq (cpu : Cpu) (w : Word) :
    br cpu w = onRegisters cpu fun regs =>
      (ControlInstr.br (w.extractLsb' 9 3) (w.extractLsb' 0 9)).execute regs := by
  have hne : ∀ nzp : BitVec 3, nzp.setWidth 16 = (0 : Word) ↔ nzp = 0 := by decide
  rw [br, onRegisters, ControlInstr.execute, nzpInstru_and_nzpPsr]
  simp only [ne_eq, hne, signExtend_pcoffset9]
  split <;> rfl

/-- JSR and JSRR share a handler. -/
theorem jsrJsrr_eq (cpu : Cpu) (w : Word) :
    jsrJsrr cpu w = return cpu.withRegisters (jumpAndLink cpu.registers
      (cpu.registers .pc +
        if w.getLsbD 11 then (w.extractLsb' 0 11).signExtend 16
        else Function.update cpu.registers .r7 (cpu.registers .pc) (reg (w.extractLsb' 6 3)))) := by
  rw [jsrJsrr, isJsr_eq, signExtend_pcoffset11, gpr_reg2Instru]
  cases w.getLsbD 11 <;> rfl

/-- **The handlers of BR, JMP, JSR and TRAP are the reference.** -/
theorem cpuDispatch_controlInstr {cpu : Cpu} {w : Word} {i : ControlInstr}
    (h : ControlInstr.decode w = some i) (hjsrr : ∀ base, i ≠ .jsrr base) :
    cpuDispatch cpu w = onRegisters cpu fun regs => i.execute regs := by
  rw [cpuDispatch_eq]
  rw [ControlInstr.decode] at h
  rcases opcode_cases (w.extractLsb' 12 4) with
    hop | hop | hop | hop | hop | hop | hop | hop | hop | hop | hop | hop | hop | hop | hop | hop
    <;> rw [hop] at h ⊢ <;> try cases h
  · exact br_eq cpu w
  · rw [jsrJsrr_eq]
    cases hjsr : w.getLsbD 11 <;> rw [hjsr] at h
    · obtain ⟨rfl⟩ := h
      exact absurd rfl (hjsrr _)
    · obtain ⟨rfl⟩ := h
      rfl
  · simp [jmpRet, onRegisters, ControlInstr.execute, jump, Cpu.setReg_eq]
  · simp [trap, trapvect8_eq, onRegisters, ControlInstr.execute, jumpAndLink, jump, Cpu.setReg,
      Cpu.withRegisters]

/-- What the handler of JSRR does instead: it adds the incremented PC to the base register, and
reads the base register after `R7` is written. -/
theorem cpuDispatch_jsrr {cpu : Cpu} {w : Word} {base : BitVec 3}
    (h : ControlInstr.decode w = some (.jsrr base)) :
    cpuDispatch cpu w = return cpu.withRegisters (jumpAndLink cpu.registers
      (cpu.registers .pc +
        Function.update cpu.registers .r7 (cpu.registers .pc) (reg base))) := by
  rw [cpuDispatch_eq]
  rw [ControlInstr.decode] at h
  rcases opcode_cases (w.extractLsb' 12 4) with
    hop | hop | hop | hop | hop | hop | hop | hop | hop | hop | hop | hop | hop | hop | hop | hop
    <;> rw [hop] at h ⊢ <;> try cases h
  rw [jsrJsrr_eq]
  cases hjsr : w.getLsbD 11 <;> rw [hjsr] at h
  · obtain ⟨rfl⟩ := h
    rfl
  · cases h

/-! ### One tick -/

/-- No exception is waiting, as in every state `setup_exceptions` leaves. -/
def Cpu.LinesLow (cpu : Cpu) : Prop :=
  cpu.privModeViolationExceptionLine.toggle = false ∧ cpu.illegalOpcodeExceptionLine.toggle = false

theorem cpuCheckExceptions_of_linesLow {cpu : Cpu} (h : cpu.LinesLow) :
    cpuCheckExceptions cpu = return cpu := by
  simp [cpuCheckExceptions, h.1, h.2]

section Tick

variable {σ : Type} {env : Handler BusRequest BusResponse σ} {cpu : Cpu} {s s₁ s₂ : σ}
  {mcr w : Word}

/-- A tick with the clock enabled: poll, fetch, dispatch, and the end of the tick. -/
theorem run_cpuTick (hpoll : env (.read mcrAddr) s = some (mcr, s₁))
    (hclock : clockEnabled mcr = true)
    (hfetch : env (.read (cpu.registers .pc)) s₁ = some (w, s₂)) :
    (cpuTick cpu).run env s =
      ((cpuDispatch (cpu.withRegisters (fetched cpu.registers)) w).run env s₂).bind fun x =>
        (cpuTickEnd x.1).run env x.2 := by
  simp [cpuTick, busAccessRead, Prog.send, hpoll, hclock, hfetch, Cpu.setReg_eq, fetched]

/-- With no exception waiting, the end of a tick is a second poll and nothing else. -/
theorem run_cpuTickEnd (h : cpu.LinesLow) :
    (cpuTickEnd cpu).run env s =
      (env (.read mcrAddr) s).map fun x => ((clockEnabled x.1, cpu), x.2) := by
  rw [cpuTickEnd, cpuCheckExceptions_of_linesLow h]
  cases hpoll : env (.read mcrAddr) s with
  | none => simp [busAccessRead, Prog.send, hpoll]
  | some x => cases hclock : clockEnabled x.1 <;> simp [busAccessRead, Prog.send, hpoll, hclock]

end Tick

end Lc3Simulator
