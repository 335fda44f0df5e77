import Lc3Simulator.Isa
import Mathlib.Tactic.IntervalCases

/-!
# The masks of `cpu.c` as bit fields

`cpu.c` takes instructions and status words apart with shifts and masks; the instruction set
talks about bit fields. This file relates the two, once for each macro, so that no later proof
looks at a mask again. `sign_extend` is compared with two's-complement extension at the four
widths `cpu.c` uses.

## Main results

* `signExtend_imm5`, `signExtend_offset6`, `signExtend_pcoffset9`, `signExtend_pcoffset11`
* `gpr_reg1Instru`, `gpr_reg2Instru`, `gpr_reg3Instru` — the operand registers
* `setConditionCode_setReg` — a result and its condition codes
-/

namespace Lc3Simulator

open Isa

/-! ### Operand fields -/

theorem imm5_eq (w : Word) : imm5 w = (w.extractLsb' 0 5).setWidth 16 := by
  rw [imm5]
  ext i hi
  interval_cases i <;> simp

theorem offset6_eq (w : Word) : offset6 w = (w.extractLsb' 0 6).setWidth 16 := by
  rw [offset6]
  ext i hi
  interval_cases i <;> simp

theorem pcoffset9_eq (w : Word) : pcoffset9 w = (w.extractLsb' 0 9).setWidth 16 := by
  rw [pcoffset9]
  ext i hi
  interval_cases i <;> simp

theorem pcoffset11_eq (w : Word) : pcoffset11 w = (w.extractLsb' 0 11).setWidth 16 := by
  rw [pcoffset11]
  ext i hi
  interval_cases i <;> simp

theorem trapvect8_eq (w : Word) : trapvect8 w = (w.extractLsb' 0 8).setWidth 16 := by
  rw [trapvect8]
  ext i hi
  interval_cases i <;> simp

theorem opcode_eq (w : Word) : opcode w = (w.extractLsb' 12 4).setWidth 16 := by
  rw [opcode]
  ext i hi
  interval_cases i <;> simp

theorem isImm5_eq (w : Word) : isImm5 w = w.getLsbD 5 := by
  have h : (w >>> 5) &&& 0x0001 = (BitVec.ofBool (w.getLsbD 5)).setWidth 16 := by
    ext i hi
    interval_cases i <;> simp
  rw [isImm5]
  rw [h]
  cases w.getLsbD 5 <;> decide

theorem isJsr_eq (w : Word) : isJsr w = w.getLsbD 11 := by
  have h : (w >>> 11) &&& 0x0001 = (BitVec.ofBool (w.getLsbD 11)).setWidth 16 := by
    ext i hi
    interval_cases i <;> simp
  rw [isJsr, h]
  cases w.getLsbD 11 <;> decide

/-- The register of a zero-extended field is the register of the field. -/
theorem gpr_setWidth (field : BitVec 3) : gpr (field.setWidth 16) = reg field := by
  revert field
  decide

@[simp] theorem gpr_reg1Instru (w : Word) : gpr (reg1Instru w) = reg (w.extractLsb' 9 3) := by
  have h : reg1Instru w = (w.extractLsb' 9 3).setWidth 16 := by
    rw [reg1Instru]
    ext i hi
    interval_cases i <;> simp
  rw [h, gpr_setWidth]

@[simp] theorem gpr_reg2Instru (w : Word) : gpr (reg2Instru w) = reg (w.extractLsb' 6 3) := by
  have h : reg2Instru w = (w.extractLsb' 6 3).setWidth 16 := by
    rw [reg2Instru]
    ext i hi
    interval_cases i <;> simp
  rw [h, gpr_setWidth]

@[simp] theorem gpr_reg3Instru (w : Word) : gpr (reg3Instru w) = reg (w.extractLsb' 0 3) := by
  have h : reg3Instru w = (w.extractLsb' 0 3).setWidth 16 := by
    rw [reg3Instru]
    ext i hi
    interval_cases i <;> simp
  rw [h, gpr_setWidth]

/-- The general registers are not the registers behind them. -/
theorem reg_ne (field : BitVec 3) :
    reg field ≠ .pc ∧ reg field ≠ .psr ∧ reg field ≠ .usp ∧ reg field ≠ .ssp := by
  revert field
  decide

@[simp] theorem reg_ne_pc (field : BitVec 3) : reg field ≠ .pc := (reg_ne field).1

@[simp] theorem reg_ne_psr (field : BitVec 3) : reg field ≠ .psr := (reg_ne field).2.1

/-! ### Sign extension -/

@[simp] theorem signExtend_imm5 (w : Word) :
    signExtend (imm5 w) 5 = (w.extractLsb' 0 5).signExtend 16 := by
  rw [imm5_eq]
  generalize w.extractLsb' 0 5 = field
  revert field
  decide +kernel

@[simp] theorem signExtend_offset6 (w : Word) :
    signExtend (offset6 w) 6 = (w.extractLsb' 0 6).signExtend 16 := by
  rw [offset6_eq]
  generalize w.extractLsb' 0 6 = field
  revert field
  decide +kernel

@[simp] theorem signExtend_pcoffset9 (w : Word) :
    signExtend (pcoffset9 w) 9 = (w.extractLsb' 0 9).signExtend 16 := by
  rw [pcoffset9_eq]
  generalize w.extractLsb' 0 9 = field
  revert field
  decide +kernel

@[simp] theorem signExtend_pcoffset11 (w : Word) :
    signExtend (pcoffset11 w) 11 = (w.extractLsb' 0 11).signExtend 16 := by
  rw [pcoffset11_eq]
  generalize w.extractLsb' 0 11 = field
  revert field
  decide +kernel

/-! ### The status word -/

theorem getLsbD_withCondition (psr : Word) (nzp : BitVec 3) (i : ℕ) :
    (withCondition psr nzp).getLsbD i = if i < 3 then nzp.getLsbD i else psr.getLsbD i := by
  rw [withCondition, BitVec.getLsbD_append]
  rcases Nat.lt_or_ge i 3 with h | h
  · simp [h]
  · rw [BitVec.getLsbD_extractLsb', show 3 + (i - 3) = i by omega]
    rcases Nat.lt_or_ge i 16 with h16 | h16
    · simp [show ¬ i < 3 by omega, show i - 3 < 13 by omega]
    · simp [show ¬ i < 3 by omega, BitVec.getLsbD_of_ge psr i h16]

/-- Clearing the condition codes and setting some of them. -/
theorem clear_or_eq_withCondition (psr : Word) (nzp : BitVec 3) :
    psr &&& nzpPsrClearMask ||| nzp.setWidth 16 = withCondition psr nzp := by
  apply BitVec.eq_of_getLsbD_eq
  intro i hi
  rw [getLsbD_withCondition]
  rw [nzpPsrClearMask]
  interval_cases i <;> simp

/-- The mask `set_condition_code` chooses. -/
theorem condition_eq (value : Word) :
    (if 0 < value.toInt then setPsrPMask else if value.toInt < 0 then setPsrNMask
      else setPsrZMask) = (condition value).setWidth 16 := by
  rw [condition]
  rcases eq_or_ne value 0 with rfl | hne
  · decide
  · have h0 : value.toInt ≠ 0 := fun h => hne (BitVec.toInt_inj.mp (h.trans BitVec.toInt_zero.symm))
    rw [if_neg hne]
    have hmsb : value.msb = decide (value.toInt < 0) := BitVec.msb_eq_toInt
    rcases Int.lt_or_lt_of_ne h0 with hneg | hpos
    · rw [hmsb, if_neg (by omega), if_pos hneg]
      simp [hneg, setPsrNMask]
    · rw [hmsb, if_pos hpos]
      simp [show ¬ value.toInt < 0 by omega, setPsrPMask]

/-! ### Writing a result -/

/-- `cpu` with another register file. -/
def Cpu.withRegisters (cpu : Cpu) (regs : Registers) : Cpu := { cpu with registers := regs }

@[simp] theorem Cpu.withRegisters_registers (cpu : Cpu) (regs : Registers) :
    (cpu.withRegisters regs).registers = regs := rfl

@[simp] theorem Cpu.withRegisters_self (cpu : Cpu) : cpu.withRegisters cpu.registers = cpu := rfl

theorem Cpu.setReg_eq (cpu : Cpu) (r : Lc3Reg) (value : Word) :
    cpu.setReg r value = cpu.withRegisters (Function.update cpu.registers r value) := rfl

@[simp] theorem setReg_registers (cpu : Cpu) (r : Lc3Reg) (value : Word) :
    (cpu.setReg r value).registers = Function.update cpu.registers r value := rfl

/-- Setting the condition codes from a register other than the PSR. -/
theorem setConditionCode_eq (cpu : Cpu) {r : Lc3Reg} :
    setConditionCode cpu r =
      cpu.setReg .psr (withCondition (cpu.registers .psr) (condition (cpu.registers r))) := by
  rw [← clear_or_eq_withCondition, ← condition_eq]
  rcases lt_trichotomy (cpu.registers r).toInt 0 with h | h | h
  · simp [setConditionCode, Cpu.setReg, h, not_lt.mpr h.le]
  · simp [setConditionCode, Cpu.setReg, h]
  · simp [setConditionCode, Cpu.setReg, h]

/-- **A result and its condition codes.** The handlers store a value and then look it up to set
the condition codes; together this is the reference's `writeResult`. -/
theorem setConditionCode_setReg (cpu : Cpu) (dr : BitVec 3) (value : Word) :
    setConditionCode (cpu.setReg (reg dr) value) (reg dr) =
      cpu.withRegisters (writeResult cpu.registers dr value) := by
  rw [setConditionCode_eq]
  simp [writeResult, Cpu.setReg, Cpu.withRegisters, Function.update_of_ne (reg_ne_psr dr).symm]

end Lc3Simulator
