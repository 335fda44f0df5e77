import Lc3Simulator.Cpu

/-!
# The reference: LC-3, second edition

What the instruction set says an instruction does, written from the instruction set and not from
`cpu.c`: operands are bit fields, immediates and offsets are two's-complement numbers of their
own width, addresses are relative to the incremented PC, and arithmetic is modulo `2 ^ 16`.

An instruction is a program over the bus as well, so that the reference fixes which words it
accesses and in which order. The fetch is not part of it: `execute` starts from the register file
in which the PC is already incremented.

Bits that an encoding leaves unused are not looked at.

## Main definitions

* `DataInstr` — the operate and memory instructions, `ControlInstr` — the control instructions
* `DataInstr.decode`, `ControlInstr.decode` — reading them off an instruction word
* `DataInstr.execute`, `ControlInstr.execute` — what they do
-/

namespace Lc3Simulator

namespace Isa

open Interaction

/-- The register a three-bit field names. -/
def reg (field : BitVec 3) : Lc3Reg :=
  match field with
  | 0 => .r0
  | 1 => .r1
  | 2 => .r2
  | 3 => .r3
  | 4 => .r4
  | 5 => .r5
  | 6 => .r6
  | 7 => .r7

/-- The register file after the fetch. -/
def fetched (regs : Registers) : Registers := Function.update regs .pc (regs .pc + 1)

/-- The condition codes of a value: N, Z and P, from left to right. -/
def condition (value : Word) : BitVec 3 :=
  if value = 0 then 0b010 else if value.msb then 0b100 else 0b001

/-- `psr` with other condition codes. -/
def withCondition (psr : Word) (nzp : BitVec 3) : Word := psr.extractLsb' 3 13 ++ nzp

/-- A result goes to its register and sets the condition codes. -/
def writeResult (regs : Registers) (dr : BitVec 3) (value : Word) : Registers :=
  Function.update (Function.update regs (reg dr) value) .psr
    (withCondition (regs .psr) (condition value))

/-! ### Operate and memory instructions -/

/-- The second source of ADD and AND. -/
inductive Operand
  | reg (sr2 : BitVec 3)
  | imm (imm5 : BitVec 5)
  deriving DecidableEq

/-- The operate and memory instructions. -/
inductive DataInstr
  | add (dr sr1 : BitVec 3) (src2 : Operand)
  | and (dr sr1 : BitVec 3) (src2 : Operand)
  | not (dr sr : BitVec 3)
  | ld (dr : BitVec 3) (pcOffset : BitVec 9)
  | ldi (dr : BitVec 3) (pcOffset : BitVec 9)
  | ldr (dr base : BitVec 3) (offset : BitVec 6)
  | lea (dr : BitVec 3) (pcOffset : BitVec 9)
  | st (sr : BitVec 3) (pcOffset : BitVec 9)
  | sti (sr : BitVec 3) (pcOffset : BitVec 9)
  | str (sr base : BitVec 3) (offset : BitVec 6)
  deriving DecidableEq

/-- Bit 5 of ADD and AND chooses between a register and an immediate. -/
def Operand.decode (w : Word) : Operand :=
  if w.getLsbD 5 then .imm (w.extractLsb' 0 5) else .reg (w.extractLsb' 0 3)

/-- Read an operate or memory instruction off its word; `none` for the other opcodes. -/
def DataInstr.decode (w : Word) : Option DataInstr :=
  match w.extractLsb' 12 4 with
  | 0b0001 => some (.add (w.extractLsb' 9 3) (w.extractLsb' 6 3) (Operand.decode w))
  | 0b0101 => some (.and (w.extractLsb' 9 3) (w.extractLsb' 6 3) (Operand.decode w))
  | 0b1001 => some (.not (w.extractLsb' 9 3) (w.extractLsb' 6 3))
  | 0b0010 => some (.ld (w.extractLsb' 9 3) (w.extractLsb' 0 9))
  | 0b1010 => some (.ldi (w.extractLsb' 9 3) (w.extractLsb' 0 9))
  | 0b0110 => some (.ldr (w.extractLsb' 9 3) (w.extractLsb' 6 3) (w.extractLsb' 0 6))
  | 0b1110 => some (.lea (w.extractLsb' 9 3) (w.extractLsb' 0 9))
  | 0b0011 => some (.st (w.extractLsb' 9 3) (w.extractLsb' 0 9))
  | 0b1011 => some (.sti (w.extractLsb' 9 3) (w.extractLsb' 0 9))
  | 0b0111 => some (.str (w.extractLsb' 9 3) (w.extractLsb' 6 3) (w.extractLsb' 0 6))
  | _ => none

/-- The opcodes of ADD, AND, NOT, LD, LDI, LDR, LEA, ST, STI and STR. -/
def dataOpcodes : List (BitVec 4) :=
  [0b0001, 0b0101, 0b1001, 0b0010, 0b1010, 0b0110, 0b1110, 0b0011, 0b1011, 0b0111]

/-- The value of the second source. -/
def Operand.value (regs : Registers) : Operand → Word
  | .reg sr2 => regs (Isa.reg sr2)
  | .imm imm5 => imm5.signExtend 16

/-- What an operate or memory instruction does, from the register file after the fetch. -/
def DataInstr.execute (regs : Registers) : DataInstr → BusProg Registers
  | .add dr sr1 src2 => return writeResult regs dr (regs (reg sr1) + src2.value regs)
  | .and dr sr1 src2 => return writeResult regs dr (regs (reg sr1) &&& src2.value regs)
  | .not dr sr => return writeResult regs dr (~~~(regs (reg sr)))
  | .ld dr pcOffset => do
    let value ← busAccessRead (regs .pc + pcOffset.signExtend 16)
    return writeResult regs dr value
  | .ldi dr pcOffset => do
    let pointer ← busAccessRead (regs .pc + pcOffset.signExtend 16)
    let value ← busAccessRead pointer
    return writeResult regs dr value
  | .ldr dr base offset => do
    let value ← busAccessRead (regs (reg base) + offset.signExtend 16)
    return writeResult regs dr value
  | .lea dr pcOffset => return writeResult regs dr (regs .pc + pcOffset.signExtend 16)
  | .st sr pcOffset => do
    busAccessWrite (regs .pc + pcOffset.signExtend 16) (regs (reg sr))
    return regs
  | .sti sr pcOffset => do
    let pointer ← busAccessRead (regs .pc + pcOffset.signExtend 16)
    busAccessWrite pointer (regs (reg sr))
    return regs
  | .str sr base offset => do
    busAccessWrite (regs (reg base) + offset.signExtend 16) (regs (reg sr))
    return regs

/-! ### Control instructions -/

/-- The control instructions other than RTI. -/
inductive ControlInstr
  | br (nzp : BitVec 3) (pcOffset : BitVec 9)
  | jmp (base : BitVec 3)
  | jsr (pcOffset : BitVec 11)
  | jsrr (base : BitVec 3)
  | trap (vector : BitVec 8)
  deriving DecidableEq

/-- Read a control instruction off its word; `none` for the other opcodes. -/
def ControlInstr.decode (w : Word) : Option ControlInstr :=
  match w.extractLsb' 12 4 with
  | 0b0000 => some (.br (w.extractLsb' 9 3) (w.extractLsb' 0 9))
  | 0b1100 => some (.jmp (w.extractLsb' 6 3))
  | 0b0100 =>
    if w.getLsbD 11 then some (.jsr (w.extractLsb' 0 11)) else some (.jsrr (w.extractLsb' 6 3))
  | 0b1111 => some (.trap (w.extractLsb' 0 8))
  | _ => none

/-- A jump, keeping everything else. -/
def jump (regs : Registers) (target : Word) : Registers := Function.update regs .pc target

/-- A jump that leaves the return address in `R7`. -/
def jumpAndLink (regs : Registers) (target : Word) : Registers :=
  jump (Function.update regs .r7 (regs .pc)) target

/-- What a control instruction does, from the register file after the fetch. -/
def ControlInstr.execute (regs : Registers) : ControlInstr → BusProg Registers
  | .br nzp pcOffset =>
    return if nzp &&& (regs .psr).extractLsb' 0 3 ≠ 0 then
      jump regs (regs .pc + pcOffset.signExtend 16) else regs
  | .jmp base => return jump regs (regs (reg base))
  | .jsr pcOffset => return jumpAndLink regs (regs .pc + pcOffset.signExtend 16)
  | .jsrr base => return jumpAndLink regs (regs (reg base))
  | .trap vector => do
    let target ← busAccessRead (vector.setWidth 16)
    return jumpAndLink regs target

end Isa

end Lc3Simulator
