import Lc3Simulator.Library.Interaction
import Lc3Simulator.Register

/-!
# The CPU

The functions of `cpu.c`, in the order of the source. The CPU reaches memory only through its
`bus_accessor`, so a function that uses it is a program whose requests are bus accesses; what
answers them is left open here. A function that never uses the bus is an ordinary function.

The `bus_accessor` pointer of `struct cpu` is the environment the programs run in, and is not
stored in the model.

## Main definitions

* `BusProg` — programs whose requests are bus reads and writes
* `Cpu` — `struct cpu`
* `instruFuncVec` — the table of instruction handlers
* `cpuSignalInterrupt`, `cpuTick` — the entry points of the simulator
-/

namespace Lc3Simulator

open Interaction

/-! ### The bus, as the CPU sees it -/

/-- A call through `struct bus_accessor`. -/
inductive BusRequest
  | read (address : Word)
  | write (address value : Word)
  deriving DecidableEq, Repr

/-- What the call returns: a read returns a word, a write returns nothing. -/
abbrev BusResponse : BusRequest → Type
  | .read _ => Word
  | .write _ _ => Unit

/-- A program that accesses the bus. -/
abbrev BusProg := Prog BusRequest BusResponse

/-- `struct bus_accessor`, with the state behind its `data` pointer as a type of its own. `none` is
an access that does not come back: the C code dereferences a null pointer, indexes outside an
array, or a device aborts. -/
structure BusAccessor (σ : Type) where
  read : σ → Word → Option (Word × σ)
  write : σ → Word → Word → Option σ

/-- The environment in which the programs of the CPU run. -/
def BusAccessor.handler {σ : Type} (bus : BusAccessor σ) : Handler BusRequest BusResponse σ
  | .read address, s => bus.read s address
  | .write address value, s => (bus.write s address value).map fun s' => ((), s')

/-- `bus_access->read(bus_access, address)`. -/
def busAccessRead (address : Word) : BusProg Word := Prog.send (BusRequest.read address)

/-- `bus_access->write(bus_access, address, value)`. -/
def busAccessWrite (address value : Word) : BusProg Unit :=
  Prog.send (BusRequest.write address value)

/-! ### Fields of an instruction -/

/-- `OPCODE`. -/
def opcode (instruction : Word) : Word := instruction >>> 12

/-- `REG1_INSTRU`. -/
def reg1Instru (instruction : Word) : Word := (instruction >>> 9) &&& 0x0007

/-- `REG2_INSTRU`. -/
def reg2Instru (instruction : Word) : Word := (instruction >>> 6) &&& 0x0007

/-- `REG3_INSTRU`. -/
def reg3Instru (instruction : Word) : Word := instruction &&& 0x0007

/-- `IMM5`. -/
def imm5 (instruction : Word) : Word := instruction &&& 0x001F

/-- `PCOFFSET9`. -/
def pcoffset9 (instruction : Word) : Word := instruction &&& 0x01FF

/-- `PCOFFSET11`. -/
def pcoffset11 (instruction : Word) : Word := instruction &&& 0x07FF

/-- `OFFSET6`. -/
def offset6 (instruction : Word) : Word := instruction &&& 0x003F

/-- `NZP_INSTRU`. -/
def nzpInstru (instruction : Word) : Word := instruction >>> 9

/-- `NZP_PSR`. -/
def nzpPsr (value : Word) : Word := value &&& 0x0007

/-- `TRAPVECT8`. -/
def trapvect8 (instruction : Word) : Word := instruction &&& 0x00FF

/-- `IS_IMM5`. -/
def isImm5 (instruction : Word) : Bool := (instruction >>> 5) &&& 0x0001 ≠ 0

/-- `IS_JSR`. -/
def isJsr (instruction : Word) : Bool := (instruction >>> 11) &&& 0x0001 ≠ 0

/-! ### Status words -/

def nzpPsrClearMask : Word := 0xFFF8
def setPsrPMask : Word := 0x0001
def setPsrZMask : Word := 0x0002
def setPsrNMask : Word := 0x0004
def initPsrMaskSupervisor : Word := 0x0002

/-- `CLOCK_ENABLED`. -/
def clockEnabled (value : Word) : Bool := value &&& 0x8000 ≠ 0

/-- `SUPERVISOR_BIT`, read as a truth value. The bit is set in *user* mode. -/
def supervisorBit (psr : Word) : Bool := psr >>> 15 ≠ 0

def interruptVectorTable : Word := 0x0100

/-- `PSR_PRIORITY`. -/
def psrPriority (psr : Word) : Word := 0x0007 &&& (psr >>> 8)

def privModeViolationExceptionVector : Byte := 0x00
def illegalOpcodeExceptionVector : Byte := 0x01

/-- `MCR_ADDR`. -/
def mcrAddr : Word := 0xFFFE

/-! ### State -/

/-- `struct cpu_exception`. -/
structure CpuException where
  toggle : Bool
  vecLocation : Byte
  deriving DecidableEq

/-- `struct cpu`. -/
structure Cpu where
  privModeViolationExceptionLine : CpuException
  illegalOpcodeExceptionLine : CpuException
  registers : Registers

/-- `cpu->registers[reg] = value`. -/
def Cpu.setReg (cpu : Cpu) (reg : Lc3Reg) (value : Word) : Cpu :=
  { cpu with registers := Function.update cpu.registers reg value }

/-- `setup_exceptions`. -/
def setupExceptions (cpu : Cpu) : Cpu :=
  { cpu with
    privModeViolationExceptionLine := ⟨false, privModeViolationExceptionVector⟩
    illegalOpcodeExceptionLine := ⟨false, illegalOpcodeExceptionVector⟩ }

/-! ### Helpers of the instruction handlers -/

/-- `supervisor_stack_push`. -/
def supervisorStackPush (cpu : Cpu) (data : Word) : BusProg Cpu := do
  let cpu := cpu.setReg .r6 (cpu.registers .r6 - 1)
  busAccessWrite (cpu.registers .r6) data
  return cpu

/-- `supervisor_stack_pop`. -/
def supervisorStackPop (cpu : Cpu) : BusProg (Word × Cpu) := do
  let data ← busAccessRead (cpu.registers .r6)
  return (data, cpu.setReg .r6 (cpu.registers .r6 + 1))

/-- `sign_extend`. The sums and complements are taken in `int`. -/
def signExtend (value : Word) (numBits : ℕ) : Word :=
  let mask : Word := (~~~((0xFFFF : BitVec 32) <<< numBits)).setWidth 16
  let signBit : Word := ((1 : BitVec 32) <<< (numBits - 1)).setWidth 16
  if value &&& signBit ≠ 0 then
    (~~~((value ^^^ mask).setWidth 32 + 1) + 1).setWidth 16
  else
    value

/-- `set_condition_code`. -/
def setConditionCode (cpu : Cpu) (reg : Lc3Reg) : Cpu :=
  let val : ℤ := (cpu.registers reg).toInt
  let cpu := cpu.setReg .psr (cpu.registers .psr &&& nzpPsrClearMask)
  if val > 0 then
    cpu.setReg .psr (cpu.registers .psr ||| setPsrPMask)
  else if val < 0 then
    cpu.setReg .psr (cpu.registers .psr ||| setPsrNMask)
  else
    cpu.setReg .psr (cpu.registers .psr ||| setPsrZMask)

/-- `compute_direct_address`. -/
def computeDirectAddress (cpu : Cpu) (instruction : Word) : Word :=
  cpu.registers .pc + signExtend (pcoffset9 instruction) 9

/-- `compute_indirect_address`. -/
def computeIndirectAddress (cpu : Cpu) (instruction : Word) : BusProg Word :=
  let pcOffset := signExtend (pcoffset9 instruction) 9
  busAccessRead (cpu.registers .pc + pcOffset)

/-- `compute_base_plus_offset`. -/
def computeBasePlusOffset (cpu : Cpu) (instruction : Word) : Word :=
  let offSet := signExtend (offset6 instruction) 6
  cpu.registers (gpr (reg2Instru instruction)) + offSet

/-! ### The instruction handlers -/

/-- `add_and`. -/
def addAnd (cpu : Cpu) (instruction : Word) : BusProg Cpu :=
  let dest := gpr (reg1Instru instruction)
  let sr1Val := cpu.registers (gpr (reg2Instru instruction))
  let sr2Val :=
    if isImm5 instruction then signExtend (imm5 instruction) 5
    else cpu.registers (gpr (reg3Instru instruction))
  let cpu :=
    if opcode instruction = 0x1 then cpu.setReg dest (sr1Val + sr2Val)
    else if opcode instruction = 0x5 then cpu.setReg dest (sr1Val &&& sr2Val)
    else cpu
  return setConditionCode cpu dest

/-- `br`. -/
def br (cpu : Cpu) (instruction : Word) : BusProg Cpu :=
  if nzpInstru instruction &&& nzpPsr (cpu.registers .psr) ≠ 0 then
    return cpu.setReg .pc (cpu.registers .pc + signExtend (pcoffset9 instruction) 9)
  else
    return cpu

/-- `jmp_ret`. -/
def jmpRet (cpu : Cpu) (instruction : Word) : BusProg Cpu :=
  return cpu.setReg .pc (cpu.registers (gpr (reg2Instru instruction)))

/-- `jsr_jsrr`. `R7` is written before the base register is read. -/
def jsrJsrr (cpu : Cpu) (instruction : Word) : BusProg Cpu :=
  let cpu := cpu.setReg .r7 (cpu.registers .pc)
  let newPc :=
    if isJsr instruction then cpu.registers .pc + signExtend (pcoffset11 instruction) 11
    else cpu.registers .pc + cpu.registers (gpr (reg2Instru instruction))
  return cpu.setReg .pc newPc

/-- `ld`. -/
def ld (cpu : Cpu) (instruction : Word) : BusProg Cpu := do
  let dr := gpr (reg1Instru instruction)
  let value ← busAccessRead (computeDirectAddress cpu instruction)
  return setConditionCode (cpu.setReg dr value) dr

/-- `ldi`. -/
def ldi (cpu : Cpu) (instruction : Word) : BusProg Cpu := do
  let addr ← computeIndirectAddress cpu instruction
  let dr := gpr (reg1Instru instruction)
  let value ← busAccessRead addr
  return setConditionCode (cpu.setReg dr value) dr

/-- `ldr`. -/
def ldr (cpu : Cpu) (instruction : Word) : BusProg Cpu := do
  let addr := computeBasePlusOffset cpu instruction
  let dr := gpr (reg1Instru instruction)
  let value ← busAccessRead addr
  return setConditionCode (cpu.setReg dr value) dr

/-- `lea`. -/
def lea (cpu : Cpu) (instruction : Word) : BusProg Cpu :=
  let dr := gpr (reg1Instru instruction)
  return setConditionCode (cpu.setReg dr (computeDirectAddress cpu instruction)) dr

/-- `not`. -/
def not (cpu : Cpu) (instruction : Word) : BusProg Cpu :=
  let dr := gpr (reg1Instru instruction)
  let sr := gpr (reg2Instru instruction)
  return setConditionCode (cpu.setReg dr (~~~(cpu.registers sr))) dr

/-- `rti`. -/
def rti (cpu : Cpu) (_instruction : Word) : BusProg Cpu :=
  if supervisorBit (cpu.registers .psr) then
    return { cpu with
      privModeViolationExceptionLine := { cpu.privModeViolationExceptionLine with toggle := true } }
  else do
    let (pc, cpu) ← supervisorStackPop cpu
    let cpu := cpu.setReg .pc pc
    let (psr, cpu) ← supervisorStackPop cpu
    let cpu := cpu.setReg .psr psr
    if !supervisorBit (cpu.registers .psr) then
      return cpu.setReg .r6 (cpu.registers .usp)
    else
      return cpu

/-- `st`. -/
def st (cpu : Cpu) (instruction : Word) : BusProg Cpu := do
  let sr := gpr (reg1Instru instruction)
  busAccessWrite (computeDirectAddress cpu instruction) (cpu.registers sr)
  return cpu

/-- `sti`. -/
def sti (cpu : Cpu) (instruction : Word) : BusProg Cpu := do
  let addr ← computeIndirectAddress cpu instruction
  let sr := gpr (reg1Instru instruction)
  busAccessWrite addr (cpu.registers sr)
  return cpu

/-- `str`. -/
def str (cpu : Cpu) (instruction : Word) : BusProg Cpu := do
  let addr := computeBasePlusOffset cpu instruction
  let sr := gpr (reg1Instru instruction)
  busAccessWrite addr (cpu.registers sr)
  return cpu

/-- `trap`. -/
def trap (cpu : Cpu) (instruction : Word) : BusProg Cpu := do
  let trapvector := trapvect8 instruction
  let cpu := cpu.setReg .r7 (cpu.registers .pc)
  let pc ← busAccessRead trapvector
  return cpu.setReg .pc pc

/-- `instru_func_vec[opcode]`, as `load_instructions` fills it. `cpu_tick` never asks for the empty
place 13 nor for a place beyond 15, so that the last line stands for `TRAP`. -/
def instruFuncVec (opcode : Word) : Cpu → Word → BusProg Cpu :=
  match opcode.toNat with
  | 0x0 => br
  | 0x1 => addAnd
  | 0x2 => ld
  | 0x3 => st
  | 0x4 => jsrJsrr
  | 0x5 => addAnd
  | 0x6 => ldr
  | 0x7 => str
  | 0x8 => rti
  | 0x9 => not
  | 0xA => ldi
  | 0xB => sti
  | 0xC => jmpRet
  | 0xE => lea
  | _ => trap

/-! ### Interrupts and exceptions -/

/-- `cpu_execute_interrupt`. -/
def cpuExecuteInterrupt (cpu : Cpu) (vecLocation priority : Byte) : BusProg Cpu := do
  let cpu :=
    if supervisorBit (cpu.registers .psr) then
      let cpu := cpu.setReg .usp (cpu.registers .r6)
      cpu.setReg .r6 (cpu.registers .ssp)
    else cpu
  let cpu ← supervisorStackPush cpu (cpu.registers .psr)
  let cpu ← supervisorStackPush cpu (cpu.registers .pc)
  let cpu := cpu.setReg .psr 0
  let cpu := cpu.setReg .psr (cpu.registers .psr ||| initPsrMaskSupervisor)
  let priorityExtended : Word := priority.setWidth 16
  let cpu := cpu.setReg .psr (cpu.registers .psr ||| (priorityExtended <<< 8))
  let pc ← busAccessRead (interruptVectorTable ||| vecLocation.setWidth 16)
  return cpu.setReg .pc pc

/-- `cpu_execute_exception`. -/
def cpuExecuteException (cpu : Cpu) (vecLocation : Byte) : BusProg Cpu := do
  let priority : Word := 0x0007 &&& (cpu.registers .psr >>> 8)
  let cpu :=
    if supervisorBit (cpu.registers .psr) then
      let cpu := cpu.setReg .usp (cpu.registers .r6)
      cpu.setReg .r6 (cpu.registers .ssp)
    else cpu
  let cpu ← supervisorStackPush cpu (cpu.registers .psr)
  let cpu ← supervisorStackPush cpu (cpu.registers .pc)
  let cpu := cpu.setReg .psr 0
  let cpu := cpu.setReg .psr (cpu.registers .psr ||| initPsrMaskSupervisor)
  let cpu := cpu.setReg .psr (cpu.registers .psr ||| (priority <<< 8))
  let pc ← busAccessRead (interruptVectorTable ||| vecLocation.setWidth 16)
  return cpu.setReg .pc pc

/-- `cpu_check_exceptions`. -/
def cpuCheckExceptions (cpu : Cpu) : BusProg Cpu :=
  if cpu.privModeViolationExceptionLine.toggle then
    let cpu := { cpu with
      privModeViolationExceptionLine :=
        { cpu.privModeViolationExceptionLine with toggle := false } }
    cpuExecuteException cpu cpu.privModeViolationExceptionLine.vecLocation
  else if cpu.illegalOpcodeExceptionLine.toggle then
    let cpu := { cpu with
      illegalOpcodeExceptionLine := { cpu.illegalOpcodeExceptionLine with toggle := false } }
    cpuExecuteException cpu cpu.illegalOpcodeExceptionLine.vecLocation
  else
    return cpu

/-- `cpu_signal_interrupt`. The result says whether the interrupt was taken. -/
def cpuSignalInterrupt (cpu : Cpu) (vecLocation priority : Byte) : BusProg (Bool × Cpu) :=
  if priority.setWidth 16 ≤ psrPriority (cpu.registers .psr) then
    return (false, cpu)
  else do
    let cpu ← cpuExecuteInterrupt cpu vecLocation priority
    return (true, cpu)

/-! ### The entry points -/

/-- `cpu_read_register`. -/
def cpuReadRegister (cpu : Cpu) (reg : Lc3Reg) : Word := cpu.registers reg

/-- `cpu_write_register`. -/
def cpuWriteRegister (cpu : Cpu) (reg : Lc3Reg) (value : Word) : Cpu := cpu.setReg reg value

/-- `new_Cpu`. -/
def newCpu : BusProg Cpu := do
  let cpu := setupExceptions ⟨⟨false, 0⟩, ⟨false, 0⟩, fun _ => 0⟩
  busAccessWrite mcrAddr 0x8000
  return cpu

/-- The lines of `cpu_tick` between the fetch and the second look at the clock: raise the illegal
opcode line, or call the handler of the opcode. -/
def cpuDispatch (cpu : Cpu) (instruction : Word) : BusProg Cpu :=
  let opcode := opcode instruction
  if opcode.toNat > 15 ∨ opcode.toNat = 13 then
    return { cpu with
      illegalOpcodeExceptionLine := { cpu.illegalOpcodeExceptionLine with toggle := true } }
  else
    instruFuncVec opcode cpu instruction

/-- The lines of `cpu_tick` from the second look at the clock on. -/
def cpuTickEnd (cpu : Cpu) : BusProg (Bool × Cpu) := do
  let mcr ← busAccessRead mcrAddr
  if !clockEnabled mcr then
    return (false, cpu)
  else do
    let cpu ← cpuCheckExceptions cpu
    return (true, cpu)

/-- `cpu_tick`. The result says whether the machine goes on. -/
def cpuTick (cpu : Cpu) : BusProg (Bool × Cpu) := do
  let mcr ← busAccessRead mcrAddr
  if !clockEnabled mcr then
    return (false, cpu)
  else do
    let instruction ← busAccessRead (cpu.registers .pc)
    let cpu := cpu.setReg .pc (cpu.registers .pc + 1)
    let cpu ← cpuDispatch cpu instruction
    cpuTickEnd cpu

end Lc3Simulator
