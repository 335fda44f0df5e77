import Mathlib.Data.Int.Notation
import Mathlib.Data.Nat.Notation
import Mathlib.Logic.Function.Basic

/-!
# Words and registers

The integer types of the sources and the register file of `lc3_reg.h`.

A `uint16_t` is a `Word` and a `uint8_t` is a `Byte`, so that wrap-around is the type's own. Where
the sources compute in `int` and store the result in a `uint16_t`, the model computes in 32 bits
and truncates.

## Main definitions

* `Lc3Reg` — the twelve registers, in the order of `enum lc3_reg`
* `gpr` — the register that a three-bit operand field names
* `Registers` — the register file
-/

namespace Lc3Simulator

/-- `uint16_t`. -/
abbrev Word := BitVec 16

/-- `uint8_t`. -/
abbrev Byte := BitVec 8

/-- `enum lc3_reg`. -/
inductive Lc3Reg
  | r0 | r1 | r2 | r3 | r4 | r5 | r6 | r7 | pc | psr | usp | ssp
  deriving DecidableEq, Repr

/-- The register at place `index` of `registers[]`, for the operand fields of an instruction. The
macros that extract those fields mask them to three bits, so that only places 0 to 7 occur. -/
def gpr (index : Word) : Lc3Reg :=
  match index.toNat with
  | 0 => .r0
  | 1 => .r1
  | 2 => .r2
  | 3 => .r3
  | 4 => .r4
  | 5 => .r5
  | 6 => .r6
  | _ => .r7

/-- The contents of `registers[num_registers]`. -/
abbrev Registers := Lc3Reg → Word

end Lc3Simulator
