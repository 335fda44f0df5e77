import Lc3Simulator.TickConformance

/-!
# What instructions and deliveries do to the registers

For what holds over long runs it is enough to know little about an instruction: whether it writes a
result, returns from a handler, or does neither, and what it may change then. `Executed` says this
for every opcode and in both modes, whatever the bus answers. Likewise `Entry` says what a delivery
does from both modes.

## Main definitions

* `destination` — the register that an instruction writes its result to
* `Executed` — what an instruction leaves in the registers
* `waiting` — the exception that the check for exceptions delivers
* `Entry` — a delivery: registers, frame and vector

## Main results

* `run_cpuDispatch_executed`, `run_cpuExecute_cases` — one instruction
* `run_deliver_entry` — one delivery
-/

namespace Lc3Simulator

open Interaction Isa

/-! ### The status word -/

/-- The mode and the priority of two status words are the same. -/
def SameMode (psr psr' : Word) : Prop :=
  psr'.getLsbD 15 = psr.getLsbD 15 ∧ psrPriority psr' = psrPriority psr

theorem SameMode.refl (psr : Word) : SameMode psr psr := ⟨rfl, rfl⟩

theorem sameMode_withCondition (psr : Word) (nzp : BitVec 3) :
    SameMode psr (withCondition psr nzp) := by
  refine ⟨by rw [getLsbD_withCondition]; rfl, BitVec.eq_of_getLsbD_eq fun i hi => ?_⟩
  simp only [psrPriority]
  rw [BitVec.getLsbD_and, BitVec.getLsbD_and, BitVec.getLsbD_ushiftRight,
    BitVec.getLsbD_ushiftRight, getLsbD_withCondition, if_neg (show ¬ 8 + i < 3 by omega)]

theorem supervisorBit_eq (psr : Word) : supervisorBit psr = psr.getLsbD 15 := by
  have h : psr >>> 15 = (BitVec.ofBool (psr.getLsbD 15)).setWidth 16 := by
    ext i hi
    interval_cases i <;> simp
  rw [supervisorBit, h]
  cases psr.getLsbD 15 <;> decide

theorem writeResult_sameMode (regs : Registers) (dr : BitVec 3) (value : Word) :
    SameMode (regs .psr) (writeResult regs dr value .psr) := by
  rw [writeResult, Function.update_self]
  exact sameMode_withCondition _ _

/-! ### Instructions -/

/-- The register that an operate or load instruction writes its result to. -/
def Isa.DataInstr.destination : DataInstr → Option (BitVec 3)
  | .add dr _ _ => some dr
  | .and dr _ _ => some dr
  | .not dr _ => some dr
  | .ld dr _ => some dr
  | .ldi dr _ => some dr
  | .ldr dr _ _ => some dr
  | .lea dr _ => some dr
  | .st _ _ => none
  | .sti _ _ => none
  | .str _ _ _ => none

/-- The register that an instruction word writes a result to: the first operand of ADD, AND, NOT,
LD, LDI, LDR and LEA. -/
def destination (w : Word) : Option (BitVec 3) := (DataInstr.decode w).bind DataInstr.destination

/-- What the instruction `w` leaves in the registers: a result with its condition codes, or at most
another PC and another `R7`, or what RTI pops. -/
inductive Executed (w : Word) (regs regs' : Registers) : Prop
  | result (dr : BitVec 3) (value : Word) (hdest : destination w = some dr)
      (h : regs' = writeResult regs dr value)
  | kept (hdest : destination w = none) (h : ∀ r, r ≠ .pc → r ≠ .r7 → regs' r = regs r)
  | returned (pc psr : Word) (hop : opcode w = 8) (hmode : supervisorBit (regs .psr) = false)
      (hdest : destination w = none) (h : regs' = returnRegisters regs pc psr)

/-- The exception that an instruction raises: RTI in user mode, or the undefined opcode. -/
def raised (cpu : Cpu) (w : Word) : Option Byte :=
  if opcode w = 8 then
    if supervisorBit (cpu.registers .psr) then some cpu.privModeViolationExceptionLine.vecLocation
    else none
  else if opcode w = 13 then some cpu.illegalOpcodeExceptionLine.vecLocation
  else none

/-- The CPU with the line of that exception raised. -/
def raiseLines (cpu : Cpu) (w : Word) : Cpu :=
  if opcode w = 8 then
    if supervisorBit (cpu.registers .psr) then { cpu with
      privModeViolationExceptionLine := { cpu.privModeViolationExceptionLine with toggle := true } }
    else cpu
  else if opcode w = 13 then { cpu with
    illegalOpcodeExceptionLine := { cpu.illegalOpcodeExceptionLine with toggle := true } }
  else cpu

section Dispatch

variable {σ : Type} {env : Handler BusRequest BusResponse σ} {s s' : σ} {cpu cpu' : Cpu} {w : Word}

/-- An operate or load instruction writes a result, a store instruction changes no register. -/
theorem execute_dataInstr_destination {i : DataInstr} {regs : Registers} {x : Registers × σ}
    (h : (i.execute regs).run env s = some x) :
    (∃ dr value, i.destination = some dr ∧ x.1 = writeResult regs dr value) ∨
      (i.destination = none ∧ x.1 = regs) := by
  cases i with
  | add dr sr1 src2 =>
    obtain rfl := Option.some.inj h
    exact Or.inl ⟨dr, _, rfl, rfl⟩
  | and dr sr1 src2 =>
    obtain rfl := Option.some.inj h
    exact Or.inl ⟨dr, _, rfl, rfl⟩
  | not dr sr =>
    obtain rfl := Option.some.inj h
    exact Or.inl ⟨dr, _, rfl, rfl⟩
  | lea dr pcOffset =>
    obtain rfl := Option.some.inj h
    exact Or.inl ⟨dr, _, rfl, rfl⟩
  | ld dr pcOffset =>
    obtain ⟨y, -, h⟩ := Option.bind_eq_some_iff.mp h
    obtain rfl := Option.some.inj h
    exact Or.inl ⟨dr, _, rfl, rfl⟩
  | ldr dr base offset =>
    obtain ⟨y, -, h⟩ := Option.bind_eq_some_iff.mp h
    obtain rfl := Option.some.inj h
    exact Or.inl ⟨dr, _, rfl, rfl⟩
  | ldi dr pcOffset =>
    obtain ⟨y, -, h⟩ := Option.bind_eq_some_iff.mp h
    obtain ⟨z, -, h⟩ := Option.bind_eq_some_iff.mp h
    obtain rfl := Option.some.inj h
    exact Or.inl ⟨dr, _, rfl, rfl⟩
  | st sr pcOffset =>
    obtain ⟨y, -, h⟩ := Option.bind_eq_some_iff.mp h
    obtain rfl := Option.some.inj h
    exact Or.inr ⟨rfl, rfl⟩
  | str sr base offset =>
    obtain ⟨y, -, h⟩ := Option.bind_eq_some_iff.mp h
    obtain rfl := Option.some.inj h
    exact Or.inr ⟨rfl, rfl⟩
  | sti sr pcOffset =>
    obtain ⟨y, -, h⟩ := Option.bind_eq_some_iff.mp h
    obtain ⟨z, -, h⟩ := Option.bind_eq_some_iff.mp h
    obtain rfl := Option.some.inj h
    exact Or.inr ⟨rfl, rfl⟩

theorem controlInstr_decode {w : Word} (h : w.extractLsb' 12 4 = 0 ∨ w.extractLsb' 12 4 = 4 ∨
    w.extractLsb' 12 4 = 12 ∨ w.extractLsb' 12 4 = 15) : ∃ i, ControlInstr.decode w = some i := by
  simp only [ControlInstr.decode]
  rcases h with h | h | h | h <;> rw [h]
  · exact ⟨_, rfl⟩
  · cases w.getLsbD 11 <;> exact ⟨_, rfl⟩
  · exact ⟨_, rfl⟩
  · exact ⟨_, rfl⟩

/-- Every opcode but RTI and the undefined one. -/
theorem decode_cases (w : Word) : opcode w = 8 ∨ opcode w = 13 ∨
    (∃ i, DataInstr.decode w = some i) ∨ ∃ i, ControlInstr.decode w = some i := by
  have hcases : ∀ op : BitVec 4, op = 8 ∨ op = 13 ∨ op ∈ dataOpcodes ∨
      op = 0 ∨ op = 4 ∨ op = 12 ∨ op = 15 := by decide
  rcases hcases (w.extractLsb' 12 4) with h | h | h | h
  · exact Or.inl (by rw [opcode_eq, h]; rfl)
  · exact Or.inr (Or.inl (by rw [opcode_eq, h]; rfl))
  · exact Or.inr (Or.inr (Or.inl (dataInstr_decode h)))
  · exact Or.inr (Or.inr (Or.inr (controlInstr_decode h)))

theorem cpuDispatch_rti (h : opcode w = 8) : cpuDispatch cpu w = rti cpu w := by
  rw [cpuDispatch, h]
  rfl

theorem cpuDispatch_illegal (h : opcode w = 13) : cpuDispatch cpu w = return { cpu with
    illegalOpcodeExceptionLine := { cpu.illegalOpcodeExceptionLine with toggle := true } } := by
  rw [cpuDispatch, h]
  rfl

/-- RTI, the undefined opcode and the control instructions write no result. -/
theorem destination_eq_none (h : w.extractLsb' 12 4 ∉ dataOpcodes) : destination w = none := by
  have hcases : ∀ op : BitVec 4, op ∉ dataOpcodes →
      op = 0 ∨ op = 4 ∨ op = 8 ∨ op = 12 ∨ op = 13 ∨ op = 15 := by decide
  have hdecode : DataInstr.decode w = none := by
    rw [DataInstr.decode]
    rcases hcases _ h with h | h | h | h | h | h <;> rw [h] <;> rfl
  rw [destination, hdecode]
  rfl

theorem opcode_eq_iff (op : BitVec 4) : opcode w = op.setWidth 16 ↔ w.extractLsb' 12 4 = op := by
  have hinj : ∀ a b : BitVec 4, a.setWidth 16 = b.setWidth 16 → a = b := by decide
  rw [opcode_eq]
  exact ⟨hinj _ _, fun h => h ▸ rfl⟩

theorem destination_of_rti (h : opcode w = 8) : destination w = none := by
  refine destination_eq_none ?_
  rw [(opcode_eq_iff 8).mp h]
  decide

theorem destination_of_illegal (h : opcode w = 13) : destination w = none := by
  refine destination_eq_none ?_
  rw [(opcode_eq_iff 13).mp h]
  decide

theorem destination_of_controlInstr {i : ControlInstr} (h : ControlInstr.decode w = some i) :
    destination w = none := by
  refine destination_eq_none fun hmem => ?_
  have hcases : ∀ op : BitVec 4, op ∈ dataOpcodes →
      op ≠ 0 ∧ op ≠ 4 ∧ op ≠ 12 ∧ op ≠ 15 := by decide
  obtain ⟨h0, h4, h12, h15⟩ := hcases _ hmem
  rw [ControlInstr.decode] at h
  split at h <;> contradiction

theorem raised_eq_some_iff {vec : Byte} : raised cpu w = some vec ↔
    (opcode w = 13 ∧ vec = cpu.illegalOpcodeExceptionLine.vecLocation) ∨
      (opcode w = 8 ∧ supervisorBit (cpu.registers .psr) = true ∧
        vec = cpu.privModeViolationExceptionLine.vecLocation) := by
  rw [raised]
  by_cases hrti : opcode w = 8
  · rw [if_pos hrti]
    cases supervisorBit (cpu.registers .psr) <;> simp [hrti, @eq_comm _ vec]
  · rw [if_neg hrti]
    by_cases hillegal : opcode w = 13
    · simp [hillegal, @eq_comm _ vec]
    · rw [if_neg hillegal]
      exact iff_of_false (by simp) fun h => h.elim (hillegal ·.1) (hrti ·.1)

/-- An instruction that raises an exception does nothing else. -/
theorem cpuDispatch_of_raised {vec : Byte} (h : raised cpu w = some vec) :
    cpuDispatch cpu w = return raiseLines cpu w := by
  rcases raised_eq_some_iff.mp h with ⟨hop, -⟩ | ⟨hop, huser, -⟩
  · have h8 : opcode w ≠ 8 := by rw [hop]; decide
    rw [cpuDispatch_illegal hop, raiseLines, if_neg h8, if_pos hop]
  · rw [cpuDispatch_rti hop, rti_of_user w huser, raiseLines, if_pos hop, if_pos huser]

theorem raiseLines_of_none (h : raised cpu w = none) : raiseLines cpu w = cpu := by
  rw [raised] at h
  rw [raiseLines]
  by_cases hrti : opcode w = 8
  · rw [if_pos hrti] at h ⊢
    cases huser : supervisorBit (cpu.registers .psr) with
    | false => rfl
    | true => simp [huser] at h
  · rw [if_neg hrti] at h ⊢
    by_cases hillegal : opcode w = 13
    · simp [hillegal] at h
    · exact if_neg hillegal

/-- An instruction that is decoded raises nothing. -/
theorem raiseLines_of_decode
    (h : (∃ i, DataInstr.decode w = some i) ∨ ∃ i, ControlInstr.decode w = some i) :
    raiseLines cpu w = cpu := by
  have hne : w.extractLsb' 12 4 ≠ 8 ∧ w.extractLsb' 12 4 ≠ 13 := by
    constructor <;> intro hop <;> rw [DataInstr.decode, ControlInstr.decode, hop] at h <;>
      obtain ⟨i, hi⟩ | ⟨i, hi⟩ := h <;> cases hi
  have h8 : opcode w ≠ 8 := fun hop => hne.1 ((opcode_eq_iff 8).mp hop)
  have h13 : opcode w ≠ 13 := fun hop => hne.2 ((opcode_eq_iff 13).mp hop)
  rw [raiseLines, if_neg h8, if_neg h13]

/-- **One instruction**, of any opcode and in any mode. -/
theorem run_cpuDispatch_executed (h : (cpuDispatch cpu w).run env s = some (cpu', s')) :
    cpu' = (raiseLines cpu w).withRegisters cpu'.registers ∧
      Executed w cpu.registers cpu'.registers := by
  rcases decode_cases w with hop | hop | ⟨i, hi⟩ | ⟨i, hi⟩
  · rw [cpuDispatch_rti hop] at h
    rw [raiseLines, if_pos hop]
    cases huser : supervisorBit (cpu.registers .psr) with
    | true =>
      rw [rti_of_user w huser] at h
      obtain ⟨rfl, -⟩ := Prod.mk.inj (Option.some.inj h)
      exact ⟨rfl, Executed.kept (destination_of_rti hop) fun r _ _ => rfl⟩
    | false =>
      rw [rti_of_supervisor w huser] at h
      obtain ⟨pc, -, h⟩ := Option.bind_eq_some_iff.mp h
      obtain ⟨psr, -, h⟩ := Option.bind_eq_some_iff.mp h
      obtain ⟨rfl, -⟩ := Prod.mk.inj (Option.some.inj h)
      exact ⟨rfl, Executed.returned pc.1 psr.1 hop huser (destination_of_rti hop) rfl⟩
  · have h8 : opcode w ≠ 8 := by rw [hop]; decide
    rw [cpuDispatch_illegal hop] at h
    obtain ⟨rfl, -⟩ := Prod.mk.inj (Option.some.inj h)
    rw [raiseLines, if_neg h8, if_pos hop]
    exact ⟨rfl, Executed.kept (destination_of_illegal hop) fun r _ _ => rfl⟩
  · rw [raiseLines_of_decode (Or.inl ⟨i, hi⟩)]
    rw [cpuDispatch_dataInstr hi, run_onRegisters] at h
    obtain ⟨x, hexec, h⟩ := Option.map_eq_some_iff.mp h
    obtain ⟨rfl, -⟩ := Prod.mk.inj h
    have hdest : destination w = i.destination := by rw [destination, hi]; rfl
    refine ⟨rfl, ?_⟩
    rcases execute_dataInstr_destination hexec with ⟨dr, value, hdr, hx⟩ | ⟨hnone, hx⟩
    · exact Executed.result dr value (hdest.trans hdr) hx
    · exact Executed.kept (hdest.trans hnone) fun r _ _ => congrFun hx r
  · have hdest : destination w = none := destination_of_controlInstr hi
    rw [raiseLines_of_decode (Or.inr ⟨i, hi⟩)]
    by_cases hjsrr : ∀ base, i ≠ .jsrr base
    · rw [cpuDispatch_controlInstr hi hjsrr, run_onRegisters] at h
      obtain ⟨x, hexec, h⟩ := Option.map_eq_some_iff.mp h
      obtain ⟨rfl, -⟩ := Prod.mk.inj h
      exact ⟨rfl, Executed.kept hdest fun r hpc h7 => execute_controlInstr_of_ne hpc h7 hexec⟩
    · obtain ⟨base, rfl⟩ : ∃ base, i = .jsrr base := by
        by_contra hnone
        exact hjsrr fun base hi => hnone ⟨base, hi⟩
      rw [cpuDispatch_jsrr hi] at h
      obtain ⟨rfl, -⟩ := Prod.mk.inj (Option.some.inj h)
      exact ⟨rfl, Executed.kept hdest fun r hpc h7 => jumpAndLink_of_ne hpc h7⟩

end Dispatch

/-- No instruction writes the saved supervisor stack pointer. -/
theorem Executed.ssp {w : Word} {regs regs' : Registers} (h : Executed w regs regs') :
    regs' .ssp = regs .ssp := by
  cases h with
  | result dr value _ h =>
    rw [h, writeResult, Function.update_of_ne (by decide),
      Function.update_of_ne (reg_ne dr).2.2.2.symm]
  | kept _ h => exact h .ssp (by decide) (by decide)
  | returned pc psr _ _ _ h =>
    rw [h]
    rfl

/-- An instruction other than RTI in supervisor mode keeps mode and priority. -/
theorem Executed.sameMode {w : Word} {regs regs' : Registers} (h : Executed w regs regs')
    (hrti : opcode w = 8 → supervisorBit (regs .psr) = true) :
    SameMode (regs .psr) (regs' .psr) := by
  cases h with
  | result dr value _ h =>
    rw [h]
    exact writeResult_sameMode regs dr value
  | kept _ h =>
    rw [h .psr (by decide) (by decide)]
    exact SameMode.refl _
  | returned _ _ hop hmode => exact absurd ((hrti hop).symm.trans hmode) (by decide)

/-! ### A tick in two parts -/

/-- A tick up to the place where it looks for exceptions. -/
def cpuExecute (cpu : Cpu) : BusProg (Bool × Cpu) := do
  let mcr ← busAccessRead mcrAddr
  if !clockEnabled mcr then
    return (false, cpu)
  else do
    let instruction ← busAccessRead (cpu.registers .pc)
    let cpu := cpu.setReg .pc (cpu.registers .pc + 1)
    let cpu ← cpuDispatch cpu instruction
    let mcr ← busAccessRead mcrAddr
    return (clockEnabled mcr, cpu)

theorem cpuTick_eq_cpuExecute (cpu : Cpu) : cpuTick cpu = do
    let result ← cpuExecute cpu
    if result.1 then do
      let cpu ← cpuCheckExceptions result.2
      return (true, cpu)
    else
      return (false, result.2) := by
  rw [cpuTick, cpuExecute, bind_assoc]
  refine bind_congr fun mcr => ?_
  cases clockEnabled mcr with
  | false => rfl
  | true =>
    simp only [Bool.not_true, Bool.false_eq_true, if_false, bind_assoc]
    refine bind_congr fun instruction => bind_congr fun cpu => ?_
    rw [cpuTickEnd]
    refine bind_congr fun mcr => ?_
    cases clockEnabled mcr <;> rfl

/-- The first part of a tick, with the clock enabled. -/
theorem run_cpuExecute {σ : Type} {cpu : Cpu} {h : Handler BusRequest BusResponse σ} {s s₁ s₂ : σ}
    {mcr instruction : Word} (hpoll : h (.read mcrAddr) s = some (mcr, s₁))
    (hclock : clockEnabled mcr = true)
    (hfetch : h (.read (cpu.registers .pc)) s₁ = some (instruction, s₂)) :
    (cpuExecute cpu).run h s =
      ((cpuDispatch (cpu.withRegisters (fetched cpu.registers)) instruction).run h s₂).bind
        fun x => (h (.read mcrAddr) x.2).map fun y => ((clockEnabled y.1, x.1), y.2) := by
  simp [cpuExecute, busAccessRead, Prog.send, hpoll, hclock, hfetch, Cpu.setReg_eq, fetched,
    Option.map_eq_bind]

section Machine

variable {ω ι : Type} {env : Env ω ι} {m m' : Machine ω ι} {cpu cpu' : Cpu}

/-- The word that a tick fetches, if it finds the clock enabled. -/
def fetchedWord (env : Env ω ι) (cpu : Cpu) (m : Machine ω ι) : Option Word := do
  let (mcr, m) ← busRead env m mcrAddr
  guard (clockEnabled mcr)
  let (instruction, _) ← busRead env m (cpu.registers .pc)
  return instruction

/-- A tick up to the check for exceptions finds the clock off and does nothing, or fetches a word
and executes it. -/
theorem run_cpuExecute_cases {running : Bool}
    (h : (cpuExecute cpu).run (initBusAccessor env).handler m = some ((running, cpu'), m')) :
    (fetchedWord env cpu m = none ∧ cpu' = cpu) ∨
      ∃ w, fetchedWord env cpu m = some w ∧
        cpu' = (raiseLines (cpu.withRegisters (fetched cpu.registers)) w).withRegisters
          cpu'.registers ∧
        Executed w (fetched cpu.registers) cpu'.registers := by
  rw [cpuExecute, busAccessRead, Prog.send, Prog.ask_bind, Prog.run_ask] at h
  obtain ⟨⟨mcr, m₁⟩, hpoll, h⟩ := Option.bind_eq_some_iff.mp h
  have hpoll' : busRead env m mcrAddr = some (mcr, m₁) := hpoll
  cases hclock : clockEnabled mcr with
  | false =>
    left
    simp only [Prog.ret_bind, hclock, Bool.not_false, if_true] at h
    obtain ⟨hcpu, -⟩ := Prod.mk.inj (Option.some.inj h)
    exact ⟨by simp [fetchedWord, hpoll', hclock], (Prod.mk.inj hcpu).2.symm⟩
  | true =>
    right
    simp only [Prog.ret_bind, hclock, Bool.not_true, Bool.false_eq_true, if_false,
      Prog.run_bind] at h
    obtain ⟨⟨w, m₂⟩, hfetch, h⟩ := Option.bind_eq_some_iff.mp h
    obtain ⟨⟨cpu₁, m₃⟩, hdispatch, h⟩ := Option.bind_eq_some_iff.mp h
    obtain ⟨⟨mcr', m₄⟩, -, h⟩ := Option.bind_eq_some_iff.mp h
    obtain ⟨hcpu, -⟩ := Prod.mk.inj (Option.some.inj h)
    obtain ⟨-, rfl⟩ := Prod.mk.inj hcpu
    obtain ⟨y, hy, hret⟩ := Option.bind_eq_some_iff.mp hfetch
    obtain ⟨rfl, rfl⟩ := Prod.mk.inj (Option.some.inj hret)
    have hfetch' : busRead env m₁ (cpu.registers .pc) = some y := hy
    rw [Cpu.setReg_eq] at hdispatch
    exact ⟨y.1, by simp [fetchedWord, hpoll', hclock, hfetch'], run_cpuDispatch_executed hdispatch⟩

/-- The exception that the check for exceptions delivers. -/
def waiting (cpu : Cpu) : Option Byte :=
  if cpu.privModeViolationExceptionLine.toggle then
    some cpu.privModeViolationExceptionLine.vecLocation
  else if cpu.illegalOpcodeExceptionLine.toggle then
    some cpu.illegalOpcodeExceptionLine.vecLocation
  else none

/-- The check for exceptions does nothing, or delivers the one that is waiting. -/
theorem cpuCheckExceptions_waiting (cpu : Cpu) :
    (waiting cpu = none ∧ cpuCheckExceptions cpu = return cpu) ∨
      ∃ vec cpu₁, waiting cpu = some vec ∧ cpu₁.registers = cpu.registers ∧
        cpuCheckExceptions cpu =
          deliver cpu₁ vec (handlerPsr (psrPriority (cpu.registers .psr))) := by
  cases hpriv : cpu.privModeViolationExceptionLine.toggle with
  | true =>
    refine Or.inr ⟨cpu.privModeViolationExceptionLine.vecLocation, _, by simp [waiting, hpriv],
      ?_, by rw [cpuCheckExceptions, if_pos hpriv]; exact cpuExecuteException_eq _ _⟩
    rfl
  | false =>
    have hpriv' : ¬ cpu.privModeViolationExceptionLine.toggle = true := by simp [hpriv]
    cases hillegal : cpu.illegalOpcodeExceptionLine.toggle with
    | true =>
      refine Or.inr ⟨cpu.illegalOpcodeExceptionLine.vecLocation, _,
        by simp [waiting, hpriv, hillegal], ?_,
        by rw [cpuCheckExceptions, if_neg hpriv', if_pos hillegal]
           exact cpuExecuteException_eq _ _⟩
      rfl
    | false =>
      exact Or.inl ⟨by simp [waiting, hpriv, hillegal],
        cpuCheckExceptions_of_linesLow ⟨hpriv, hillegal⟩⟩

/-- The exception that an instruction raises is waiting, and its delivery lowers the line again. -/
theorem cpuCheckExceptions_raiseLines {w : Word} {vec : Byte} (hlines : cpu.LinesLow)
    (h : raised cpu w = some vec) :
    cpuCheckExceptions (raiseLines cpu w) =
      deliver cpu vec (handlerPsr (psrPriority (cpu.registers .psr))) := by
  rw [← cpuExecuteException_eq]
  rcases raised_eq_some_iff.mp h with ⟨hop, rfl⟩ | ⟨hop, huser, rfl⟩
  · have h8 : opcode w ≠ 8 := by rw [hop]; decide
    rw [raiseLines, if_neg h8, if_pos hop]
    obtain ⟨⟨toggle', vec'⟩, ⟨toggle, vec⟩, regs⟩ := cpu
    obtain ⟨rfl, rfl⟩ : toggle' = false ∧ toggle = false := hlines
    rfl
  · rw [raiseLines, if_pos hop, if_pos huser]
    obtain ⟨⟨toggle, vec⟩, illegal, regs⟩ := cpu
    obtain rfl : toggle = false := hlines.1
    rfl

theorem waiting_raiseLines {w : Word} (hlines : cpu.LinesLow) :
    waiting (raiseLines cpu w) = raised cpu w := by
  rw [raiseLines, raised]
  by_cases hrti : opcode w = 8
  · rw [if_pos hrti, if_pos hrti]
    cases supervisorBit (cpu.registers .psr) <;> simp [waiting, hlines.1, hlines.2]
  · rw [if_neg hrti, if_neg hrti]
    by_cases hillegal : opcode w = 13
    · rw [if_pos hillegal, if_pos hillegal]
      simp [waiting, hlines.1]
    · rw [if_neg hillegal, if_neg hillegal]
      simp [waiting, hlines.1, hlines.2]

/-! ### Deliveries -/

/-- A delivery through the vector `vec`, with the new status word `psr`: from the registers `regs`
and the machine `m`, to the registers `regs'` and the machine `m'`. The frame is the status word and
below it the PC, at the new stack pointer, and nothing else is accessed but the vector. -/
structure Entry (env : Env ω ι) (regs : Registers) (m : Machine ω ι) (vec : Byte) (psr : Word)
    (regs' : Registers) (m' : Machine ω ι) : Prop where
  psr : regs' .psr = psr
  r6 : regs' .r6 = (if supervisorBit (regs .psr) then regs .ssp else regs .r6) - 2
  usp : regs' .usp = if supervisorBit (regs .psr) then regs .r6 else regs .usp
  kept : ∀ r, r ≠ .pc → r ≠ .psr → r ≠ .r6 → r ≠ .usp → regs' r = regs r
  frame : ∃ m₁ m₂, busWrite env m (regs' .r6 + 1) (regs .psr) = some m₁ ∧
    busWrite env m₁ (regs' .r6) (regs .pc) = some m₂ ∧
    busRead env m₂ (0x0100 + vec.setWidth 16) = some (regs' .pc, m')

/-- **One delivery**, from either mode. -/
theorem run_deliver_entry {vec : Byte} {psr : Word}
    (h : (deliver cpu vec psr).run (initBusAccessor env).handler m = some (cpu', m')) :
    cpu' = cpu.withRegisters cpu'.registers ∧
      Entry env cpu.registers m vec psr cpu'.registers m' := by
  rw [deliver] at h
  obtain ⟨⟨u, m₁⟩, hpush, h⟩ := Option.bind_eq_some_iff.mp h
  obtain ⟨⟨u', m₂⟩, hpush', h⟩ := Option.bind_eq_some_iff.mp h
  obtain ⟨⟨pc, m₃⟩, hread, h⟩ := Option.bind_eq_some_iff.mp h
  obtain ⟨rfl, rfl⟩ := Prod.mk.inj (Option.some.inj h)
  obtain ⟨n₁, hwrite, heq⟩ := Option.map_eq_some_iff.mp hpush
  obtain ⟨-, rfl⟩ := Prod.mk.inj heq
  obtain ⟨n₂, hwrite', heq'⟩ := Option.map_eq_some_iff.mp hpush'
  obtain ⟨-, rfl⟩ := Prod.mk.inj heq'
  have hsp : entryStack cpu.registers - 2 + 1 = entryStack cpu.registers - 1 := by bv_omega
  refine ⟨rfl, rfl, rfl, rfl, fun r hpc hpsr hr6 husp => ?_, n₁, n₂, ?_, hwrite', hread⟩
  · cases r <;> first | rfl | contradiction
  · show busWrite env m (entryStack cpu.registers - 2 + 1) _ = _
    rw [hsp]
    exact hwrite

/-- A delivery never writes the saved supervisor stack pointer. -/
theorem Entry.ssp {regs regs' : Registers} {vec : Byte} {psr : Word}
    (h : Entry env regs m vec psr regs' m') : regs' .ssp = regs .ssp :=
  h.kept .ssp (by decide) (by decide) (by decide) (by decide)

/-- In ordinary memory the frame that is pushed is the PC and the status word. -/
theorem Entry.pushed {regs regs' : Registers} {vec : Byte} {psr : Word}
    (h : Entry env regs m vec psr regs' m')
    (hpc : (m.bus.memory (regs' .r6)).attachmentFlag = false)
    (hpsr : (m.bus.memory (regs' .r6 + 1)).attachmentFlag = false) :
    (m'.bus.memory (regs' .r6)).value = regs .pc ∧
      (m'.bus.memory (regs' .r6 + 1)).value = regs .psr := by
  obtain ⟨m₁, m₂, hpush, hpush', hread⟩ := h.frame
  have hbus₁ := (busWrite_eq_some hpush).1
  rw [hpsr, if_neg Bool.false_ne_true] at hbus₁
  have hbus₂ := (busWrite_eq_some hpush').1
  rw [hbus₁, Bus.setValue_attachmentFlag, hpc, if_neg Bool.false_ne_true] at hbus₂
  have hne : regs' .r6 + 1 ≠ regs' .r6 := by bv_omega
  rw [(busRead_eq_some hread).1, hbus₂]
  exact ⟨Bus.setValue_value_self .., (Bus.setValue_value_of_ne _ _ hne).trans
    (Bus.setValue_value_self ..)⟩

/-! ### The status word of a handler -/

/-- Supervisor mode, the priority, the condition code Z, and no other bit. -/
structure HandlerStatus (psr priority : Word) : Prop where
  supervisor : psr.getLsbD 15 = false
  priority : psrPriority psr = priority
  rest : psr &&& 0xF8FF = 0x0002

/-- The status word that a delivery leaves is as it should be exactly when the priority has three
bits. -/
theorem handlerStatus_handlerPsr_iff (priority : Byte) :
    HandlerStatus (handlerPsr (priority.setWidth 16)) (priority.setWidth 16) ↔ priority ≤ 7 := by
  constructor
  · intro h
    have hle : priority.setWidth 16 ≤ (7 : Word) := h.priority ▸ psrPriority_le _
    have hcases : ∀ p : Byte, p.setWidth 16 ≤ (7 : Word) → p ≤ 7 := by decide
    exact hcases priority hle
  · intro h
    have hcases : ∀ p : Byte, p ≤ 7 → (handlerPsr (p.setWidth 16)).getLsbD 15 = false ∧
        psrPriority (handlerPsr (p.setWidth 16)) = p.setWidth 16 ∧
        handlerPsr (p.setWidth 16) &&& 0xF8FF = 0x0002 := by decide
    obtain ⟨hmode, hpriority, hrest⟩ := hcases priority h
    exact ⟨hmode, hpriority, hrest⟩

end Machine

end Lc3Simulator
