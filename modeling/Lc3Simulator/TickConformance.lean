import Lc3Simulator.Delivery
import Lc3Simulator.IsaConformance
import Lc3Simulator.Machine

/-!
# One tick against the reference

A tick looks at the clock, fetches, dispatches, and looks at the clock again. For an operate or
memory instruction everything between the two looks is the reference, on any bus: the trace of
bus accesses says so as well as the registers.

For the control instructions this holds of BR, JMP, JSR and TRAP. JSRR is wrong in `cpu.c`: the
handler adds the base register to the incremented PC as if it were an offset, and it has already
written `R7` when it reads the base. It is right only where the sum happens to be the base.

## Main definitions

* `ControlConforms` — the registers are the reference's, and memory is as before
* `JsrrAgrees` — where the handler of JSRR computes the base all the same

## Main results

* `cpuTick_dataInstr` — a tick on an operate or memory instruction
* `controlInstr_conforms_iff` — a tick on a control instruction conforms exactly when the
  instruction is not JSRR, or the sum is the base, and no exception was waiting
-/

namespace Lc3Simulator

open Interaction Isa

/-! ### Operate and memory instructions -/

theorem dataInstr_decode {w : Word} (h : w.extractLsb' 12 4 ∈ dataOpcodes) :
    ∃ i, DataInstr.decode w = some i := by
  rw [DataInstr.decode]
  generalize w.extractLsb' 12 4 = op at h
  simp only [dataOpcodes, List.mem_cons, List.not_mem_nil, or_false] at h
  rcases h with rfl | rfl | rfl | rfl | rfl | rfl | rfl | rfl | rfl | rfl <;> exact ⟨_, rfl⟩

/-- Running the reference on the registers of a CPU. -/
theorem run_onRegisters {σ : Type} {env : Handler BusRequest BusResponse σ} {cpu : Cpu}
    {p : Registers → BusProg Registers} {s : σ} :
    (onRegisters cpu p).run env s =
      ((p cpu.registers).run env s).map fun x => (cpu.withRegisters x.1, x.2) := by
  rw [onRegisters, Prog.run_bind]
  cases (p cpu.registers).run env s <;> rfl

section Trace

variable {σ : Type} {env : Handler BusRequest BusResponse σ} {q : BusRequest} {s s' : σ}
  {r : BusResponse q} {t : List (Σ q, BusResponse q)}

theorem traced_eq (h : env q s = some (r, s')) :
    env.traced q (s, t) = some (r, s', t ++ [⟨q, r⟩]) := by
  rw [Handler.traced, h]
  rfl

end Trace

/-- **A tick on an operate or memory instruction.** On any bus, after the clock is found enabled
and the instruction fetched, the tick makes the accesses of the reference and no others, in the
order of the reference, and comes to its second look at the clock with the registers of the
reference. With no exception waiting, that look is all that is left of the tick. -/
theorem cpuTick_dataInstr {σ : Type} (bus : BusAccessor σ) (cpu : Cpu) {s s₁ s₂ : σ} {mcr w : Word}
    (hpoll : bus.handler (.read mcrAddr) s = some (mcr, s₁)) (hclock : clockEnabled mcr = true)
    (hfetch : bus.handler (.read (cpu.registers .pc)) s₁ = some (w, s₂))
    (hop : w.extractLsb' 12 4 ∈ dataOpcodes) :
    ∃ i, DataInstr.decode w = some i ∧
      (cpuTick cpu).run bus.handler.traced (s, []) =
        (((i.execute (fetched cpu.registers)).run bus.handler.traced
          (s₂, [⟨.read mcrAddr, mcr⟩, ⟨.read (cpu.registers .pc), w⟩])).bind fun x =>
            (cpuTickEnd (cpu.withRegisters x.1)).run bus.handler.traced x.2) ∧
      (cpu.LinesLow → ∀ regs t,
        (cpuTickEnd (cpu.withRegisters regs)).run bus.handler.traced t =
          (bus.handler.traced (.read mcrAddr) t).map fun x =>
            ((clockEnabled x.1, cpu.withRegisters regs), x.2)) := by
  obtain ⟨i, hi⟩ := dataInstr_decode hop
  refine ⟨i, hi, ?_, fun hlines regs t => run_cpuTickEnd (show Cpu.LinesLow _ from hlines)⟩
  rw [run_cpuTick (traced_eq hpoll) hclock (traced_eq hfetch), cpuDispatch_dataInstr hi,
    run_onRegisters, Option.bind_map]
  rfl

/-- `ADD R1, R1, #-1` at the start of an empty memory. -/
theorem cpuTick_dataInstr_add :
    ∃ i, DataInstr.decode 0x127F = some i ∧
      (cpuTick ⟨⟨false, 0⟩, ⟨false, 1⟩, fun _ => 0⟩).run
        (initBusAccessor bareEnv).handler.traced
        (bareMachine fun a => if a = 0 then 0x127F else if a = mcrAddr then 0x8000 else 0, []) =
      ((i.execute (fetched fun _ => 0)).run (initBusAccessor bareEnv).handler.traced
        (bareMachine fun a => if a = 0 then 0x127F else if a = mcrAddr then 0x8000 else 0,
          [⟨.read mcrAddr, 0x8000⟩, ⟨.read 0, 0x127F⟩])).bind fun x =>
            (cpuTickEnd ⟨⟨false, 0⟩, ⟨false, 1⟩, x.1⟩).run
              (initBusAccessor bareEnv).handler.traced x.2 := by
  obtain ⟨i, hi, htick, -⟩ := cpuTick_dataInstr (initBusAccessor bareEnv)
    ⟨⟨false, 0⟩, ⟨false, 1⟩, fun _ => 0⟩
    (show (initBusAccessor bareEnv).handler (.read mcrAddr) (bareMachine fun a =>
      if a = 0 then 0x127F else if a = mcrAddr then 0x8000 else 0) = some (0x8000, _) from rfl)
    (by decide) rfl (show (0x127F : Word).extractLsb' 12 4 ∈ dataOpcodes by decide)
  exact ⟨i, hi, htick⟩

/-! ### The end of a tick -/

section TickEnd

variable {σ : Type} {env : Handler BusRequest BusResponse σ} {s s' : σ} {cpu cpu' : Cpu}

/-- The second look at the clock decides whether exceptions are delivered. -/
theorem run_cpuTickEnd_eq_some {running : Bool}
    (h : (cpuTickEnd cpu).run env s = some ((running, cpu'), s')) :
    ∃ mcr s₁, env (.read mcrAddr) s = some (mcr, s₁) ∧
      ((clockEnabled mcr = false ∧ running = false ∧ cpu' = cpu ∧ s' = s₁) ∨
        (clockEnabled mcr = true ∧ running = true ∧
          (cpuCheckExceptions cpu).run env s₁ = some (cpu', s'))) := by
  rw [cpuTickEnd, busAccessRead, Prog.send, Prog.ask_bind, Prog.run_ask] at h
  obtain ⟨⟨mcr, s₁⟩, hpoll, h⟩ := Option.bind_eq_some_iff.mp h
  refine ⟨mcr, s₁, hpoll, ?_⟩
  cases hclock : clockEnabled mcr with
  | false =>
    left
    simp only [Prog.ret_bind, hclock, Bool.not_false, if_true] at h
    obtain ⟨hcpu, rfl⟩ := Prod.mk.inj (Option.some.inj h)
    obtain ⟨rfl, rfl⟩ := Prod.mk.inj hcpu
    exact ⟨rfl, rfl, rfl, rfl⟩
  | true =>
    right
    simp only [Prog.ret_bind, hclock, Bool.not_true, Bool.false_eq_true, if_false,
      Prog.run_bind] at h
    obtain ⟨⟨cpu₁, s₂⟩, hcheck, h⟩ := Option.bind_eq_some_iff.mp h
    obtain ⟨hcpu, rfl⟩ := Prod.mk.inj (Option.some.inj h)
    obtain ⟨rfl, rfl⟩ := Prod.mk.inj hcpu
    exact ⟨rfl, rfl, hcheck⟩

/-- An exception that is waiting is delivered. -/
theorem run_cpuCheckExceptions (hwaiting : ¬ cpu.LinesLow) {x : Cpu × σ}
    (h : (cpuCheckExceptions cpu).run env s = some x) :
    ∃ cpu' vec, cpu'.registers = cpu.registers ∧
      (deliver cpu' vec (handlerPsr (psrPriority (cpu.registers .psr)))).run env s = some x := by
  rw [cpuCheckExceptions] at h
  by_cases hpriv : cpu.privModeViolationExceptionLine.toggle = true
  · rw [if_pos hpriv, cpuExecuteException_eq] at h
    refine ⟨_, _, ?_, h⟩
    rfl
  · rw [if_neg hpriv] at h
    by_cases hillegal : cpu.illegalOpcodeExceptionLine.toggle = true
    · rw [if_pos hillegal, cpuExecuteException_eq] at h
      refine ⟨_, _, ?_, h⟩
      rfl
    · exact absurd ⟨Bool.eq_false_iff.mpr hpriv, Bool.eq_false_iff.mpr hillegal⟩ hwaiting

end TickEnd

/-! ### Control instructions -/

section Control

variable {ω ι : Type} {env : Env ω ι} {m m₁ m₂ m' : Machine ω ι} {i : ControlInstr} {mcr w : Word}

/-- The registers are what the reference leaves from `regs`, and memory is as in `m`. The reference
itself runs from `m₂`, the machine after the fetch. -/
def ControlConforms (env : Env ω ι) (i : ControlInstr) (regs : Registers) (m m₂ : Machine ω ι)
    (regs' : Registers) (m' : Machine ω ι) : Prop :=
  (∃ m₃, (i.execute (fetched regs)).run (initBusAccessor env).handler m₂ = some (regs', m₃)) ∧
    m'.bus.memory = m.bus.memory

/-- The handler of JSRR jumps to the base: it adds the incremented PC to the base, and the base
`R7` is the incremented PC by then. -/
def JsrrAgrees (i : ControlInstr) (regs : Registers) : Prop :=
  ∀ base, i = .jsrr base →
    if base = 7 then regs .r7 = regs .pc + 1 + (regs .pc + 1) else regs .pc + 1 = 0

theorem jsrrAgrees_of_ne {regs : Registers} (h : ∀ base, i ≠ .jsrr base) : JsrrAgrees i regs :=
  fun base hi => absurd hi (h base)

theorem reg_eq_r7 {base : BitVec 3} : reg base = .r7 ↔ base = 7 := by
  revert base
  decide

/-- Where the sum is the base. -/
theorem jsrr_target_eq_iff {regs : Registers} {base : BitVec 3} :
    regs .pc + 1 + Function.update (fetched regs) .r7 (regs .pc + 1) (reg base) =
        fetched regs (reg base) ↔ JsrrAgrees (.jsrr base) regs := by
  have hpc : fetched regs (reg base) = regs (reg base) :=
    Function.update_of_ne (reg_ne_pc base) _ _
  have hagrees : JsrrAgrees (.jsrr base) regs ↔
      if base = 7 then regs .r7 = regs .pc + 1 + (regs .pc + 1) else regs .pc + 1 = 0 :=
    ⟨fun h => h base rfl, fun h b hb => by obtain rfl := ControlInstr.jsrr.inj hb; exact h⟩
  rw [hagrees, hpc]
  by_cases h7 : base = 7
  · have hreg : reg base = .r7 := reg_eq_r7.mpr h7
    rw [if_pos h7, hreg, Function.update_self]
    exact eq_comm
  · have hreg : reg base ≠ .r7 := fun h => h7 (reg_eq_r7.mp h)
    rw [if_neg h7, Function.update_of_ne hreg, hpc]
    exact BitVec.add_left_eq_self

/-- Jumps with a link differ exactly when their targets do. -/
theorem jumpAndLink_inj (regs : Registers) {a b : Word} :
    jumpAndLink regs a = jumpAndLink regs b ↔ a = b := by
  constructor
  · intro h
    have := congrFun h .pc
    simpa [jumpAndLink, jump] using this
  · rintro rfl
    rfl

theorem jumpAndLink_of_ne {regs : Registers} {target : Word} {r : Lc3Reg} (hpc : r ≠ .pc)
    (h7 : r ≠ .r7) : jumpAndLink regs target r = regs r := by
  rw [jumpAndLink, jump, Function.update_of_ne hpc, Function.update_of_ne h7]

/-- Control instructions change the PC and `R7` at most. -/
theorem execute_controlInstr_of_ne {σ : Type} {h : Handler BusRequest BusResponse σ} {s : σ}
    {regs : Registers} {x : Registers × σ} {r : Lc3Reg} (hpc : r ≠ .pc) (h7 : r ≠ .r7)
    (hrun : (i.execute regs).run h s = some x) : x.1 r = regs r := by
  cases i with
  | br nzp pcOffset =>
    obtain rfl := Option.some.inj hrun
    show (if _ then jump regs _ else regs) r = regs r
    split
    · exact Function.update_of_ne hpc _ _
    · rfl
  | jmp base =>
    obtain rfl := Option.some.inj hrun
    exact Function.update_of_ne hpc _ _
  | jsr pcOffset =>
    obtain rfl := Option.some.inj hrun
    exact jumpAndLink_of_ne hpc h7
  | jsrr base =>
    obtain rfl := Option.some.inj hrun
    exact jumpAndLink_of_ne hpc h7
  | trap vector =>
    obtain ⟨y, -, hrun⟩ := Option.bind_eq_some_iff.mp hrun
    obtain rfl := Option.some.inj hrun
    exact jumpAndLink_of_ne hpc h7

/-- What the reference of a control instruction does to the bus: at most it reads. -/
theorem execute_controlInstr_bus {regs : Registers} {x : Registers × Machine ω ι}
    (h : (i.execute regs).run (initBusAccessor env).handler m = some x) : x.2.bus = m.bus := by
  cases i with
  | trap vector =>
    obtain ⟨⟨target, m₁⟩, hread, h⟩ := Option.bind_eq_some_iff.mp h
    obtain rfl := Option.some.inj h
    exact (busRead_eq_some hread).1
  | br nzp pcOffset => obtain rfl := Option.some.inj h; rfl
  | jmp base => obtain rfl := Option.some.inj h; rfl
  | jsr pcOffset => obtain rfl := Option.some.inj h; rfl
  | jsrr base => obtain rfl := Option.some.inj h; rfl

/-- A control instruction changes the PC and `R7` at most, and leaves what `JsrrAgrees` says. -/
theorem run_cpuDispatch_controlInstr {cpu cpu' : Cpu} (hdecode : ControlInstr.decode w = some i)
    (hbus : m₂.bus = m.bus)
    (hrun : (cpuDispatch (cpu.withRegisters (fetched cpu.registers)) w).run
      (initBusAccessor env).handler m₂ = some (cpu', m')) :
    cpu' = cpu.withRegisters cpu'.registers ∧
      (∀ r, r ≠ .pc → r ≠ .r7 → cpu'.registers r = cpu.registers r) ∧
      (ControlConforms env i cpu.registers m m₂ cpu'.registers m' ↔
        JsrrAgrees i cpu.registers) := by
  by_cases hjsrr : ∀ base, i ≠ .jsrr base
  · rw [cpuDispatch_controlInstr hdecode hjsrr, run_onRegisters] at hrun
    obtain ⟨⟨regs, m₃⟩, hexec, hrun⟩ := Option.map_eq_some_iff.mp hrun
    obtain ⟨rfl, rfl⟩ := Prod.mk.inj hrun
    refine ⟨rfl, fun r hpc h7 => ?_, iff_of_true ⟨⟨m₃, hexec⟩, ?_⟩ (jsrrAgrees_of_ne hjsrr)⟩
    · exact (execute_controlInstr_of_ne hpc h7 hexec).trans (Function.update_of_ne hpc _ _)
    · exact congrArg Bus.memory ((execute_controlInstr_bus hexec).trans hbus)
  · obtain ⟨base, rfl⟩ : ∃ base, i = .jsrr base := by
      by_contra hnone
      exact hjsrr fun base hi => hnone ⟨base, hi⟩
    rw [cpuDispatch_jsrr hdecode] at hrun
    obtain ⟨rfl, rfl⟩ := Prod.mk.inj (Option.some.inj hrun)
    rw [← jsrr_target_eq_iff, ← jumpAndLink_inj (fetched cpu.registers)]
    refine ⟨rfl, fun r hpc h7 => ?_, fun hconf => ?_,
      fun heq => ⟨⟨m₂, ?_⟩, congrArg Bus.memory hbus⟩⟩
    · exact (jumpAndLink_of_ne hpc h7).trans (Function.update_of_ne hpc _ _)
    · obtain ⟨⟨m₃, hexec⟩, -⟩ := hconf
      exact (Prod.mk.inj (Option.some.inj hexec)).1.symm
    · exact congrArg (fun regs => some (regs, m₂)) heq.symm

/-- **A tick on a control instruction.** After the clock is found enabled and the instruction
fetched, the registers and the memory at the second look at the clock are what the reference
leaves, exactly when the instruction is not JSRR or the base is what the handler computes in its
place. They are so at the end of the tick exactly when, besides, no exception was waiting that the
tick goes on to deliver. -/
theorem controlInstr_conforms_iff {cpu : Cpu}
    (hpoll : busRead env m mcrAddr = some (mcr, m₁)) (hclock : clockEnabled mcr = true)
    (hfetch : busRead env m₁ (cpu.registers .pc) = some (w, m₂))
    (hdecode : ControlInstr.decode w = some i) :
    ((cpuTick cpu).run (initBusAccessor env).handler m =
      ((cpuDispatch (cpu.withRegisters (fetched cpu.registers)) w).run
        (initBusAccessor env).handler m₂).bind fun x =>
          (cpuTickEnd x.1).run (initBusAccessor env).handler x.2) ∧
    (∀ cpu' m', (cpuDispatch (cpu.withRegisters (fetched cpu.registers)) w).run
        (initBusAccessor env).handler m₂ = some (cpu', m') →
      (ControlConforms env i cpu.registers m m₂ cpu'.registers m' ↔
        JsrrAgrees i cpu.registers)) ∧
    (∀ running cpu' m',
      (cpuTick cpu).run (initBusAccessor env).handler m = some ((running, cpu'), m') →
      (ControlConforms env i cpu.registers m m₂ cpu'.registers m' ↔
        JsrrAgrees i cpu.registers ∧ (cpu.LinesLow ∨ running = false))) := by
  have hbus : m₂.bus = m.bus := (busRead_eq_some hfetch).1.trans (busRead_eq_some hpoll).1
  have htick : (cpuTick cpu).run (initBusAccessor env).handler m = _ :=
    run_cpuTick hpoll hclock hfetch
  refine ⟨htick, fun cpu' m' hrun => (run_cpuDispatch_controlInstr hdecode hbus hrun).2.2, ?_⟩
  intro running cpu' m' hrun
  rw [htick] at hrun
  obtain ⟨⟨cpu₂, m₃⟩, hdispatch, hend⟩ := Option.bind_eq_some_iff.mp hrun
  obtain ⟨hregs, hkept, hiff⟩ := run_cpuDispatch_controlInstr hdecode hbus hdispatch
  obtain ⟨mcr', m₄, hpoll', hcases⟩ := run_cpuTickEnd_eq_some hend
  have hconforms : ControlConforms env i cpu.registers m m₂ cpu₂.registers m₄ ↔
      JsrrAgrees i cpu.registers := by
    rw [← hiff, ControlConforms, ControlConforms, (busRead_eq_some hpoll').1]
  rcases hcases with ⟨-, rfl, rfl, rfl⟩ | ⟨-, rfl, hcheck⟩
  · rw [hconforms]
    exact (and_iff_left (Or.inr rfl)).symm
  · by_cases hlines : cpu.LinesLow
    · have hlines₂ : cpu₂.LinesLow := hregs ▸ hlines
      rw [cpuCheckExceptions_of_linesLow hlines₂] at hcheck
      obtain ⟨rfl, rfl⟩ := Prod.mk.inj (Option.some.inj hcheck)
      rw [hconforms]
      exact (and_iff_left (Or.inl hlines)).symm
    · refine iff_of_false ?_ fun h => h.2.elim hlines (by decide)
      rintro ⟨⟨m₅, hexec⟩, -⟩
      have hlines₂ : ¬ cpu₂.LinesLow := fun h => hlines (by rw [hregs] at h; exact h)
      have hreference : ∀ r, r ≠ .pc → r ≠ .r7 → cpu'.registers r = cpu₂.registers r :=
        fun r hpc h7 => ((execute_controlInstr_of_ne hpc h7 hexec).trans
          (Function.update_of_ne hpc _ _)).trans (hkept r hpc h7).symm
      obtain ⟨cpu₃, vec, hcpu₃, hdeliver⟩ := run_cpuCheckExceptions hlines₂ hcheck
      obtain ⟨pc, hentry⟩ := run_deliver_registers hdeliver
      rw [hcpu₃] at hentry
      rcases entryRegisters_ne pc (psrPriority_le (cpu₂.registers .psr)) with hne | hne
      · exact hne (hentry ▸ hreference .psr (by decide) (by decide))
      · exact hne (hentry ▸ hreference .r6 (by decide) (by decide))

end Control

/-- A CPU about to execute the word at address 0, with `0x3000` in `R1`. -/
def jsrrCpu : Cpu :=
  ⟨⟨false, 0⟩, ⟨false, 1⟩, fun r => if r = .r1 then 0x3000 else 0⟩

/-- `JSRR R1` at address 0, with the clock enabled. -/
def jsrrMachine : Machine Unit Unit :=
  bareMachine fun a => if a = 0 then 0x4040 else if a = mcrAddr then 0x8000 else 0

theorem controlInstr_conforms_iff_jsrr :
    ∃ x, (cpuTick jsrrCpu).run (initBusAccessor bareEnv).handler jsrrMachine = some x ∧
      (ControlConforms bareEnv (.jsrr 1) jsrrCpu.registers jsrrMachine jsrrMachine
        x.1.2.registers x.2 ↔
          JsrrAgrees (.jsrr 1) jsrrCpu.registers ∧ (jsrrCpu.LinesLow ∨ x.1.1 = false)) := by
  obtain ⟨-, -, htick⟩ := controlInstr_conforms_iff
    (show busRead bareEnv jsrrMachine mcrAddr = some (0x8000, _) from rfl) (by decide)
    (show busRead bareEnv _ (jsrrCpu.registers .pc) = some (0x4040, _) from rfl)
    (show ControlInstr.decode 0x4040 = some (.jsrr 1) by decide)
  obtain ⟨x, hx⟩ : ∃ x,
      (cpuTick jsrrCpu).run (initBusAccessor bareEnv).handler jsrrMachine = some x := ⟨_, rfl⟩
  exact ⟨x, hx, htick x.1.1 x.1.2 x.2 hx⟩

/-- The jump goes to `0x3001`, one beyond the base. -/
theorem jsrr_not_conforms :
    ∃ x, (cpuTick jsrrCpu).run (initBusAccessor bareEnv).handler jsrrMachine = some x ∧
      x.1.2.registers .pc = 0x3001 ∧
      ¬ ControlConforms bareEnv (.jsrr 1) jsrrCpu.registers jsrrMachine jsrrMachine
        x.1.2.registers x.2 := by
  refine ⟨_, rfl, by decide, ?_⟩
  rintro ⟨⟨m₃, hexec⟩, -⟩
  have hpc := congrFun (Prod.mk.inj (Option.some.inj hexec)).1 .pc
  exact absurd hpc (by decide)

end Lc3Simulator
