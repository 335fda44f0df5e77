import Lc3Simulator.Events
import Lc3Simulator.Privilege

/-!
# Exceptions are precise

An instruction raises an exception by setting a line, and the tick looks at the lines after a second
look at the clock. If the clock were off by then, the exception would linger and hit an instruction
of a later run. This does not happen: an instruction that raises an exception does nothing else, so
that the clock is still on, as long as the clock register is ordinary memory. So between ticks both
lines are low, and a tick delivers exactly the exception of the instruction it fetches.

## Main definitions

* `TickDelivers`, `TickUndisturbed` — the exception that a tick delivers, and a tick without one
* `Settled` — the lines are low and have their vectors, and the clock register is ordinary memory

## Main results

* `exceptions_precise` — in every state between ticks, in every run
-/

namespace Lc3Simulator

open Interaction Isa Transition

section Exceptions

variable {ω ι : Type} {env : Env ω ι} {sim sim' sim₀ : Simulator ω ι}

/-- The tick gets as far as the check for exceptions, and there the exception is waiting. -/
def TickDelivers (env : Env ω ι) (sim : Simulator ω ι) (vec : Byte) : Prop :=
  ∃ cpu m, (cpuExecute sim.cpu).run (initBusAccessor env).handler sim.machine =
    some ((true, cpu), m) ∧ waiting cpu = some vec

/-- The tick is over where it would look for exceptions: it leaves what the execution leaves. -/
def TickUndisturbed (env : Env ω ι) (sim : Simulator ω ι) (running : Bool)
    (sim' : Simulator ω ι) : Prop :=
  ∃ cpu m, (cpuExecute sim.cpu).run (initBusAccessor env).handler sim.machine =
    some ((running, cpu), m) ∧ sim' = { sim with cpu, machine := m }

/-- Both lines are low, with the vectors of `setup_exceptions`, and the clock register is ordinary
memory. -/
structure Settled (sim : Simulator ω ι) : Prop where
  privMode : sim.cpu.privModeViolationExceptionLine = ⟨false, 0x00⟩
  illegalOpcode : sim.cpu.illegalOpcodeExceptionLine = ⟨false, 0x01⟩
  clock : (sim.machine.bus.memory mcrAddr).attachmentFlag = false

theorem Settled.linesLow (h : Settled sim) : sim.cpu.LinesLow := by
  rw [Cpu.LinesLow, h.privMode, h.illegalOpcode]
  exact ⟨rfl, rfl⟩

theorem simulatorNew_settled {devices : ω} {deviceIo : ι}
    (h : simulatorNew env devices deviceIo = some sim) : Settled sim := by
  obtain ⟨hcpu, hflag, -⟩ := simulatorNew_eq_some h
  exact ⟨by rw [hcpu]; rfl, by rw [hcpu]; rfl, hflag mcrAddr⟩

/-! ### The lines between ticks -/

/-- What happens between ticks changes registers at most. -/
theorem between_withRegisters {b : Between} (h : between env b sim = some sim') :
    sim'.cpu = sim.cpu.withRegisters sim'.cpu.registers := by
  cases between_step h with
  | idle => rfl
  | register => rfl
  | refused => rfl
  | attached =>
    rw [simulatorCheckDeviceSubscriptions_cpu]
    rfl
  | wrote => rfl
  | input => rfl
  | delivered _ _ hdeliver _ => exact (run_deliver_entry hdeliver).1

/-- A tick in a settled state changes registers at most. -/
theorem tick_withRegisters {running : Bool} (hsettled : Settled sim)
    (h : tick env sim = some (running, sim')) :
    sim'.cpu = sim.cpu.withRegisters sim'.cpu.registers := by
  obtain ⟨cpu, machine, hrun, rfl⟩ := tick_eq_some h
  exact run_cpuTick_withRegisters hsettled.linesLow hsettled.clock hrun

/-- No device that asks for the address is attached. -/
def TickEvent.Spares (env : Env ω ι) (address : Word) : TickEvent → Prop
  | .between b => b.Spares env address
  | .tick => True

/-- Settled states stay settled. -/
theorem tickEvent_settled {e : TickEvent} {out : Bool} (hspares : e.Spares env mcrAddr)
    (hsettled : Settled sim) (h : tickEvent env e sim = some (out, sim')) : Settled sim' := by
  have hcpu : sim'.cpu = sim.cpu.withRegisters sim'.cpu.registers ∧
      (sim'.machine.bus.memory mcrAddr).attachmentFlag = false := by
    cases e with
    | tick =>
      have hmap := (tickEvent_sameMap (fun d hd => (by cases hd)) h).flag mcrAddr
      exact ⟨tick_withRegisters hsettled h, hmap.trans hsettled.clock⟩
    | between b =>
      obtain ⟨-, hb⟩ := tickEvent_between h
      exact ⟨between_withRegisters hb, between_flag hspares hsettled.clock hb⟩
  refine ⟨?_, ?_, hcpu.2⟩
  · rw [hcpu.1]
    exact hsettled.privMode
  · rw [hcpu.1]
    exact hsettled.illegalOpcode

/-! ### One tick -/

/-- A tick delivers the exception that the fetched word raises. -/
theorem tickDelivers_iff {w : Word} {m₁ : Machine ω ι} {vec : Byte} (hsettled : Settled sim)
    (hclock : clockEnabled (mcrValue sim.machine) = true)
    (hfetch : busRead env sim.machine (sim.cpu.registers .pc) = some (w, m₁)) :
    TickDelivers env sim vec ↔ raised sim.cpu w = some vec := by
  have hlines : (sim.cpu.withRegisters (fetched sim.cpu.registers)).LinesLow := hsettled.linesLow
  have hraised : raised (sim.cpu.withRegisters (fetched sim.cpu.registers)) w =
      raised sim.cpu w := rfl
  have hbus : m₁.bus = sim.machine.bus := (busRead_eq_some hfetch).1
  have hexecute := run_cpuExecute (h := (initBusAccessor env).handler) (busRead_mcr hsettled.clock)
    hclock hfetch
  rw [TickDelivers, hexecute]
  constructor
  · rintro ⟨cpu, m, hrun, hwaiting⟩
    obtain ⟨x, hdispatch, hpoll⟩ := Option.bind_eq_some_iff.mp hrun
    obtain ⟨y, -, hx⟩ := Option.map_eq_some_iff.mp hpoll
    obtain ⟨hpair, -⟩ := Prod.mk.inj hx
    obtain ⟨-, rfl⟩ := Prod.mk.inj hpair
    obtain ⟨hcpu, -⟩ := run_cpuDispatch_executed hdispatch
    rw [hcpu] at hwaiting
    exact (hraised.symm.trans (waiting_raiseLines hlines).symm).trans hwaiting
  · intro hsome
    have hflag₁ : (m₁.bus.memory mcrAddr).attachmentFlag = false := hbus ▸ hsettled.clock
    have hpoll : (initBusAccessor env).handler (.read mcrAddr) m₁ = some (mcrValue m₁, m₁) :=
      busRead_mcr hflag₁
    have hclock₁ : clockEnabled (mcrValue m₁) = true := by rw [mcrValue, hbus]; exact hclock
    refine ⟨_, m₁, ?_, (waiting_raiseLines hlines).trans (hraised.trans hsome)⟩
    rw [cpuDispatch_of_raised (hraised.trans hsome)]
    simp [hpoll, hclock₁]

/-- A tick that delivers no exception is an execution and nothing more. -/
theorem tick_undisturbed {running : Bool} (hnone : ∀ vec, ¬ TickDelivers env sim vec)
    (h : tick env sim = some (running, sim')) : TickUndisturbed env sim running sim' := by
  obtain ⟨cpu, machine, hrun, rfl⟩ := tick_eq_some h
  rw [cpuTick_eq_cpuExecute, Prog.run_bind] at hrun
  obtain ⟨⟨⟨running₁, cpu₁⟩, m₁⟩, hexecute, hrest⟩ := Option.bind_eq_some_iff.mp hrun
  cases running₁ with
  | false =>
    obtain ⟨hcpu, rfl⟩ := Prod.mk.inj (Option.some.inj hrest)
    obtain ⟨rfl, rfl⟩ := Prod.mk.inj hcpu
    exact ⟨_, _, hexecute, rfl⟩
  | true =>
    simp only [if_true, Prog.run_bind] at hrest
    obtain ⟨⟨cpu₂, m₂⟩, hcheck, hrest⟩ := Option.bind_eq_some_iff.mp hrest
    obtain ⟨hcpu, rfl⟩ := Prod.mk.inj (Option.some.inj hrest)
    obtain ⟨rfl, rfl⟩ := Prod.mk.inj hcpu
    rcases cpuCheckExceptions_waiting cpu₁ with ⟨-, hidle⟩ | ⟨vec, _, hwaiting, -⟩
    · rw [hidle] at hcheck
      obtain ⟨rfl, rfl⟩ := Prod.mk.inj (Option.some.inj hcheck)
      exact ⟨_, _, hexecute, rfl⟩
    · exact absurd ⟨cpu₁, m₁, hexecute, hwaiting⟩ (hnone vec)

/-- A tick that delivers an exception does nothing besides the fetch and the delivery. -/
theorem tick_entry {w : Word} {m₁ : Machine ω ι} {vec : Byte} {running : Bool}
    (hsettled : Settled sim) (hclock : clockEnabled (mcrValue sim.machine) = true)
    (hfetch : busRead env sim.machine (sim.cpu.registers .pc) = some (w, m₁))
    (hraised : raised sim.cpu w = some vec) (h : tick env sim = some (running, sim')) :
    running = true ∧ Entry env (fetched sim.cpu.registers) m₁ vec
      (handlerPsr (psrPriority (sim.cpu.registers .psr))) sim'.cpu.registers sim'.machine := by
  obtain ⟨cpu, machine, hrun, rfl⟩ := tick_eq_some h
  obtain ⟨w', m₂, y, hfetch', hdispatch, hend⟩ :=
    run_cpuTick_of_running hsettled.clock hclock hrun
  obtain ⟨rfl, rfl⟩ := Prod.mk.inj (Option.some.inj (hfetch.symm.trans hfetch'))
  have hbus : m₁.bus = sim.machine.bus := (busRead_eq_some hfetch).1
  have hflag₁ : (m₁.bus.memory mcrAddr).attachmentFlag = false := hbus ▸ hsettled.clock
  have hclock₁ : clockEnabled (mcrValue m₁) = true := by rw [mcrValue, hbus]; exact hclock
  have hlines : (sim.cpu.withRegisters (fetched sim.cpu.registers)).LinesLow := hsettled.linesLow
  have hraised₁ : raised (sim.cpu.withRegisters (fetched sim.cpu.registers)) w = some vec := hraised
  have hdeliver := run_cpuDispatch_raised hlines hflag₁ hclock₁ hraised₁ hdispatch hend
  refine ⟨?_, (run_deliver_entry hdeliver).2⟩
  rw [cpuDispatch_of_raised hraised₁] at hdispatch
  obtain rfl := Option.some.inj hdispatch
  obtain ⟨mcr, m₂, hpoll, hcases⟩ := run_cpuTickEnd_eq_some hend
  obtain ⟨rfl, rfl⟩ := Prod.mk.inj (Option.some.inj ((busRead_mcr hflag₁).symm.trans hpoll))
  rcases hcases with ⟨hstopped, -⟩ | ⟨-, hrunning, -⟩
  · exact absurd (hclock₁.symm.trans hstopped) (by decide)
  · exact hrunning

/-- The status word of the handler of an exception. -/
theorem handlerStatus_of_psrPriority (psr : Word) :
    HandlerStatus (handlerPsr (psrPriority psr)) (psrPriority psr) := by
  have hle : (psrPriority psr).toNat ≤ 7 := psrPriority_le psr
  have hbyte : ((psrPriority psr).setWidth 8).setWidth 16 = psrPriority psr := by
    refine BitVec.eq_of_toNat_eq ?_
    simp only [BitVec.toNat_setWidth]
    omega
  have hrange : (psrPriority psr).setWidth 8 ≤ (7 : Byte) := by
    rw [BitVec.le_def, BitVec.toNat_setWidth]
    exact (Nat.mod_le _ _).trans hle
  have hstatus := (handlerStatus_handlerPsr_iff _).mpr hrange
  rwa [hbyte] at hstatus

/-- **Exceptions are precise and never linger.** In every state between ticks, in every run of a new
simulator in which no device asks for the clock register, both exception lines are low. A tick that
starts there with the clock on and fetches the word `w` delivers an exception exactly when `w` has
the undefined opcode, with vector 1, or is RTI in user mode, with vector 0. Then the tick does
nothing besides the fetch and one delivery, from whichever mode, into a handler with the same
priority. With any other word it does nothing besides the execution of the word. -/
theorem exceptions_precise {devices : ω} {deviceIo : ι} {events : List TickEvent}
    {outs : List Bool} (hnew : simulatorNew env devices deviceIo = some sim₀)
    (hevents : ∀ e ∈ events, e.Spares env mcrAddr)
    (hrun : run (tickEvent env) events sim₀ = some (outs, sim)) :
    sim.cpu.LinesLow ∧ ∀ w m₁, clockEnabled (mcrValue sim.machine) = true →
      busRead env sim.machine (sim.cpu.registers .pc) = some (w, m₁) →
      (∀ vec, TickDelivers env sim vec ↔ (opcode w = 13 ∧ vec = 0x01) ∨
        (opcode w = 8 ∧ (sim.cpu.registers .psr).getLsbD 15 = true ∧ vec = 0x00)) ∧
      (opcode w ≠ 13 → ¬ (opcode w = 8 ∧ (sim.cpu.registers .psr).getLsbD 15 = true) →
        ∀ running sim', tick env sim = some (running, sim') →
          TickUndisturbed env sim running sim') ∧
      ∀ vec running sim', TickDelivers env sim vec → tick env sim = some (running, sim') →
        running = true ∧ sim'.cpu.LinesLow ∧
        Entry env (fetched sim.cpu.registers) m₁ vec (sim'.cpu.registers .psr) sim'.cpu.registers
          sim'.machine ∧
        HandlerStatus (sim'.cpu.registers .psr) (psrPriority (sim.cpu.registers .psr)) := by
  have hsettled : Settled sim := run_invariant_of_along (C := fun e _ => e.Spares env mcrAddr)
    (fun e _ _ _ hC hI h => tickEvent_settled hC hI h) (along_of_forall_mem hevents _)
    (simulatorNew_settled hnew) hrun
  refine ⟨hsettled.linesLow, fun w m₁ hclock hfetch => ?_⟩
  have hiff : ∀ vec, TickDelivers env sim vec ↔ (opcode w = 13 ∧ vec = 0x01) ∨
      (opcode w = 8 ∧ (sim.cpu.registers .psr).getLsbD 15 = true ∧ vec = 0x00) := by
    intro vec
    rw [tickDelivers_iff hsettled hclock hfetch, raised_eq_some_iff, hsettled.privMode,
      hsettled.illegalOpcode, supervisorBit_eq]
  refine ⟨hiff, fun hdefined hallowed running sim' htick => ?_, ?_⟩
  · refine tick_undisturbed (fun vec hdelivers => ?_) htick
    rcases (hiff vec).mp hdelivers with ⟨hop, -⟩ | ⟨hop, huser, -⟩
    · exact hdefined hop
    · exact hallowed ⟨hop, huser⟩
  · intro vec running sim' hdelivers htick
    have hraised := (tickDelivers_iff hsettled hclock hfetch).mp hdelivers
    obtain ⟨hrunning, hentry⟩ := tick_entry hsettled hclock hfetch hraised htick
    have hsettled' : Settled sim' := tickEvent_settled (e := .tick) trivial hsettled htick
    have hpsr := hentry.psr
    refine ⟨hrunning, hsettled'.linesLow, hpsr ▸ hentry, ?_⟩
    rw [hpsr]
    exact handlerStatus_of_psrPriority _

end Exceptions

/-- The undefined opcode at address 0, in supervisor mode. -/
theorem exceptions_precise_undefined : ∃ sim₀ sim sim', simulatorNew bareEnv () () = some sim₀ ∧
    run (tickEvent bareEnv) [.between (.writeAddress 0 0xD000)] sim₀ = some ([true], sim) ∧
    tick bareEnv sim = some (true, sim') ∧ TickDelivers bareEnv sim 0x01 ∧
    sim'.cpu.registers .r6 = 0xFFFE ∧ sim'.cpu.LinesLow ∧
    HandlerStatus (sim'.cpu.registers .psr) (psrPriority (sim.cpu.registers .psr)) := by
  obtain ⟨sim₀, hnew⟩ : ∃ sim₀, simulatorNew bareEnv () () = some sim₀ := ⟨_, rfl⟩
  obtain ⟨sim, hrun, hclock, hfetch⟩ : ∃ sim,
      run (tickEvent bareEnv) [.between (.writeAddress 0 0xD000)] sim₀ = some ([true], sim) ∧
        clockEnabled (mcrValue sim.machine) = true ∧
        busRead bareEnv sim.machine (sim.cpu.registers .pc) = some (0xD000, sim.machine) := by
    obtain rfl := Option.some.inj hnew
    exact ⟨_, rfl, by decide, rfl⟩
  obtain ⟨-, hprecise⟩ := exceptions_precise hnew
    (show ∀ e ∈ [.between (.writeAddress 0 0xD000)], TickEvent.Spares bareEnv mcrAddr e by
      simp [TickEvent.Spares, Between.Spares]) hrun
  obtain ⟨hiff, -, heffect⟩ := hprecise 0xD000 _ hclock hfetch
  have hdelivers : TickDelivers bareEnv sim 0x01 := (hiff 0x01).mpr (Or.inl ⟨by decide, rfl⟩)
  obtain ⟨sim', htick, hr6⟩ : ∃ sim', tick bareEnv sim = some (true, sim') ∧
      sim'.cpu.registers .r6 = 0xFFFE := by
    obtain rfl := Option.some.inj hnew
    obtain ⟨-, rfl⟩ := Prod.mk.inj (Option.some.inj hrun)
    exact ⟨_, rfl, by decide⟩
  obtain ⟨-, hlines, -, hstatus⟩ := heffect 0x01 true sim' hdelivers htick
  exact ⟨sim₀, sim, sim', hnew, hrun, htick, hdelivers, hr6, hlines, hstatus⟩

end Lc3Simulator
