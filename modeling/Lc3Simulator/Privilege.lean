import Lc3Simulator.Execution
import Lc3Simulator.Library.Transition

/-!
# User code and its privilege

Bits 15 and 10 to 8 of the status word hold the privilege mode and the priority. No instruction of
a program in user mode changes them: the only way is through the vector table, by an interrupt that
the CPU accepts, by RTI, which raises an exception in user mode, or by the opcode that is not
defined.

A step is a tick or an offered interrupt. Which event a step delivers is read off the state before
it (`delivered`); every step in user mode either delivers that event as `Entered` says or leaves
mode and priority alone.

The clock register is ordinary memory here. Then the two looks a tick takes at the clock agree
whenever the instruction raises an exception, so that no exception outlives its tick.

## Main definitions

* `CpuEvent`, `cpuStep` — ticks and offered interrupts, in a machine
* `delivered` — the event that a step in user mode delivers
* `Entered` — the CPU and the machine after a delivery
* `Quiet` — no exception is waiting, and the clock register is ordinary memory

## Main results

* `user_step` — every step in user mode, in every run
-/

namespace Lc3Simulator

open Interaction Isa Transition

/-! ### Ticks on ordinary clock memory -/

section Machine

variable {ω ι : Type} {env : Env ω ι} {m m' : Machine ω ι} {cpu cpu' : Cpu} {w : Word}

/-- The clock register of the machine. -/
def mcrValue (m : Machine ω ι) : Word := (m.bus.memory mcrAddr).value

theorem busRead_mcr (h : (m.bus.memory mcrAddr).attachmentFlag = false) :
    busRead env m mcrAddr = some (mcrValue m, m) :=
  busRead_ordinary h

/-- A tick with the clock off does nothing. -/
theorem run_cpuTick_of_stopped (h : (m.bus.memory mcrAddr).attachmentFlag = false)
    (hclock : clockEnabled (mcrValue m) = false) :
    (cpuTick cpu).run (initBusAccessor env).handler m = some ((false, cpu), m) := by
  have hpoll : (initBusAccessor env).handler (.read mcrAddr) m = some (mcrValue m, m) :=
    busRead_mcr h
  simp [cpuTick, busAccessRead, Prog.send, hpoll, hclock]

/-- A tick with the clock on that comes back has fetched, dispatched and ended. -/
theorem run_cpuTick_of_running (h : (m.bus.memory mcrAddr).attachmentFlag = false)
    (hclock : clockEnabled (mcrValue m) = true) {x : (Bool × Cpu) × Machine ω ι}
    (hrun : (cpuTick cpu).run (initBusAccessor env).handler m = some x) :
    ∃ w m₁ y, busRead env m (cpu.registers .pc) = some (w, m₁) ∧
      (cpuDispatch (cpu.withRegisters (fetched cpu.registers)) w).run
        (initBusAccessor env).handler m₁ = some y ∧
      (cpuTickEnd y.1).run (initBusAccessor env).handler y.2 = some x := by
  have hpoll : (initBusAccessor env).handler (.read mcrAddr) m = some (mcrValue m, m) :=
    busRead_mcr h
  cases hfetch : busRead env m (cpu.registers .pc) with
  | none =>
    have hnone : (initBusAccessor env).handler (.read (cpu.registers .pc)) m = none := hfetch
    simp [cpuTick, busAccessRead, Prog.send, hpoll, hclock, hnone] at hrun
  | some y =>
    rw [run_cpuTick hpoll hclock hfetch] at hrun
    obtain ⟨z, hdispatch, hend⟩ := Option.bind_eq_some_iff.mp hrun
    exact ⟨y.1, y.2, z, rfl, hdispatch, hend⟩

/-- An instruction that raises an exception does nothing else, and the exception is delivered at the
end of the tick. -/
theorem run_cpuDispatch_raised {vec : Byte} {x : (Bool × Cpu) × Machine ω ι}
    {y : Cpu × Machine ω ι} (hlines : cpu.LinesLow)
    (hflag : (m.bus.memory mcrAddr).attachmentFlag = false)
    (hclock : clockEnabled (mcrValue m) = true) (hraised : raised cpu w = some vec)
    (hdispatch : (cpuDispatch cpu w).run (initBusAccessor env).handler m = some y)
    (hend : (cpuTickEnd y.1).run (initBusAccessor env).handler y.2 = some x) :
    (deliver cpu vec (handlerPsr (psrPriority (cpu.registers .psr)))).run
      (initBusAccessor env).handler m = some (x.1.2, x.2) := by
  have hpoll : (initBusAccessor env).handler (.read mcrAddr) m = some (mcrValue m, m) :=
    busRead_mcr hflag
  rw [cpuDispatch_of_raised hraised] at hdispatch
  obtain rfl := Option.some.inj hdispatch
  obtain ⟨mcr, m₁, hpoll', hcases⟩ := run_cpuTickEnd_eq_some hend
  obtain ⟨rfl, rfl⟩ := Prod.mk.inj (Option.some.inj (hpoll.symm.trans hpoll'))
  rw [← cpuCheckExceptions_raiseLines hlines hraised]
  rcases hcases with ⟨hstopped, -⟩ | ⟨-, -, hdelivers⟩
  · exact absurd (hclock.symm.trans hstopped) (by decide)
  · exact hdelivers

/-- An instruction that raises none leaves the lines alone, and the tick ends with it. -/
theorem run_cpuDispatch_not_raised {x : (Bool × Cpu) × Machine ω ι} {y : Cpu × Machine ω ι}
    (hlines : cpu.LinesLow) (hraised : raised cpu w = none)
    (hdispatch : (cpuDispatch cpu w).run (initBusAccessor env).handler m = some y)
    (hend : (cpuTickEnd y.1).run (initBusAccessor env).handler y.2 = some x) :
    x.1.2 = cpu.withRegisters x.1.2.registers ∧ (supervisorBit (cpu.registers .psr) = true →
      SameMode (cpu.registers .psr) (x.1.2.registers .psr)) := by
  obtain ⟨hcpu, hexec⟩ := run_cpuDispatch_executed hdispatch
  rw [raiseLines_of_none hraised] at hcpu
  have hlines' : y.1.LinesLow := hcpu ▸ hlines
  rw [run_cpuTickEnd hlines'] at hend
  obtain ⟨z, -, rfl⟩ := Option.map_eq_some_iff.mp hend
  exact ⟨hcpu, fun huser => hexec.sameMode fun _ => huser⟩

end Machine

/-! ### Steps -/

/-- A tick, or an interrupt offered to the CPU. -/
inductive CpuEvent
  | tick
  | signal (vec priority : Byte)

/-- What the simulator calls. -/
def cpuEvent : CpuEvent → Cpu → BusProg (Bool × Cpu)
  | .tick, cpu => cpuTick cpu
  | .signal vec priority, cpu => cpuSignalInterrupt cpu vec priority

/-- An offered interrupt has one of the priorities of the simulator. -/
def CpuEvent.InRange : CpuEvent → Prop
  | .tick => True
  | .signal _ priority => priority ≤ 7

section Steps

variable {ω ι : Type}

/-- A step of a CPU and the machine behind its bus. -/
def cpuStep (env : Env ω ι) (e : CpuEvent) (s : Cpu × Machine ω ι) :
    Option (Bool × (Cpu × Machine ω ι)) :=
  ((cpuEvent e s.1).run (initBusAccessor env).handler s.2).map fun x => (x.1.1, x.1.2, x.2)

/-- No exception is waiting, and the clock register is ordinary memory. -/
structure Quiet (s : Cpu × Machine ω ι) : Prop where
  lines : s.1.LinesLow
  clock : (s.2.bus.memory mcrAddr).attachmentFlag = false

/-- An event to deliver: its vector and priority, the PC to resume at, and the machine that the
delivery starts from. -/
structure Delivery (ω ι : Type) where
  vec : Byte
  priority : Word
  resume : Word
  machine : Machine ω ι

/-- What a step in user mode delivers: an interrupt above the priority of the CPU, or, if the clock
is on, the exception that the fetched instruction raises. -/
def delivered (env : Env ω ι) (s : Cpu × Machine ω ι) : CpuEvent → Option (Delivery ω ι)
  | .signal vec priority =>
    if psrPriority (s.1.registers .psr) < priority.setWidth 16 then
      some ⟨vec, priority.setWidth 16, s.1.registers .pc, s.2⟩
    else none
  | .tick =>
    if clockEnabled (mcrValue s.2) then do
      let fetch ← busRead env s.2 (s.1.registers .pc)
      let vec ← raised s.1 fetch.1
      return ⟨vec, psrPriority (s.1.registers .psr), s.1.registers .pc + 1, fetch.2⟩
    else none

/-- The CPU has entered the handler of the event from the registers `regs` of user mode: supervisor
mode, the user stack pointer saved, the old status word and the PC to resume at pushed through the
supervisor stack pointer, the priority of the event, and the PC from the vector table. -/
structure Entered (env : Env ω ι) (regs : Registers) (d : Delivery ω ι) (s : Cpu × Machine ω ι) :
    Prop where
  supervisor : (s.1.registers .psr).getLsbD 15 = false
  priority : psrPriority (s.1.registers .psr) = d.priority
  usp : s.1.registers .usp = regs .r6
  r6 : s.1.registers .r6 = regs .ssp - 2
  frame : ∃ m₁ m₂, busWrite env d.machine (regs .ssp - 1) (regs .psr) = some m₁ ∧
    busWrite env m₁ (regs .ssp - 2) d.resume = some m₂ ∧
    busRead env m₂ (0x0100 + d.vec.setWidth 16) = some (s.1.registers .pc, s.2)

variable {env : Env ω ι} {s s' : Cpu × Machine ω ι} {m : Machine ω ι} {cpu : Cpu}

/-- A delivery from user mode. -/
theorem run_deliver_user {vec : Byte} {priority : Word} {x : Cpu × Machine ω ι}
    (huser : supervisorBit (cpu.registers .psr) = true) (hle : priority ≤ 7)
    (h : (deliver cpu vec (handlerPsr priority)).run (initBusAccessor env).handler m = some x) :
    Entered env cpu.registers ⟨vec, priority, cpu.registers .pc, m⟩ x := by
  obtain ⟨-, hentry⟩ := run_deliver_entry h
  obtain ⟨hmode, hpriority⟩ := handlerPsr_spec hle
  have hr6 : x.1.registers .r6 = cpu.registers .ssp - 2 := hentry.r6.trans (by rw [if_pos huser])
  have hr6' : x.1.registers .r6 + 1 = cpu.registers .ssp - 1 := by rw [hr6]; bv_omega
  obtain ⟨m₁, m₂, hpush, hpush', hread⟩ := hentry.frame
  refine ⟨?_, (congrArg psrPriority hentry.psr).trans hpriority,
    hentry.usp.trans (if_pos huser), hr6, m₁, m₂, hr6' ▸ hpush, hr6 ▸ hpush', hread⟩
  rw [hentry.psr, ← supervisorBit_eq]
  exact hmode

theorem deliver_linesLow {vec : Byte} {psr : Word} {x : Cpu × Machine ω ι} (h : cpu.LinesLow)
    (hrun : (deliver cpu vec psr).run (initBusAccessor env).handler m = some x) :
    x.1.LinesLow := by
  rw [(run_deliver_entry hrun).1]
  exact h

/-- A tick that starts with the lines low changes registers at most: a line that it raises it lowers
again. -/
theorem run_cpuTick_withRegisters {running : Bool} {cpu' : Cpu} {m' : Machine ω ι}
    (hlines : cpu.LinesLow) (hflag : (m.bus.memory mcrAddr).attachmentFlag = false)
    (h : (cpuTick cpu).run (initBusAccessor env).handler m = some ((running, cpu'), m')) :
    cpu' = cpu.withRegisters cpu'.registers := by
  cases hclock : clockEnabled (mcrValue m) with
  | false =>
    rw [run_cpuTick_of_stopped hflag hclock] at h
    obtain ⟨hcpu, -⟩ := Prod.mk.inj (Option.some.inj h)
    obtain ⟨-, rfl⟩ := Prod.mk.inj hcpu
    rfl
  | true =>
    obtain ⟨w, m₁, y, hfetch, hdispatch, hend⟩ := run_cpuTick_of_running hflag hclock h
    have hbus : m₁.bus = m.bus := (busRead_eq_some hfetch).1
    have hlines₁ : (cpu.withRegisters (fetched cpu.registers)).LinesLow := hlines
    cases hraised : raised (cpu.withRegisters (fetched cpu.registers)) w with
    | none => exact (run_cpuDispatch_not_raised hlines₁ hraised hdispatch hend).1
    | some vec =>
      have hflag₁ : (m₁.bus.memory mcrAddr).attachmentFlag = false := hbus ▸ hflag
      have hclock₁ : clockEnabled (mcrValue m₁) = true := by rw [mcrValue, hbus]; exact hclock
      have hdeliver := run_cpuDispatch_raised hlines₁ hflag₁ hclock₁ hraised hdispatch hend
      exact (run_deliver_entry hdeliver).1

/-- Steps keep the state quiet, in both modes. -/
theorem cpuStep_quiet {e : CpuEvent} {out : Bool} (hquiet : Quiet s)
    (h : cpuStep env e s = some (out, s')) : Quiet s' := by
  obtain ⟨x, hrun, hx⟩ := Option.map_eq_some_iff.mp h
  obtain ⟨-, rfl⟩ := Prod.mk.inj hx
  refine ⟨?_, ((run_sameMap hrun).flag mcrAddr).trans hquiet.clock⟩
  cases e with
  | signal vec priority =>
    rcases run_cpuSignalInterrupt hrun with ⟨-, rfl⟩ | ⟨-, cpu', m', hdeliver, rfl⟩
    · exact hquiet.lines
    · exact deliver_linesLow hquiet.lines hdeliver
  | tick =>
    rw [run_cpuTick_withRegisters hquiet.lines hquiet.clock hrun]
    exact hquiet.lines

/-- A step in user mode delivers its event, or leaves mode and priority alone. -/
def UserStep (env : Env ω ι) (e : CpuEvent) (s s' : Cpu × Machine ω ι) : Prop :=
  match delivered env s e with
  | none => SameMode (s.1.registers .psr) (s'.1.registers .psr)
  | some d => Entered env s.1.registers d s'

theorem userStep_of_none {e : CpuEvent} (hd : delivered env s e = none)
    (h : SameMode (s.1.registers .psr) (s'.1.registers .psr)) : UserStep env e s s' := by
  rwa [UserStep, hd]

theorem userStep_of_some {e : CpuEvent} {d : Delivery ω ι} (hd : delivered env s e = some d)
    (h : Entered env s.1.registers d s') : UserStep env e s s' := by
  rwa [UserStep, hd]

theorem cpuStep_signal {vec priority : Byte} {out : Bool}
    (huser : supervisorBit (s.1.registers .psr) = true) (hrange : priority ≤ 7)
    (h : cpuStep env (.signal vec priority) s = some (out, s')) :
    UserStep env (.signal vec priority) s s' := by
  obtain ⟨x, hrun, hx⟩ := Option.map_eq_some_iff.mp h
  obtain ⟨-, rfl⟩ := Prod.mk.inj hx
  rcases run_cpuSignalInterrupt hrun with ⟨hle, rfl⟩ | ⟨hlt, cpu', m', hdeliver, rfl⟩
  · exact userStep_of_none (if_neg (BitVec.not_lt.mpr hle)) (SameMode.refl _)
  · have hle7 : priority.setWidth 16 ≤ (7 : Word) := by
      rw [BitVec.le_def, BitVec.toNat_setWidth]
      have : priority.toNat ≤ 7 := hrange
      exact (Nat.mod_le _ _).trans this
    exact userStep_of_some (if_pos hlt) (run_deliver_user huser hle7 hdeliver)

theorem cpuStep_tick {out : Bool} (hquiet : Quiet s)
    (huser : supervisorBit (s.1.registers .psr) = true)
    (h : cpuStep env .tick s = some (out, s')) : UserStep env .tick s s' := by
  obtain ⟨x, hrun, hx⟩ := Option.map_eq_some_iff.mp h
  obtain ⟨-, rfl⟩ := Prod.mk.inj hx
  cases hclock : clockEnabled (mcrValue s.2) with
  | false =>
    rw [cpuEvent, run_cpuTick_of_stopped hquiet.clock hclock] at hrun
    obtain rfl := Option.some.inj hrun
    exact userStep_of_none (by simp [delivered, hclock]) (SameMode.refl _)
  | true =>
    obtain ⟨w, m₁, y, hfetch, hdispatch, hend⟩ := run_cpuTick_of_running hquiet.clock hclock hrun
    have hbus : m₁.bus = s.2.bus := (busRead_eq_some hfetch).1
    have hlines : (s.1.withRegisters (fetched s.1.registers)).LinesLow := hquiet.lines
    have hfetched : raised (s.1.withRegisters (fetched s.1.registers)) w = raised s.1 w := rfl
    cases hraised : raised s.1 w with
    | none =>
      have hmode := (run_cpuDispatch_not_raised hlines (hfetched.trans hraised) hdispatch hend).2
      exact userStep_of_none (by simp [delivered, hclock, hfetch, hraised]) (hmode huser)
    | some vec =>
      have hflag₁ : (m₁.bus.memory mcrAddr).attachmentFlag = false := hbus ▸ hquiet.clock
      have hclock₁ : clockEnabled (mcrValue m₁) = true := by rw [mcrValue, hbus]; exact hclock
      have hdeliver := run_cpuDispatch_raised hlines hflag₁ hclock₁ (hfetched.trans hraised)
        hdispatch hend
      have huser₁ : supervisorBit ((s.1.withRegisters (fetched s.1.registers)).registers .psr) =
          true := huser
      have hentered := run_deliver_user huser₁ (psrPriority_le _) hdeliver
      have hd : delivered env s .tick = some ⟨vec, psrPriority (s.1.registers .psr),
          s.1.registers .pc + 1, m₁⟩ := by
        simp [delivered, hclock, hfetch, hraised]
      -- the fetch changes the PC only
      exact userStep_of_some hd
        ⟨hentered.supervisor, hentered.priority, hentered.usp, hentered.r6, hentered.frame⟩

/-- **User code and its privilege.** Start from a CPU without a waiting exception, in a machine
whose clock register is ordinary memory, and take any number of ticks and offered interrupts. Every
step that is then taken in user mode leaves the privilege mode and the priority alone, unless it
delivers an interrupt or an exception; and then the CPU enters supervisor mode through the vector
table, with the frame on the supervisor stack. -/
theorem user_step {events : List CpuEvent} {outs : List Bool} {s₀ : Cpu × Machine ω ι}
    (hquiet : Quiet s₀) (hrun : run (cpuStep env) events s₀ = some (outs, s)) {e : CpuEvent}
    (hrange : e.InRange) {out : Bool} (hstep : cpuStep env e s = some (out, s'))
    (huser : (s.1.registers .psr).getLsbD 15 = true) : UserStep env e s s' := by
  have hquiet' : Quiet s := run_invariant (fun _ _ _ _ h hstep => cpuStep_quiet h hstep) hquiet hrun
  rw [← supervisorBit_eq] at huser
  cases e with
  | tick => exact cpuStep_tick hquiet' huser hstep
  | signal vec priority => exact cpuStep_signal huser hrange hstep

end Steps

/-- A CPU in user mode about to execute the word at `0x3000`, with its supervisor stack at
`0x2000`. -/
def userCpu : Cpu :=
  ⟨⟨false, 0⟩, ⟨false, 1⟩, fun r => if r = .psr then 0x8302 else if r = .pc then 0x3000
    else if r = .ssp then 0x2000 else if r = .r6 then 0xF000 else 0⟩

/-- RTI at `0x3000`, with the clock on. -/
def rtiMachine : Machine Unit Unit :=
  bareMachine fun a => if a = 0x3000 then 0x8000 else if a = mcrAddr then 0x8000
    else if a = 0x0100 then 0x0500 else 0

/-- After an interrupt that is not accepted, RTI enters the handler of vector 0. -/
theorem user_step_rti :
    ∃ s s', run (cpuStep bareEnv) [.signal 0x80 2] (userCpu, rtiMachine) = some ([false], s) ∧
      cpuStep bareEnv .tick s = some (true, s') ∧ s'.1.registers .pc = 0x0500 ∧
      UserStep bareEnv .tick s s' :=
  ⟨_, _, rfl, rfl, by decide, user_step (show Quiet (userCpu, rtiMachine) from ⟨⟨rfl, rfl⟩, rfl⟩)
    (show run (cpuStep bareEnv) [.signal 0x80 2] _ = some ([false], _) from rfl)
    (show CpuEvent.InRange .tick from trivial) rfl (by decide)⟩

end Lc3Simulator
