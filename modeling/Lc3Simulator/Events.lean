import Lc3Simulator.AddressMap
import Lc3Simulator.Execution
import Lc3Simulator.Simulator

/-!
# The events of a simulator

Whatever the user interface asks for, a simulator does a few kinds of things: it ticks, and between
two ticks it attaches a device, takes input, looks at the interrupts, and so on. What a program of
the LC-3 can tell apart is finer than that, since a tick may execute an instruction and then deliver
an exception. So there are two levels of events, and every command is a run of the coarse ones, and
every run of these is a run of the fine ones. What holds along all runs of events holds inside
every command as well, where a status or a result could not show it.

## Main definitions

* `Between`, `between` — what happens between two ticks
* `TickEvent`, `tickEvent` — the same and ticks
* `SimEvent`, `simEvent` — the same and the two parts of a tick
* `BetweenStep` — what can happen between two ticks
* `delivery` — the interrupt or exception that an event delivers
* `CpuChange` — what an event does to the registers

## Main results

* `runCommand_leads`, `runLoop_events` — commands, and the loop, as runs of coarse events
* `run_expand` — coarse events as runs of fine ones
* `between_step` — what happens between two ticks is one of the cases of `BetweenStep`
* `simEvent_cpuChange` — one event, as far as the registers go
-/

namespace Lc3Simulator

open Interaction Isa IntervalTable Transition

/-! ### Events -/

/-- What happens between two ticks. `setStart` is the last line of `simulator_load_program`. -/
inductive Between
  | attachDevice (device : DevicePtr)
  | writeAddress (address value : Word)
  | writeRegister (reg : Lc3Reg) (value : Word)
  | setStart (address : Word)
  | updateDevicesInput (input : Word)
  | startIo
  | endIo
  | checkInput
  | updateDevicesOnTick
  | checkInterrupts

/-- Ticks, and what happens between them. -/
inductive TickEvent
  | tick
  | between (b : Between)

/-- The two parts of a tick, and what happens between ticks. -/
inductive SimEvent
  | execute
  | checkExceptions
  | between (b : Between)

section Events

variable {ω ι : Type} (env : Env ω ι)

def between : Between → Simulator ω ι → Option (Simulator ω ι)
  | .attachDevice device, sim => (simulatorAttachDevice env sim device).map Prod.snd
  | .writeAddress address value, sim => simulatorWriteAddress env sim address value
  | .writeRegister reg value, sim => some (simulatorWriteRegister sim reg value)
  | .setStart address, sim => some { sim with cpu := cpuWriteRegister sim.cpu .pc address }
  | .updateDevicesInput input, sim => simulatorUpdateDevicesInput env sim input
  | .startIo, sim => some (startIo env sim).2
  | .endIo, sim => some (endIo env sim).2
  | .checkInput, sim => simulatorCheckInput env sim
  | .updateDevicesOnTick, sim => simulatorUpdateDevicesOnTick sim
  | .checkInterrupts, sim => simulatorCheckInterrupts env sim

/-- The output says whether the machine is still going. -/
def tickEvent : TickEvent → Simulator ω ι → Option (Bool × Simulator ω ι)
  | .tick, sim => tick env sim
  | .between b, sim => (between env b sim).map fun sim => (true, sim)

def simEvent : SimEvent → Simulator ω ι → Option (Unit × Simulator ω ι)
  | .execute, sim => (runOnBus env (cpuExecute sim.cpu) sim.machine).map fun x =>
      ((), { sim with cpu := x.1.2, machine := x.2 })
  | .checkExceptions, sim => (runOnBus env (cpuCheckExceptions sim.cpu) sim.machine).map fun x =>
      ((), { sim with cpu := x.1, machine := x.2 })
  | .between b, sim => (between env b sim).map fun sim => ((), sim)

end Events

/-- The parts of a tick, given its output: a tick that finds the clock off at its end does not look
for exceptions. -/
def TickEvent.parts : TickEvent → Bool → List SimEvent
  | .tick, true => [.execute, .checkExceptions]
  | .tick, false => [.execute]
  | .between b, _ => [.between b]

/-- The parts of all events of a run. -/
def expand (events : List TickEvent) (outs : List Bool) : List SimEvent :=
  (List.zipWith TickEvent.parts events outs).flatten

section Runs

variable {ω ι : Type} {env : Env ω ι} {sim sim' : Simulator ω ι}

theorem tickEvent_between {b : Between} {out : Bool}
    (h : tickEvent env (.between b) sim = some (out, sim')) :
    out = true ∧ between env b sim = some sim' := by
  obtain ⟨sim₁, hb, h⟩ := Option.map_eq_some_iff.mp h
  obtain ⟨rfl, rfl⟩ := Prod.mk.inj h
  exact ⟨rfl, hb⟩

theorem simEvent_execute {out : Unit} (h : simEvent env .execute sim = some (out, sim')) :
    ∃ running cpu m, (cpuExecute sim.cpu).run (initBusAccessor env).handler sim.machine =
      some ((running, cpu), m) ∧ sim' = { sim with cpu, machine := m } := by
  obtain ⟨⟨⟨running, cpu⟩, m⟩, hrun, h⟩ := Option.map_eq_some_iff.mp h
  obtain ⟨-, rfl⟩ := Prod.mk.inj h
  exact ⟨running, cpu, m, hrun, rfl⟩

theorem simEvent_checkExceptions {out : Unit}
    (h : simEvent env .checkExceptions sim = some (out, sim')) :
    ∃ cpu m, (cpuCheckExceptions sim.cpu).run (initBusAccessor env).handler sim.machine =
      some (cpu, m) ∧ sim' = { sim with cpu, machine := m } := by
  obtain ⟨⟨cpu, m⟩, hrun, h⟩ := Option.map_eq_some_iff.mp h
  obtain ⟨-, rfl⟩ := Prod.mk.inj h
  exact ⟨cpu, m, hrun, rfl⟩

theorem simEvent_between {b : Between} {out : Unit}
    (h : simEvent env (.between b) sim = some (out, sim')) : between env b sim = some sim' := by
  obtain ⟨sim₁, hb, h⟩ := Option.map_eq_some_iff.mp h
  obtain ⟨-, rfl⟩ := Prod.mk.inj h
  exact hb

theorem tickEvent_parts {e : TickEvent} {out : Bool} (h : tickEvent env e sim = some (out, sim')) :
    ∃ outs, run (simEvent env) (e.parts out) sim = some (outs, sim') := by
  cases e with
  | between b =>
    obtain ⟨rfl, hb⟩ := tickEvent_between h
    exact ⟨[()], by simp [TickEvent.parts, run_cons, simEvent, hb]⟩
  | tick =>
    obtain ⟨cpu, machine, htick, rfl⟩ := tick_eq_some h
    rw [cpuTick_eq_cpuExecute, Prog.run_bind] at htick
    obtain ⟨⟨⟨b, cpu₁⟩, m₁⟩, hexecute, hrest⟩ := Option.bind_eq_some_iff.mp htick
    cases b with
    | false =>
      obtain ⟨hcpu, rfl⟩ := Prod.mk.inj (Option.some.inj hrest)
      obtain ⟨rfl, rfl⟩ := Prod.mk.inj hcpu
      exact ⟨[()], by simp [TickEvent.parts, run_cons, simEvent, runOnBus, hexecute]⟩
    | true =>
      simp only [if_true, Prog.run_bind] at hrest
      obtain ⟨⟨cpu₂, m₂⟩, hcheck, hrest⟩ := Option.bind_eq_some_iff.mp hrest
      obtain ⟨hcpu, rfl⟩ := Prod.mk.inj (Option.some.inj hrest)
      obtain ⟨rfl, rfl⟩ := Prod.mk.inj hcpu
      exact ⟨[(), ()], by simp [TickEvent.parts, run_cons, simEvent, runOnBus, hexecute, hcheck]⟩

/-- **Every run of ticks is a run of their parts.** -/
theorem run_expand {events : List TickEvent} {outs : List Bool}
    (h : run (tickEvent env) events sim = some (outs, sim')) :
    ∃ outs', run (simEvent env) (expand events outs) sim = some (outs', sim') := by
  induction events generalizing sim outs with
  | nil =>
    obtain ⟨rfl, rfl⟩ := Prod.mk.inj (Option.some.inj h)
    exact ⟨[], rfl⟩
  | cons e events ih =>
    obtain ⟨out, sim₁, rest, hstep, hrest, rfl⟩ := run_cons_eq_some h
    obtain ⟨outs₁, hparts⟩ := tickEvent_parts hstep
    obtain ⟨outs₂, hrun⟩ := ih hrest
    exact ⟨outs₁ ++ outs₂, run_append hparts hrun⟩

end Runs

/-! ### Commands are runs of events -/

/-- The calls of one round of the loop of `simulator_run_until_end`. -/
def loopRound : List TickEvent :=
  [.tick, .between .checkInput, .between .updateDevicesOnTick, .between .checkInterrupts]

def loopEvents (n : ℕ) : List TickEvent := (List.replicate n loopRound).flatten

/-- The events a command may give rise to: devices are attached and registers are written by the
commands for that only. -/
def Command.Admits (command : Command) : TickEvent → Prop
  | .between (.attachDevice device) => command = .attachDevice device
  | .between (.writeRegister reg value) => command = .writeRegister reg value
  | _ => True

section Commands

variable {ω ι : Type} {env : Env ω ι} {sim sim' : Simulator ω ι}

theorem admits_of_mem_loopEvents (command : Command) {n : ℕ} :
    ∀ e ∈ loopEvents n, command.Admits e := by
  intro e he
  obtain ⟨l, hl, he⟩ := List.mem_flatten.mp he
  obtain rfl := List.eq_of_mem_replicate hl
  simp only [loopRound, List.mem_cons, List.not_mem_nil, or_false] at he
  rcases he with rfl | rfl | rfl | rfl <;> exact trivial

/-- One round. -/
theorem run_loopRound {sim₁ : Simulator ω ι} (htick : tick env sim = some (true, sim₁))
    (hbody : loopBody env sim₁ = some sim') :
    run (tickEvent env) loopRound sim = some ([true, true, true, true], sim') := by
  obtain ⟨sim₂, hinput, hbody⟩ := Option.bind_eq_some_iff.mp hbody
  obtain ⟨sim₃, hdevices, hinterrupts⟩ := Option.bind_eq_some_iff.mp hbody
  simp [loopRound, run_cons, tickEvent, between, htick, hinput, hdevices, hinterrupts]

/-- What the ticks and the rest of `n` rounds return. -/
def loopOuts (n : ℕ) : List Bool := (List.replicate n [true, true, true, true]).flatten

/-- **The loop as a run of events**: whole rounds, and a last tick if the machine stopped. -/
theorem runLoop_events {n : ℕ} {running : Bool} (h : runLoop env n sim = some (running, sim')) :
    ∃ k, k ≤ n ∧ (running = true → k = n) ∧
      run (tickEvent env) (loopEvents k ++ if running then [] else [.tick]) sim =
        some (loopOuts k ++ if running then [] else [false], sim') := by
  induction n generalizing sim with
  | zero =>
    obtain ⟨rfl, rfl⟩ := Prod.mk.inj (Option.some.inj h)
    exact ⟨0, le_rfl, fun _ => rfl, rfl⟩
  | succ n ih =>
    obtain ⟨⟨b, sim₁⟩, htick, h⟩ := Option.bind_eq_some_iff.mp h
    cases b with
    | false =>
      obtain ⟨rfl, rfl⟩ := Prod.mk.inj (Option.some.inj h)
      refine ⟨0, Nat.zero_le _, fun h => (by cases h), ?_⟩
      simp [loopEvents, loopOuts, run_cons, tickEvent, htick]
    | true =>
      obtain ⟨sim₂, hbody, h⟩ := Option.bind_eq_some_iff.mp h
      obtain ⟨k, hle, hk, hrun⟩ := ih h
      refine ⟨k + 1, Nat.succ_le_succ hle, fun hr => by rw [hk hr], ?_⟩
      show run (tickEvent env) (loopRound ++ (loopEvents k ++ _)) sim =
        some ([true, true, true, true] ++ (loopOuts k ++ _), sim')
      exact run_append (run_loopRound htick hbody) hrun

/-- One round again, with the parts of its tick. -/
def loopRoundParts : List SimEvent :=
  [.execute, .checkExceptions, .between .checkInput, .between .updateDevicesOnTick,
    .between .checkInterrupts]

/-- The parts of `n` rounds, and of a last tick if the machine stopped. -/
def loopParts (n : ℕ) (running : Bool) : List SimEvent :=
  (List.replicate n loopRoundParts).flatten ++ if running then [] else [.execute]

theorem expand_loopEvents (n : ℕ) (running : Bool) :
    expand (loopEvents n ++ if running then [] else [.tick])
      (loopOuts n ++ if running then [] else [false]) = loopParts n running := by
  induction n with
  | zero => cases running <;> rfl
  | succ n ih => exact congrArg (loopRoundParts ++ ·) ih

/-- The loop as a run of the parts of its ticks, and of what it does between them. -/
theorem runLoop_parts {n : ℕ} {running : Bool} (h : runLoop env n sim = some (running, sim')) :
    ∃ k outs, k ≤ n ∧ (running = true → k = n) ∧
      run (simEvent env) (loopParts k running) sim = some (outs, sim') := by
  obtain ⟨k, hle, hk, hrun⟩ := runLoop_events h
  obtain ⟨outs, hparts⟩ := run_expand hrun
  exact ⟨k, outs, hle, hk, expand_loopEvents k running ▸ hparts⟩

theorem runLoop_leads {n : ℕ} {running : Bool} (command : Command)
    (h : runLoop env n sim = some (running, sim')) :
    Leads (tickEvent env) command.Admits sim sim' := by
  obtain ⟨k, -, -, hrun⟩ := runLoop_events h
  refine ⟨_, _, fun e he => ?_, hrun⟩
  rcases List.mem_append.mp he with he | he
  · exact admits_of_mem_loopEvents command e he
  · cases running with
    | true => cases he
    | false =>
      obtain rfl := List.mem_singleton.mp he
      trivial

theorem stepLoop_leads {n : ℕ} {status tickStatus : Option ℤ} (command : Command)
    (h : stepLoop env n status sim = some (tickStatus, sim')) :
    Leads (tickEvent env) command.Admits sim sim' := by
  induction n generalizing sim status with
  | zero =>
    obtain ⟨-, rfl⟩ := Prod.mk.inj (Option.some.inj h)
    exact Leads.refl _
  | succ n ih =>
    obtain ⟨⟨b, sim₁⟩, htick, h⟩ := Option.bind_eq_some_iff.mp h
    have hfirst : Leads (tickEvent env) command.Admits sim sim₁ :=
      Leads.single (a := .tick) trivial htick
    cases b with
    | false =>
      obtain ⟨-, rfl⟩ := Prod.mk.inj (Option.some.inj h)
      exact hfirst
    | true => exact hfirst.trans (ih h)

theorem between_leads {b : Between} {command : Command} (hadmits : command.Admits (.between b))
    (h : between env b sim = some sim') : Leads (tickEvent env) command.Admits sim sim' := by
  have hstep : tickEvent env (.between b) sim = some (true, sim') := by
    rw [tickEvent, h]
    rfl
  exact Leads.single hadmits hstep

/-- Loading words is writing them. -/
theorem loadWords_leads {words : List Word} {address : Word} {machine : Machine ω ι}
    (command : Command) (h : loadWords env sim.machine address words = some machine) :
    Leads (tickEvent env) command.Admits sim { sim with machine } := by
  induction words generalizing sim address with
  | nil =>
    obtain rfl := Option.some.inj h
    exact Leads.refl _
  | cons word rest ih =>
    obtain ⟨m₁, hwrite, h⟩ := Option.bind_eq_some_iff.mp h
    have hfirst : Leads (tickEvent env) command.Admits sim { sim with machine := m₁ } :=
      between_leads (b := .writeAddress address word) trivial
        (by rw [between, simulatorWriteAddress, hwrite]; rfl)
    exact hfirst.trans (ih h)

theorem simulatorLoadProgram_leads {words : List Word} {last status : ℤ} (command : Command)
    (h : simulatorLoadProgram env sim words last = some (status, sim')) :
    Leads (tickEvent env) command.Admits sim sim' := by
  cases words with
  | nil =>
    obtain ⟨-, rfl⟩ := Prod.mk.inj (Option.some.inj h)
    exact Leads.refl _
  | cons startingAddress rest =>
    obtain ⟨machine, hwords, h⟩ := Option.bind_eq_some_iff.mp h
    obtain ⟨-, rfl⟩ := Prod.mk.inj (Option.some.inj h)
    exact (loadWords_leads command hwords).trans
      (between_leads (b := .setStart startingAddress) trivial rfl)

theorem simulatorStep_leads {amt : ℤ} {status : Option ℤ} (command : Command)
    (h : simulatorStep env amt sim = some (status, sim')) :
    Leads (tickEvent env) command.Admits sim sim' := by
  have hstart : Leads (tickEvent env) command.Admits sim (startIo env sim).2 :=
    between_leads (b := .startIo) trivial rfl
  simp only [simulatorStep] at h
  by_cases hfail : (startIo env sim).1 < 0
  · rw [if_pos hfail] at h
    obtain ⟨-, rfl⟩ := Prod.mk.inj (Option.some.inj h)
    exact hstart
  · rw [if_neg hfail] at h
    obtain ⟨⟨tickStatus, sim₁⟩, hloop, h⟩ := Option.bind_eq_some_iff.mp h
    obtain ⟨-, rfl⟩ := Prod.mk.inj (Option.some.inj h)
    exact (hstart.trans (stepLoop_leads command hloop)).trans
      (between_leads (b := .endIo) trivial rfl)

theorem simulatorRunUntilEnd_leads {n : ℕ} {status : ℤ} (command : Command)
    (h : simulatorRunUntilEnd env n sim = some (status, sim')) :
    Leads (tickEvent env) command.Admits sim sim' := by
  have hstart : Leads (tickEvent env) command.Admits sim (startIo env sim).2 :=
    between_leads (b := .startIo) trivial rfl
  simp only [simulatorRunUntilEnd] at h
  by_cases hfail : (startIo env sim).1 < 0
  · rw [if_pos hfail] at h
    obtain ⟨-, rfl⟩ := Prod.mk.inj (Option.some.inj h)
    exact hstart
  · rw [if_neg hfail] at h
    obtain ⟨⟨running, sim₁⟩, hloop, h⟩ := Option.bind_eq_some_iff.mp h
    obtain ⟨-, -, h⟩ := Option.bind_eq_some_iff.mp h
    obtain ⟨-, rfl⟩ := Prod.mk.inj (Option.some.inj h)
    exact (hstart.trans (runLoop_leads command hloop)).trans
      (between_leads (b := .endIo) trivial rfl)

theorem runCommand_attachDevice {device : DevicePtr} {status : Option ℤ}
    (h : runCommand env (.attachDevice device) sim = some (status, sim')) :
    ∃ s, simulatorAttachDevice env sim device = some (s, sim') ∧ status = some s := by
  obtain ⟨⟨s, sim₁⟩, hattach, h⟩ := Option.map_eq_some_iff.mp h
  obtain ⟨rfl, rfl⟩ := Prod.mk.inj h
  exact ⟨s, hattach, rfl⟩

/-- **Every command is a run of events.** -/
theorem runCommand_leads {command : Command} {status : Option ℤ}
    (h : runCommand env command sim = some (status, sim')) :
    Leads (tickEvent env) command.Admits sim sim' := by
  cases command with
  | attachDevice device =>
    obtain ⟨s, hattach, -⟩ := runCommand_attachDevice h
    exact between_leads (b := .attachDevice device) rfl (by rw [between, hattach]; rfl)
  | writeAddress address value =>
    obtain ⟨sim₁, hwrite, h⟩ := Option.map_eq_some_iff.mp h
    obtain ⟨-, rfl⟩ := Prod.mk.inj h
    exact between_leads (b := .writeAddress address value) trivial hwrite
  | writeRegister reg value =>
    obtain ⟨-, rfl⟩ := Prod.mk.inj (Option.some.inj h)
    exact between_leads (b := .writeRegister reg value) rfl rfl
  | updateDevicesInput input =>
    obtain ⟨sim₁, hinput, h⟩ := Option.map_eq_some_iff.mp h
    obtain ⟨-, rfl⟩ := Prod.mk.inj h
    exact between_leads (b := .updateDevicesInput input) trivial hinput
  | loadProgram words last =>
    obtain ⟨⟨r, sim₁⟩, hload, h⟩ := Option.map_eq_some_iff.mp h
    obtain ⟨-, rfl⟩ := Prod.mk.inj h
    exact simulatorLoadProgram_leads _ hload
  | step amt => exact simulatorStep_leads _ h
  | runUntilEnd n =>
    obtain ⟨⟨r, sim₁⟩, hrun, h⟩ := Option.map_eq_some_iff.mp h
    obtain ⟨-, rfl⟩ := Prod.mk.inj h
    exact simulatorRunUntilEnd_leads _ hrun

/-- A command that attaches nothing is a run of events that attach nothing. -/
theorem runCommand_leads_of_ne {command : Command} {status : Option ℤ}
    (hcommand : ∀ d, command ≠ .attachDevice d)
    (h : runCommand env command sim = some (status, sim')) :
    Leads (tickEvent env) (fun e => ∀ d, e ≠ .between (.attachDevice d)) sim sim' := by
  refine (runCommand_leads h).mono fun e hadmits d hd => ?_
  rw [hd] at hadmits
  exact hcommand d hadmits

end Commands

/-! ### What happens between two ticks -/

section Steps

variable {ω ι : Type} {env : Env ω ι} {sim sim' : Simulator ω ι} {device : DevicePtr}

theorem simulatorUpdateDevicesInput_eq_some {input : Word}
    (h : simulatorUpdateDevicesInput env sim input = some sim') :
    ∃ machine, (sim.onInputDevices.getD []).foldlM (callOnInput env input) sim.machine =
      some machine ∧ sim' = { sim with machine } := by
  obtain ⟨devices, hdevices, h⟩ := Option.bind_eq_some_iff.mp h
  obtain ⟨machine, hfold, h⟩ := Option.bind_eq_some_iff.mp h
  obtain rfl := Option.some.inj h
  rw [hdevices]
  exact ⟨machine, hfold, rfl⟩

theorem simulatorUpdateDevicesOnTick_eq_some (h : simulatorUpdateDevicesOnTick sim = some sim') :
    sim' = sim ∧ (sim.onTickDevices = none ∨ sim.onTickDevices = some []) := by
  rw [simulatorUpdateDevicesOnTick] at h
  match hlist : sim.onTickDevices with
  | none => exact ⟨(Option.some.inj (by rwa [hlist] at h)).symm, Or.inl rfl⟩
  | some [] => exact ⟨(Option.some.inj (by rwa [hlist] at h)).symm, Or.inr rfl⟩
  | some (d :: devices) => simp [hlist] at h

/-- An attachment fails where the bus refuses it, and otherwise starts the device. -/
theorem simulatorAttachDevice_cases {status : ℤ}
    (h : simulatorAttachDevice env sim device = some (status, sim')) :
    ∃ s bus, busAttach env.libc (env.device device) sim.machine.bus device = some (s, bus) ∧
      ((s < 0 ∧ status = -1 ∧ sim' = { sim with machine := { sim.machine with bus } }) ∨
        (¬ s < 0 ∧ status = 0 ∧ ∃ machine,
          callStart env { sim.machine with bus } device = some machine ∧
          sim' = simulatorCheckDeviceSubscriptions env { sim with machine } device)) := by
  obtain ⟨⟨s, bus⟩, hattach, h⟩ := Option.bind_eq_some_iff.mp h
  refine ⟨s, bus, hattach, ?_⟩
  by_cases hfail : s < 0
  · simp only [if_pos hfail] at h
    obtain ⟨rfl, rfl⟩ := Prod.mk.inj (Option.some.inj h)
    exact Or.inl ⟨hfail, rfl, rfl⟩
  · simp only [if_neg hfail] at h
    obtain ⟨machine, hstart, h⟩ := Option.bind_eq_some_iff.mp h
    obtain ⟨rfl, rfl⟩ := Prod.mk.inj (Option.some.inj h)
    exact Or.inr ⟨hfail, rfl, machine, hstart, rfl⟩

@[simp] theorem simulatorCheckDeviceSubscriptions_cpu :
    (simulatorCheckDeviceSubscriptions env sim device).cpu = sim.cpu := by
  rw [simulatorCheckDeviceSubscriptions]
  split_ifs <;> rfl

@[simp] theorem simulatorCheckDeviceSubscriptions_machine :
    (simulatorCheckDeviceSubscriptions env sim device).machine = sim.machine := by
  rw [simulatorCheckDeviceSubscriptions]
  split_ifs <;> rfl

theorem callStart_eq_some {m m' : Machine ω ι} (h : callStart env m device = some m') :
    m'.bus = m.bus ∧ m'.started = device :: m.started := by
  obtain ⟨⟨u, m₁⟩, hcallback, h⟩ := Option.bind_eq_some_iff.mp h
  obtain rfl := Option.some.inj h
  exact runCallback_eq_some hcallback

/-- The request that `simulator_check_interrupts` delivers: the one it peeks at, if its priority is
above the priority of the CPU. -/
def accepted (sim : Simulator ω ι) : Option (Byte × Byte) :=
  (interruptControllerPeek sim.machine.interCont).join.filter fun request =>
    psrPriority (sim.cpu.registers .psr) < request.2.setWidth 16

/-- `simulator_check_interrupts` does nothing, or delivers the request it accepts. -/
theorem simulatorCheckInterrupts_cases (h : simulatorCheckInterrupts env sim = some sim') :
    (accepted sim = none ∧ sim' = sim) ∨ ∃ vec priority cpu m interCont,
      accepted sim = some (vec, priority) ∧
      interruptControllerPeek sim.machine.interCont = some (some (vec, priority)) ∧
      (deliver sim.cpu vec (handlerPsr (priority.setWidth 16))).run (initBusAccessor env).handler
        sim.machine = some (cpu, m) ∧
      interruptControllerTake m.interCont = some interCont ∧
      sim' = { sim with cpu, machine := { m with interCont } } := by
  rw [simulatorCheckInterrupts] at h
  obtain ⟨request, hpeek, h⟩ := Option.bind_eq_some_iff.mp h
  match request with
  | none =>
    obtain rfl := Option.some.inj h
    exact Or.inl ⟨by simp [accepted, hpeek], rfl⟩
  | some (vec, priority) =>
    obtain ⟨⟨⟨taken, cpu⟩, machine⟩, hrun, h⟩ := Option.bind_eq_some_iff.mp h
    rcases run_cpuSignalInterrupt hrun with ⟨hle, heq⟩ | ⟨hlt, cpu₁, m₁, hdeliver, heq⟩
    · obtain ⟨hcpu, rfl⟩ := Prod.mk.inj heq
      obtain ⟨rfl, rfl⟩ := Prod.mk.inj hcpu
      obtain rfl := Option.some.inj h
      exact Or.inl ⟨by simp [accepted, hpeek, hle], rfl⟩
    · obtain ⟨hcpu, rfl⟩ := Prod.mk.inj heq
      obtain ⟨rfl, rfl⟩ := Prod.mk.inj hcpu
      obtain ⟨interCont, htake, h⟩ := Option.bind_eq_some_iff.mp h
      obtain rfl := Option.some.inj h
      have haccepted : accepted sim = some (vec, priority) := by
        simp [accepted, hpeek, hlt]
      exact Or.inr ⟨vec, priority, cpu, machine, interCont, haccepted, hpeek, hdeliver, htake, rfl⟩

/-- Only the terminal is looked at, if anything is. -/
def Between.Idle (env : Env ω ι) (sim : Simulator ω ι) : Between → Prop
  | .startIo | .endIo | .updateDevicesOnTick => True
  | .checkInput => (env.deviceIo.getChar sim.machine.deviceIo).1 = 0
  | .checkInterrupts => accepted sim = none
  | _ => False

/-- The character that the devices take, and the state of the terminal then. -/
def Between.character (env : Env ω ι) (sim : Simulator ω ι) : Between → Option (Word × ι)
  | .updateDevicesInput input => some (input, sim.machine.deviceIo)
  | .checkInput =>
    let result := env.deviceIo.getChar sim.machine.deviceIo
    if result.1 ≠ 0 then some (result.2.1.signExtend 16, result.2.2) else none
  | _ => none

/-- What can happen between two ticks. -/
inductive BetweenStep (env : Env ω ι) (sim : Simulator ω ι) : Between → Simulator ω ι → Prop
  | idle {b : Between} (deviceIo : ι) (hb : b.Idle env sim) :
    BetweenStep env sim b { sim with machine := { sim.machine with deviceIo } }
  | register {b : Between} {reg : Lc3Reg} {value : Word}
      (hb : b = .writeRegister reg value ∨ (reg = .pc ∧ b = .setStart value)) :
    BetweenStep env sim b (simulatorWriteRegister sim reg value)
  | refused {device : DevicePtr} {status : ℤ} {bus : Bus}
      (hattach : busAttach env.libc (env.device device) sim.machine.bus device =
        some (status, bus)) (hfail : status < 0) :
    BetweenStep env sim (.attachDevice device) { sim with machine := { sim.machine with bus } }
  | attached {device : DevicePtr} {status : ℤ} {bus : Bus} {machine : Machine ω ι}
      (hattach : busAttach env.libc (env.device device) sim.machine.bus device =
        some (status, bus)) (hsuccess : ¬ status < 0)
      (hstart : callStart env { sim.machine with bus } device = some machine) :
    BetweenStep env sim (.attachDevice device)
      (simulatorCheckDeviceSubscriptions env { sim with machine } device)
  | wrote {address value : Word} {machine : Machine ω ι}
      (hwrite : busWrite env sim.machine address value = some machine) :
    BetweenStep env sim (.writeAddress address value) { sim with machine }
  | input {b : Between} {character : Word} {deviceIo : ι} {machine : Machine ω ι}
      (hb : b.character env sim = some (character, deviceIo))
      (hinput : (sim.onInputDevices.getD []).foldlM (callOnInput env character)
        { sim.machine with deviceIo } = some machine) :
    BetweenStep env sim b { sim with machine }
  | delivered {vec priority : Byte} {cpu : Cpu} {m : Machine ω ι} {interCont : InterruptController}
      (haccepted : accepted sim = some (vec, priority))
      (hpeek : interruptControllerPeek sim.machine.interCont = some (some (vec, priority)))
      (hdeliver : (deliver sim.cpu vec (handlerPsr (priority.setWidth 16))).run
        (initBusAccessor env).handler sim.machine = some (cpu, m))
      (htake : interruptControllerTake m.interCont = some interCont) :
    BetweenStep env sim .checkInterrupts { sim with cpu, machine := { m with interCont } }

/-- **Between two ticks** one of these things happens. -/
theorem between_step {b : Between} (h : between env b sim = some sim') :
    BetweenStep env sim b sim' := by
  cases b with
  | attachDevice device =>
    obtain ⟨⟨status, sim₁⟩, hrun, rfl⟩ := Option.map_eq_some_iff.mp h
    obtain ⟨s, bus, hattach, ⟨hfail, -, rfl⟩ | ⟨hsuccess, -, machine, hstart, rfl⟩⟩ :=
      simulatorAttachDevice_cases hrun
    · exact BetweenStep.refused hattach hfail
    · exact BetweenStep.attached hattach hsuccess hstart
  | writeAddress address value =>
    obtain ⟨machine, hwrite, hsim⟩ := Option.bind_eq_some_iff.mp h
    obtain rfl := Option.some.inj hsim
    exact BetweenStep.wrote hwrite
  | writeRegister reg value =>
    obtain rfl := Option.some.inj h
    exact BetweenStep.register (Or.inl rfl)
  | setStart address =>
    obtain rfl := Option.some.inj h
    exact BetweenStep.register (Or.inr ⟨rfl, rfl⟩)
  | updateDevicesInput input =>
    obtain ⟨machine, hinput, rfl⟩ := simulatorUpdateDevicesInput_eq_some h
    exact BetweenStep.input rfl hinput
  | startIo =>
    obtain rfl := Option.some.inj h
    exact BetweenStep.idle _ trivial
  | endIo =>
    obtain rfl := Option.some.inj h
    exact BetweenStep.idle _ trivial
  | checkInput =>
    rw [between, simulatorCheckInput] at h
    by_cases hstatus : (env.deviceIo.getChar sim.machine.deviceIo).1 ≠ 0
    · rw [if_pos hstatus] at h
      obtain ⟨machine, hinput, rfl⟩ := simulatorUpdateDevicesInput_eq_some h
      exact BetweenStep.input (if_pos hstatus) hinput
    · rw [if_neg hstatus] at h
      obtain rfl := Option.some.inj h
      exact BetweenStep.idle _ (not_not.mp hstatus)
  | updateDevicesOnTick =>
    obtain ⟨rfl, -⟩ := simulatorUpdateDevicesOnTick_eq_some h
    exact BetweenStep.idle _ trivial
  | checkInterrupts =>
    rcases simulatorCheckInterrupts_cases h with
      ⟨hnone, rfl⟩ | ⟨vec, priority, cpu, m, interCont, haccepted, hpeek, hdeliver, htake, rfl⟩
    · exact BetweenStep.idle _ hnone
    · exact BetweenStep.delivered haccepted hpeek hdeliver htake

end Steps

/-! ### The address map -/

section Map

variable {ω ι : Type} {env : Env ω ι} {sim sim' : Simulator ω ι}

theorem callOnInputs_sameMap {m m' : Machine ω ι} {input : Word} {devices : List DevicePtr}
    (h : devices.foldlM (callOnInput env input) m = some m') : SameMap m m' := by
  refine foldlM_invariant (I := SameMap m) (fun d m₁ m₂ hsame hcall => ?_) (SameMap.refl _) h
  obtain ⟨onInput, -, hcall⟩ := Option.bind_eq_some_iff.mp hcall
  obtain ⟨result, hcallback, hcall⟩ := Option.bind_eq_some_iff.mp hcall
  obtain rfl := Option.some.inj hcall
  exact hsame.trans (runCallback_sameMap hcallback)

/-- **Only attachments change the address map.** -/
theorem between_sameMap {b : Between} (hattach : ∀ d, b ≠ .attachDevice d)
    (h : between env b sim = some sim') : SameMap sim.machine sim'.machine := by
  cases between_step h with
  | idle deviceIo hb => exact sameMap_of_bus rfl rfl
  | register hb => exact SameMap.refl _
  | refused => exact absurd rfl (hattach _)
  | attached => exact absurd rfl (hattach _)
  | wrote hwrite => exact busWrite_sameMap hwrite
  | input hb hinput =>
    have hsame := callOnInputs_sameMap hinput
    exact ⟨hsame.attachments, hsame.flag, hsame.started⟩
  | delivered _ _ hdeliver _ => exact (run_sameMap hdeliver).trans (sameMap_of_bus rfl rfl)

theorem tickEvent_sameMap {e : TickEvent} {out : Bool}
    (hattach : ∀ d, e ≠ .between (.attachDevice d))
    (h : tickEvent env e sim = some (out, sim')) : SameMap sim.machine sim'.machine := by
  cases e with
  | tick =>
    obtain ⟨cpu, machine, hrun, rfl⟩ := tick_eq_some h
    exact run_sameMap hrun
  | between b =>
    obtain ⟨-, hb⟩ := tickEvent_between h
    exact between_sameMap (fun d hd => hattach d (congrArg TickEvent.between hd)) hb

/-- Some interval that the device asks for contains the address. -/
def Device.Claims {ω : Type} (vtable : Device ω) (address : Word) : Prop :=
  ∃ interval, vtable.Declares interval ∧ interval.low ≤ address ∧ address ≤ interval.high

/-- The device that is attached, if one is, does not ask for the address. -/
def Between.Spares (env : Env ω ι) (address : Word) : Between → Prop
  | .attachDevice device => ¬ (env.device device).Claims address
  | _ => True

/-- An attachment flags no address that its device does not ask for. -/
theorem busAttach_flag {vtable : Device ω} {d : DevicePtr} {bus bus' : Bus} {address : Word}
    {status : ℤ} (hclaims : ¬ vtable.Claims address)
    (hflag : (bus.memory address).attachmentFlag = false)
    (h : busAttach env.libc vtable bus d = some (status, bus')) :
    (bus'.memory address).attachmentFlag = false := by
  refine busAttach_induction (I := fun bus => (bus.memory address).attachmentFlag = false)
    (fun bus interval hdeclares hbus => ?_) hflag h
  rcases busAddAttachment_cases env.libc bus d interval with
    ⟨-, heq⟩ | ⟨-, bus', heq, hext⟩ <;> rw [heq]
  · exact hbus
  · refine Bool.eq_false_iff.mpr fun htrue => ?_
    rcases (hext.flag_iff address).mp htrue with hold | hcovers
    · exact absurd (hold.symm.trans hbus) (by decide)
    · exact hclaims ⟨interval, hdeclares, hcovers.1, hcovers.2⟩

/-- An address that no device asks for stays ordinary memory. -/
theorem between_flag {b : Between} {address : Word} (hspares : b.Spares env address)
    (hflag : (sim.machine.bus.memory address).attachmentFlag = false)
    (h : between env b sim = some sim') :
    (sim'.machine.bus.memory address).attachmentFlag = false := by
  by_cases hattach : ∃ d, b = .attachDevice d
  · obtain ⟨d, rfl⟩ := hattach
    cases between_step h with
    | refused hattach _ => exact busAttach_flag hspares hflag hattach
    | attached hattach _ hstart =>
      obtain ⟨hbus, -⟩ := callStart_eq_some hstart
      rw [simulatorCheckDeviceSubscriptions_machine, hbus]
      exact busAttach_flag hspares hflag hattach
    | register hb => simp at hb
    | input hb => cases hb
    | idle _ hb => exact hb.elim
  · exact ((between_sameMap (fun d hd => hattach ⟨d, hd⟩) h).flag address).trans hflag

end Map

/-! ### The registers -/

section Registers

variable {ω ι : Type} {env : Env ω ι} {sim sim' : Simulator ω ι}

/-- The interrupt or exception that an event delivers: its vector and its priority. -/
def delivery (sim : Simulator ω ι) : SimEvent → Option (Byte × Word)
  | .checkExceptions =>
    (waiting sim.cpu).map fun vec => (vec, psrPriority (sim.cpu.registers .psr))
  | .between .checkInterrupts =>
    (accepted sim).map fun request => (request.1, request.2.setWidth 16)
  | _ => none

/-- RTI is executed in supervisor mode, where it returns from a handler. -/
def ExecutesRti (env : Env ω ι) (e : SimEvent) (sim : Simulator ω ι) : Prop :=
  e = .execute ∧ supervisorBit (sim.cpu.registers .psr) = false ∧
    ∃ w, fetchedWord env sim.cpu sim.machine = some w ∧ opcode w = 8

/-- What an event does to the registers. -/
inductive CpuChange (env : Env ω ι) (e : SimEvent) (sim sim' : Simulator ω ι) : Prop
  | delivered (vec : Byte) (priority : Word) (m : Machine ω ι)
      (hdelivery : delivery sim e = some (vec, priority))
      (hentry : Entry env sim.cpu.registers sim.machine vec (handlerPsr priority)
        sim'.cpu.registers m) (hbus : sim'.machine.bus = m.bus)
  | executed (w : Word) (he : e = .execute) (hfetch : fetchedWord env sim.cpu sim.machine = some w)
      (h : Executed w (fetched sim.cpu.registers) sim'.cpu.registers)
  | written (reg : Lc3Reg) (value : Word) (he : e = .between (.writeRegister reg value) ∨
      (reg = .pc ∧ e = .between (.setStart value)))
      (h : sim'.cpu.registers = Function.update sim.cpu.registers reg value)
  | same (hdelivery : delivery sim e = none)
      (hfetch : e = .execute → fetchedWord env sim.cpu sim.machine = none)
      (h : sim'.cpu = sim.cpu)

/-- If something is delivered, the registers and the bus are those of its entry. -/
theorem CpuChange.entry {e : SimEvent} {vec : Byte} {priority : Word}
    (h : CpuChange env e sim sim') (hdelivery : delivery sim e = some (vec, priority)) :
    ∃ m, Entry env sim.cpu.registers sim.machine vec (handlerPsr priority) sim'.cpu.registers m ∧
      sim'.machine.bus = m.bus := by
  cases h with
  | delivered vec' priority' m hdelivery' hentry hbus =>
    obtain ⟨rfl, rfl⟩ := Prod.mk.inj (Option.some.inj (hdelivery.symm.trans hdelivery'))
    exact ⟨m, hentry, hbus⟩
  | executed w he =>
    rw [he] at hdelivery
    cases hdelivery
  | written reg value he =>
    rcases he with rfl | ⟨-, rfl⟩ <;> cases hdelivery
  | same hnone => exact absurd (hnone.symm.trans hdelivery) (by simp)

/-- **One event.** It delivers what `delivery` says, or executes an instruction, or writes a
register, or leaves the CPU alone. -/
theorem simEvent_cpuChange {e : SimEvent} {out : Unit}
    (h : simEvent env e sim = some (out, sim')) : CpuChange env e sim sim' := by
  cases e with
  | execute =>
    obtain ⟨running, cpu, m, hrun, rfl⟩ := simEvent_execute h
    rcases run_cpuExecute_cases hrun with ⟨hnone, hcpu⟩ | ⟨w, hfetch, -, hexec⟩
    · exact CpuChange.same rfl (fun _ => hnone) hcpu
    · exact CpuChange.executed w rfl hfetch hexec
  | checkExceptions =>
    obtain ⟨cpu, m, hrun, rfl⟩ := simEvent_checkExceptions h
    rcases cpuCheckExceptions_waiting sim.cpu with
      ⟨hnone, heq⟩ | ⟨vec, cpu₁, hwaiting, hregs, heq⟩
    · rw [heq] at hrun
      obtain ⟨rfl, rfl⟩ := Prod.mk.inj (Option.some.inj hrun)
      exact CpuChange.same (by rw [delivery, hnone]; rfl) (fun h => (by cases h)) rfl
    · rw [heq] at hrun
      have hentry := (run_deliver_entry hrun).2
      rw [hregs] at hentry
      exact CpuChange.delivered vec _ m (by rw [delivery, hwaiting]; rfl) hentry rfl
  | between b =>
    have hb := simEvent_between h
    have hquiet : b ≠ .checkInterrupts → delivery sim (.between b) = none := by
      intro hne
      cases b <;> first | rfl | exact absurd rfl hne
    cases between_step hb with
    | idle deviceIo hidle =>
      refine CpuChange.same ?_ (fun h => (by cases h)) rfl
      by_cases hcheck : b = .checkInterrupts
      · subst hcheck
        rw [delivery, show accepted sim = none from hidle]
        rfl
      · exact hquiet hcheck
    | register hreg =>
      refine CpuChange.written _ _ ?_ rfl
      exact hreg.imp (congrArg SimEvent.between) (And.imp_right (congrArg SimEvent.between))
    | refused => exact CpuChange.same (hquiet (by simp)) (fun h => (by cases h)) rfl
    | attached =>
      exact CpuChange.same (hquiet (by simp)) (fun h => (by cases h))
        simulatorCheckDeviceSubscriptions_cpu
    | wrote => exact CpuChange.same (hquiet (by simp)) (fun h => (by cases h)) rfl
    | input hcharacter =>
      refine CpuChange.same (hquiet ?_) (fun h => (by cases h)) rfl
      rintro rfl
      cases hcharacter
    | delivered haccepted _ hdeliver _ =>
      exact CpuChange.delivered _ _ _ (by rw [delivery, haccepted]; rfl)
        (run_deliver_entry hdeliver).2 rfl

/-- The new simulator: no exception is waiting, all registers are 0, and nothing is attached. -/
theorem simulatorNew_eq_some {devices : ω} {deviceIo : ι}
    (h : simulatorNew env devices deviceIo = some sim) :
    sim.cpu = ⟨⟨false, privModeViolationExceptionVector⟩, ⟨false, illegalOpcodeExceptionVector⟩,
      fun _ => 0⟩ ∧
      (∀ address, (sim.machine.bus.memory address).attachmentFlag = false) ∧
      sim.machine.interCont = interruptControllerNew := by
  obtain rfl := Option.some.inj h
  exact ⟨rfl, fun address => Bus.setValue_attachmentFlag busNew mcrAddr 0x8000 address, rfl⟩

/-- The user interface writes a register. -/
def SimEvent.WritesRegister : SimEvent → Prop
  | .between (.writeRegister _ _) => True
  | _ => False

/-- No device that asks for the address is attached. -/
def SimEvent.Spares (env : Env ω ι) (address : Word) : SimEvent → Prop
  | .between b => b.Spares env address
  | _ => True

theorem simEvent_flag {e : SimEvent} {address : Word} {out : Unit}
    (hspares : e.Spares env address)
    (hflag : (sim.machine.bus.memory address).attachmentFlag = false)
    (h : simEvent env e sim = some (out, sim')) :
    (sim'.machine.bus.memory address).attachmentFlag = false := by
  cases e with
  | execute =>
    obtain ⟨running, cpu, m, hrun, rfl⟩ := simEvent_execute h
    exact ((run_sameMap hrun).flag address).trans hflag
  | checkExceptions =>
    obtain ⟨cpu, m, hrun, rfl⟩ := simEvent_checkExceptions h
    exact ((run_sameMap hrun).flag address).trans hflag
  | between b => exact between_flag hspares hflag (simEvent_between h)

end Registers

end Lc3Simulator
