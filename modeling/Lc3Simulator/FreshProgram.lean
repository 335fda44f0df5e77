import Lc3Simulator.ProgramLoad

/-!
# Running a program that was just loaded

Loading sets the PC and nothing that says whether the machine runs: the clock bit is turned on when
the CPU is made, and a program that halts turns it off. So the next run command begins with the
first word of the program that was loaded exactly when the machine has not been halted before.

## Main definitions

* `RunExecutes` — `simulator_run_until_end` executes the word at an address first
* `RunExecutesNothing` — it executes nothing
* `ClockDelivers` — a look at the clock register finds the clock on

## Main results

* `tick_of_fetches` — a tick executes the word that it fetches
* `freshProgram_runs_iff` — a program that was just loaded runs if and only if the clock is on
* `freshProgram_after_halt` — a machine that has been halted runs no other program
-/

namespace Lc3Simulator

open Interaction Transition

variable {ω ι : Type} {env : Env ω ι} {sim sim' : Simulator ω ι} {cpu : Cpu} {m : Machine ω ι}
  {origin w : Word} {words : List Word}

/-! ### The first instruction -/

/-- The tick finds the clock on and fetches the word `w`, and leaves the machine `m₂` by that. -/
def Fetches (env : Env ω ι) (sim : Simulator ω ι) (w : Word) (m₂ : Machine ω ι) : Prop :=
  ∃ mcr m₁, busRead env sim.machine mcrAddr = some (mcr, m₁) ∧ clockEnabled mcr = true ∧
    busRead env m₁ (sim.cpu.registers .pc) = some (w, m₂)

/-- The word `w` is executed in the machine `m₂`, as the rest of the tick that has fetched it. -/
def executeWord (env : Env ω ι) (sim : Simulator ω ι) (w : Word) (m₂ : Machine ω ι) :
    Option (Bool × Simulator ω ι) := do
  let (cpu, machine) ←
    runOnBus env (cpuDispatch (sim.cpu.setReg .pc (sim.cpu.registers .pc + 1)) w) m₂
  let ((running, cpu), machine) ← runOnBus env (cpuTickEnd cpu) machine
  return (running, { sim with cpu, machine })

/-- What `simulator_run_until_end` does after its first tick, if `n` more rounds are enough. -/
def restOfRun (env : Env ω ι) (n : ℕ) (x : Bool × Simulator ω ι) : Option (ℤ × Simulator ω ι) := do
  let (running, sim) ← if x.1 then (loopBody env x.2).bind (runLoop env n) else some x
  guard !running
  let (status, sim) := endIo env sim
  return (if status < 0 then -1 else 0, sim)

/-- `simulator_run_until_end` executes the word at an address as its first instruction: it starts
the terminal, fetches a word from there and executes it, and goes on with the rest of the run. -/
def RunExecutes (env : Env ω ι) (sim : Simulator ω ι) (address : Word) : Prop :=
  ¬ (startIo env sim).1 < 0 ∧ sim.cpu.registers .pc = address ∧
    ∃ w m₂, Fetches env (startIo env sim).2 w m₂ ∧
      ∀ n, simulatorRunUntilEnd env (n + 1) sim =
        (executeWord env (startIo env sim).2 w m₂).bind (restOfRun env n)

/-- `simulator_run_until_end` executes nothing: it starts the terminal, finds the clock off and ends
the terminal, or a read of the first tick does not come back. -/
def RunExecutesNothing (env : Env ω ι) (sim : Simulator ω ι) : Prop :=
  (∃ mcr m₁, busRead env (startIo env sim).2.machine mcrAddr = some (mcr, m₁) ∧
      clockEnabled mcr = false ∧ ∀ n, simulatorRunUntilEnd env (n + 1) sim =
        restOfRun env n (false, { (startIo env sim).2 with machine := m₁ })) ∨
    ∀ n, simulatorRunUntilEnd env (n + 1) sim = none

/-- A look at the clock register finds the clock on, and the word at an address can be read. -/
def ClockDelivers (env : Env ω ι) (m : Machine ω ι) (address : Word) : Prop :=
  ∃ mcr m₁, busRead env m mcrAddr = some (mcr, m₁) ∧ clockEnabled mcr = true ∧
    ∃ w m₂, busRead env m₁ address = some (w, m₂)

/-- A run that starts is a tick and the rest. -/
theorem simulatorRunUntilEnd_succ (hstart : ¬ (startIo env sim).1 < 0) (n : ℕ) :
    simulatorRunUntilEnd env (n + 1) sim =
      (tick env (startIo env sim).2).bind (restOfRun env n) := by
  rw [simulatorRunUntilEnd]
  dsimp only
  rw [if_neg hstart, runLoop]
  cases htick : tick env (startIo env sim).2 with
  | none => rfl
  | some x =>
    cases hrunning : x.1 with
    | false => simp [restOfRun, hrunning]
    | true =>
      cases hbody : loopBody env x.2 <;> simp [restOfRun, hrunning, hbody]

/-- **A tick executes the word that it fetches.** -/
theorem tick_of_fetches {m₂ : Machine ω ι} (h : Fetches env sim w m₂) :
    tick env sim = executeWord env sim w m₂ := by
  obtain ⟨mcr, m₁, hpoll, hclock, hfetch⟩ := h
  have hpoll' : (initBusAccessor env).handler (.read mcrAddr) sim.machine = some (mcr, m₁) := hpoll
  have hfetch' : (initBusAccessor env).handler (.read (sim.cpu.registers .pc)) m₁ =
    some (w, m₂) := hfetch
  rw [tick, runOnBus, run_cpuTick hpoll' hclock hfetch', executeWord, Cpu.setReg_eq]
  exact Option.bind_assoc _ _ _

/-- A tick that finds the clock off does nothing else. -/
theorem tick_of_clock_off {mcr : Word} {m₁ : Machine ω ι}
    (hpoll : busRead env sim.machine mcrAddr = some (mcr, m₁)) (hclock : clockEnabled mcr = false) :
    tick env sim = some (false, { sim with machine := m₁ }) := by
  have hpoll' : (initBusAccessor env).handler (.read mcrAddr) sim.machine = some (mcr, m₁) := hpoll
  simp [tick, runOnBus, cpuTick, busAccessRead, Prog.send, hpoll', hclock]

/-- A tick whose reads do not come back does not come back. -/
theorem tick_of_no_read
    (h : busRead env sim.machine mcrAddr = none ∨ ∃ mcr m₁,
      busRead env sim.machine mcrAddr = some (mcr, m₁) ∧ clockEnabled mcr = true ∧
        busRead env m₁ (sim.cpu.registers .pc) = none) : tick env sim = none := by
  rcases h with hpoll | ⟨mcr, m₁, hpoll, hclock, hfetch⟩
  · have hpoll' : (initBusAccessor env).handler (.read mcrAddr) sim.machine = none := hpoll
    simp [tick, runOnBus, cpuTick, busAccessRead, Prog.send, hpoll']
  · have hpoll' : (initBusAccessor env).handler (.read mcrAddr) sim.machine = some (mcr, m₁) :=
      hpoll
    have hfetch' : (initBusAccessor env).handler (.read (sim.cpu.registers .pc)) m₁ = none := hfetch
    simp [tick, runOnBus, cpuTick, busAccessRead, Prog.send, hpoll', hclock, hfetch']

theorem runExecutes_iff {address : Word} (hstart : ¬ (startIo env sim).1 < 0)
    (hpc : sim.cpu.registers .pc = address) :
    RunExecutes env sim address ↔ ClockDelivers env (startIo env sim).2.machine address := by
  subst hpc
  constructor
  · rintro ⟨-, -, w, m₂, ⟨mcr, m₁, hpoll, hclock, hfetch⟩, -⟩
    exact ⟨mcr, m₁, hpoll, hclock, w, m₂, hfetch⟩
  · rintro ⟨mcr, m₁, hpoll, hclock, w, m₂, hfetch⟩
    have hfetches : Fetches env (startIo env sim).2 w m₂ := ⟨mcr, m₁, hpoll, hclock, hfetch⟩
    refine ⟨hstart, rfl, w, m₂, hfetches, fun n => ?_⟩
    rw [simulatorRunUntilEnd_succ hstart, tick_of_fetches hfetches]

/-- Without the clock, or without the word, nothing is executed. -/
theorem runExecutesNothing_of_not {address : Word} (hstart : ¬ (startIo env sim).1 < 0)
    (hpc : sim.cpu.registers .pc = address)
    (hnot : ¬ ClockDelivers env (startIo env sim).2.machine address) :
    RunExecutesNothing env sim := by
  subst hpc
  have hstuck (h : tick env (startIo env sim).2 = none) : RunExecutesNothing env sim :=
    Or.inr fun n => by rw [simulatorRunUntilEnd_succ hstart, h, Option.bind_none]
  cases hpoll : busRead env (startIo env sim).2.machine mcrAddr with
  | none => exact hstuck (tick_of_no_read (Or.inl hpoll))
  | some x =>
    obtain ⟨mcr, m₁⟩ := x
    cases hclock : clockEnabled mcr with
    | false =>
      refine Or.inl ⟨mcr, m₁, hpoll, hclock, fun n => ?_⟩
      rw [simulatorRunUntilEnd_succ hstart, tick_of_clock_off hpoll hclock, Option.bind_some]
    | true =>
      cases hfetch : busRead env m₁ ((startIo env sim).2.cpu.registers .pc) with
      | none => exact hstuck (tick_of_no_read (Or.inr ⟨mcr, m₁, hpoll, hclock, hfetch⟩))
      | some y => exact absurd ⟨mcr, m₁, hpoll, hclock, y.1, y.2, hfetch⟩ hnot

/-- With ordinary memory at both addresses, only the clock bit matters. -/
theorem clockDelivers_ordinary_iff {address : Word}
    (hmcr : (m.bus.memory mcrAddr).attachmentFlag = false)
    (haddress : (m.bus.memory address).attachmentFlag = false) :
    ClockDelivers env m address ↔ clockEnabled (mcrValue m) = true := by
  constructor
  · rintro ⟨mcr, m₁, hpoll, hclock, -⟩
    obtain ⟨rfl, -⟩ := Prod.mk.inj (Option.some.inj ((busRead_mcr hmcr).symm.trans hpoll))
    exact hclock
  · intro hclock
    exact ⟨_, m, busRead_mcr hmcr, hclock, _, m, busRead_ordinary haddress⟩

/-! ### After a load -/

/-- A load that succeeds has stored its words and set the PC. -/
theorem simulatorLoadProgram_eq_some {last status : ℤ}
    (hload : simulatorLoadProgram env sim (origin :: words) last = some (status, sim')) :
    status = last ∧ sim'.cpu = cpuWriteRegister sim.cpu .pc origin ∧
      ∀ a, sim'.machine.bus.memory a = storeWords sim.machine.bus.memory origin words a := by
  obtain ⟨machine, hwords, hload⟩ := Option.bind_eq_some_iff.mp hload
  obtain ⟨rfl, rfl⟩ := Prod.mk.inj (Option.some.inj hload)
  rw [loadWords_eq] at hwords
  obtain ⟨m, -, rfl⟩ := Option.map_eq_some_iff.mp hwords
  exact ⟨rfl, rfl, fun _ => rfl⟩

/-- A load into ordinary memory comes back. -/
theorem simulatorLoadProgram_ordinary (env : Env ω ι) (last : ℤ)
    (hordinary : ∀ i < words.length,
      (sim.machine.bus.memory (origin + BitVec.ofNat 16 i)).attachmentFlag = false) :
    ∃ sim', simulatorLoadProgram env sim (origin :: words) last = some (last, sim') := by
  have hwords : loadWords env sim.machine origin words = _ := loadWords_eq sim.machine origin words
  rw [writeRegisters_ordinary hordinary, Option.map_some] at hwords
  rw [simulatorLoadProgram, hwords]
  exact ⟨_, rfl⟩

theorem storeWords_attachmentFlag {memory : Word → Mem} (a : Word) :
    (storeWords memory origin words a).attachmentFlag = (memory a).attachmentFlag := by
  rw [storeWords]
  split <;> rfl

/-- A program that does not write the clock register leaves it. -/
theorem storeWords_spared {memory : Word → Mem} {a : Word}
    (hspares : ∀ i < words.length, origin + BitVec.ofNat 16 i ≠ a) :
    storeWords memory origin words a = memory a := by
  rw [storeWords, lastWord_eq_none hspares]
  split <;> rfl

theorem pc_of_load {last status : ℤ}
    (hload : simulatorLoadProgram env sim (origin :: words) last = some (status, sim')) :
    sim'.cpu.registers .pc = origin := by
  rw [(simulatorLoadProgram_eq_some hload).2.1]
  rfl

/-- A load that does not write the clock register leaves it as it was. -/
theorem mcr_of_load {last status : ℤ}
    (hload : simulatorLoadProgram env sim (origin :: words) last = some (status, sim'))
    (hspares : ∀ i < words.length, origin + BitVec.ofNat 16 i ≠ mcrAddr) :
    (sim'.machine.bus.memory mcrAddr).attachmentFlag =
        (sim.machine.bus.memory mcrAddr).attachmentFlag ∧
      mcrValue sim'.machine = mcrValue sim.machine := by
  have hmemory := (simulatorLoadProgram_eq_some hload).2.2 mcrAddr
  refine ⟨?_, ?_⟩
  · rw [hmemory, storeWords_attachmentFlag]
  · rw [mcrValue, hmemory, storeWords_spared hspares]
    rfl

/-- In ordinary memory the clock is as it was before the load. -/
theorem runExecutes_ordinary_iff
    (hload : simulatorLoadProgram env sim (origin :: words) 0 = some (0, sim'))
    (hspares : ∀ i < words.length, origin + BitVec.ofNat 16 i ≠ mcrAddr)
    (hstart : ¬ (startIo env sim').1 < 0)
    (hmcr : (sim.machine.bus.memory mcrAddr).attachmentFlag = false)
    (horigin : (sim.machine.bus.memory origin).attachmentFlag = false) :
    RunExecutes env sim' origin ↔ clockEnabled (mcrValue sim.machine) = true := by
  have hmemory := (simulatorLoadProgram_eq_some hload).2.2
  have hclock : mcrValue (startIo env sim').2.machine = mcrValue sim.machine :=
    (mcr_of_load hload hspares).2
  have hflag (a : Word) : ((startIo env sim').2.machine.bus.memory a).attachmentFlag =
      (sim.machine.bus.memory a).attachmentFlag := by
    show (sim'.machine.bus.memory a).attachmentFlag = _
    rw [hmemory, storeWords_attachmentFlag]
  rw [runExecutes_iff hstart (pc_of_load hload),
    clockDelivers_ordinary_iff ((hflag _).trans hmcr) ((hflag _).trans horigin), hclock]

/-- **A program that was just loaded runs if and only if the clock is on.** If loading returns zero
and has not written the clock register, the next run command that starts executes the word at the
origin first, if and only if a look at the clock register then finds the clock on; in ordinary
memory, if and only if it was on before the load. Otherwise the run executes nothing. -/
theorem freshProgram_runs_iff
    (hload : simulatorLoadProgram env sim (origin :: words) 0 = some (0, sim'))
    (hspares : ∀ i < words.length, origin + BitVec.ofNat 16 i ≠ mcrAddr)
    (hstart : ¬ (startIo env sim').1 < 0) :
    (RunExecutes env sim' origin ↔ ClockDelivers env (startIo env sim').2.machine origin) ∧
      (¬ ClockDelivers env (startIo env sim').2.machine origin → RunExecutesNothing env sim') ∧
      ((sim.machine.bus.memory mcrAddr).attachmentFlag = false →
        (sim.machine.bus.memory origin).attachmentFlag = false →
        (RunExecutes env sim' origin ↔ clockEnabled (mcrValue sim.machine) = true)) :=
  ⟨runExecutes_iff hstart (pc_of_load hload), runExecutesNothing_of_not hstart (pc_of_load hload),
    runExecutes_ordinary_iff hload hspares hstart⟩

theorem freshProgram_runs_blank :
    ∃ sim', simulatorLoadProgram bareEnv
        (simulatorWriteRegister { blankSim with machine := bareMachine fun _ => 0x8000 } .pc 0x200)
        [0x3000, 0x1021] 0 = some (0, sim') ∧ RunExecutes bareEnv sim' 0x3000 := by
  have hload : simulatorLoadProgram bareEnv
      (simulatorWriteRegister { blankSim with machine := bareMachine fun _ => 0x8000 } .pc 0x200)
      [0x3000, 0x1021] 0 = some (0, _) := rfl
  refine ⟨_, hload, ((freshProgram_runs_iff hload ?_ (Int.lt_irrefl 0)).2.2 rfl rfl).mpr rfl⟩
  decide

/-! ### After a halt -/

/-- A program that stores zero in the clock register. -/
def haltingWords : List Word := [0x3000, 0xB001, 0x0000, 0xFFFE]

/-- Load the program and run it. -/
def haltOnce : List Command := [.loadProgram haltingWords 0, .runUntilEnd 1]

/-- The simulator after the program has halted it. -/
def haltedOnce : Option (Simulator Unit Unit) := do
  let sim ← simulatorNew bareEnv () ()
  let (_, sim) ← run (runCommand bareEnv) haltOnce sim
  return sim

/-- **A machine that has been halted runs no other program.** The program that halted it has turned
the clock off, and loading another one does not turn it on: `simulator_run_until_end` returns at
once, with the PC still at the origin. -/
theorem freshProgram_after_halt :
    ∃ sim sim', Reachable bareEnv sim ∧
      simulatorLoadProgram bareEnv sim [0x3000, 0x1021] 0 = some (0, sim') ∧
      ¬ (startIo bareEnv sim').1 < 0 ∧ ¬ RunExecutes bareEnv sim' 0x3000 ∧
      ∀ n, simulatorRunUntilEnd bareEnv (n + 1) sim' = some (0, sim') := by
  obtain ⟨sim, hsim⟩ : ∃ sim, haltedOnce = some sim :=
    Option.isSome_iff_exists.mp (by decide +kernel)
  have hclock : haltedOnce.map (fun sim => clockEnabled (mcrValue sim.machine)) = some false := by
    decide +kernel
  have hflags : haltedOnce.map (fun sim => (sim.machine.bus.memory mcrAddr).attachmentFlag ||
      (sim.machine.bus.memory 0x3000).attachmentFlag) = some false := by decide +kernel
  rw [hsim, Option.map_some, Option.some.injEq] at hclock hflags
  obtain ⟨hmcr, horigin⟩ := Bool.or_eq_false_iff.mp hflags
  rw [haltedOnce] at hsim
  obtain ⟨sim₀, hnew, hrest⟩ := Option.bind_eq_some_iff.mp hsim
  obtain ⟨⟨outs, sim₁⟩, hrun, hlast⟩ := Option.bind_eq_some_iff.mp hrest
  obtain rfl := Option.some.inj hlast
  have hordinary : ∀ i < [(0x1021 : Word)].length,
      (sim₁.machine.bus.memory (0x3000 + BitVec.ofNat 16 i)).attachmentFlag = false := by
    intro i hi
    obtain rfl := Nat.lt_one_iff.mp hi
    exact horigin
  obtain ⟨sim', hload⟩ := simulatorLoadProgram_ordinary bareEnv 0 hordinary
  refine ⟨sim₁, sim', ⟨(), (), sim₀, haltOnce, outs, hnew, hrun⟩, hload, Int.lt_irrefl 0, ?_⟩
  have hspares : ∀ i < [(0x1021 : Word)].length, (0x3000 : Word) + BitVec.ofNat 16 i ≠ mcrAddr := by
    decide
  constructor
  · rw [runExecutes_ordinary_iff hload hspares (Int.lt_irrefl 0) hmcr horigin, hclock]
    exact Bool.false_ne_true
  · intro n
    obtain ⟨hflag, hvalue⟩ := mcr_of_load hload hspares
    have hoff : clockEnabled (mcrValue sim'.machine) = false := by rw [hvalue, hclock]
    have hstart : ¬ (startIo bareEnv sim').1 < 0 := Int.lt_irrefl 0
    have htick : tick bareEnv (startIo bareEnv sim').2 = some (false, (startIo bareEnv sim').2) :=
      tick_of_clock_off (busRead_mcr (hflag.trans hmcr)) hoff
    rw [simulatorRunUntilEnd_succ hstart, htick]
    rfl

end Lc3Simulator
