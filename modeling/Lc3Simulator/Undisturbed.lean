import Lc3Simulator.KeyboardInterrupts
import Lc3Simulator.Library.Progress
import Lc3Simulator.PluginComputer
import Lc3Simulator.Task

/-!
# The computer runs its tasks

Between two instructions of a program anything may be typed, and a `Task` knows nothing of it. So
what is proved about a task holds in a step of the user interface, where nothing is read between two
ticks, and in a run, where the terminal is read in every round.

## Main definitions

* `Transcript` — what a terminal has printed
* `Seems` — a computer that runs a task
* `listen` — what is typed between two ticks
* `Computer.round` — a tick and what comes before the next one
* `Runs` — a simulator that runs a task

## Main results

* `tick_of_instruction` — one tick of a computer
* `tick_seems`, `afterTick_seems` — the computer follows the task
* `rounds_of_eventually` — and gets wherever the task gets to
* `runLoop_of_eventually`, `stepLoop_of_eventually`, `runLoop_ends` — so does the simulator
-/

namespace Lc3Simulator

open Interaction Isa Progress Transition

/-! ### The computer follows the task -/

/-- The handlers of `cpu.c` do what the instruction set says. -/
theorem cpuDispatch_instruction {cpu : Cpu} {w : Word} {program : Registers → BusProg Registers}
    (h : instruction w = some program) : cpuDispatch cpu w = onRegisters cpu program := by
  rw [instruction] at h
  cases hdata : DataInstr.decode w with
  | some i =>
    rw [hdata] at h
    obtain rfl := Option.some.inj h
    exact cpuDispatch_dataInstr hdata
  | none =>
    rw [hdata] at h
    cases hcontrol : ControlInstr.decode w with
    | none =>
      rw [hcontrol] at h
      cases h
    | some i =>
      rw [hcontrol] at h
      cases i with
      | jsrr base => cases h
      | br | jmp | jsr | trap =>
        obtain rfl := Option.some.inj h
        exact cpuDispatch_controlInstr hcontrol fun base => by simp

/-- The characters that a terminal has printed. Only writing adds to them. -/
structure Transcript {ι : Type} (io : DeviceIo ι) where
  printed : ι → List Byte
  writeChar : ∀ output s, printed (io.writeChar output s) = printed s ++ [output]
  getChar : ∀ s, printed (io.getChar s).2.2 = printed s
  ioStart : ∀ s, printed (io.ioStart s).2 = printed s
  ioEnd : ∀ s, printed (io.ioEnd s).2 = printed s

/-- No interrupt is waiting, and no character raises one. -/
def Silenced {ι : Type} (c : Console ι) : Prop :=
  c.keyWaiting = false ∧ interruptEnableBitOn c.keyboard.kbsr = false

/-- The console that the task sees. -/
structure ConsoleSeems {ι : Type} {io : DeviceIo ι} (transcript : Transcript io) (t : Task)
    (c : Console ι) : Prop where
  memory : c.memory = t.memory
  display : c.display = t.display
  printed : transcript.printed c.terminal = t.printed
  silenced : Silenced c

/-- The computer runs the task. -/
structure Seems {ι : Type} {io : DeviceIo ι} (transcript : Transcript io) (t : Task)
    (c : Computer ι) : Prop where
  registers : c.cpu.registers = t.registers
  lines : c.cpu.LinesLow
  console : ConsoleSeems transcript t c.console

section Follow

variable {ι : Type} {io : DeviceIo ι} {transcript : Transcript io} {t t' : Task} {c : Computer ι}

/-- One access. -/
theorem responder_seems (q : BusRequest) (t : Task) (x : BusResponse q × Task) (c : Console ι)
    (h : ConsoleSeems transcript t c) (hq : taskHandler q t = some x) :
    (consoleResponder io q c).1 = x.1 ∧
      ConsoleSeems transcript x.2 (consoleResponder io q c).2 := by
  cases q with
  | read address =>
    rw [taskHandler] at hq
    split_ifs at hq with hordinary hdsr
    · obtain rfl := Option.some.inj hq
      rw [consoleResponder, Console.read_ordinary hordinary, h.memory]
      exact ⟨rfl, h⟩
    · obtain rfl := Option.some.inj hq
      subst hdsr
      exact ⟨congrArg DisplayData.dsr h.display, h⟩
  | write address value =>
    rw [taskHandler] at hq
    split_ifs at hq with hordinary hddr
    · obtain rfl := Option.some.inj hq
      rw [consoleResponder, Console.write_ordinary hordinary, h.memory]
      exact ⟨rfl, rfl, h.display, h.printed, h.silenced⟩
    · obtain rfl := Option.some.inj hq
      subst hddr
      refine ⟨rfl, h.memory, h.display, ?_, h.silenced⟩
      exact (transcript.writeChar _ _).trans (congrArg (· ++ [_]) h.printed)

/-- A tick with the clock on, as the console answers it. -/
theorem eval_cpuTick {cpu : Cpu} {console : Console ι}
    (hclock : clockEnabled (console.memory mcrAddr) = true) (hpc : Ordinary (cpu.registers .pc)) :
    (cpuTick cpu).eval (consoleResponder io) console =
      let r := (cpuDispatch (cpu.withRegisters (fetched cpu.registers))
        (console.memory (cpu.registers .pc))).eval (consoleResponder io) console
      (cpuTickEnd r.1).eval (consoleResponder io) r.2 := by
  have hmcr : console.read mcrAddr = (console.memory mcrAddr, console) :=
    Console.read_ordinary (by decide)
  simp [cpuTick, busAccessRead, Prog.send, consoleResponder, hmcr, hclock,
    Console.read_ordinary hpc, Cpu.setReg_eq, fetched]

/-- The end of a tick that raised nothing. -/
theorem eval_cpuTickEnd {cpu : Cpu} (hlines : cpu.LinesLow) (console : Console ι) :
    (cpuTickEnd cpu).eval (consoleResponder io) console =
      ((clockEnabled (console.memory mcrAddr), cpu), console) := by
  have hmcr : console.read mcrAddr = (console.memory mcrAddr, console) :=
    Console.read_ordinary (by decide)
  rw [cpuTickEnd, cpuCheckExceptions_of_linesLow hlines]
  cases hclock : clockEnabled (console.memory mcrAddr) <;>
    simp [busAccessRead, Prog.send, consoleResponder, hmcr, hclock]

/-- **One tick** does what the instruction set says about the word at the PC. -/
theorem tick_of_instruction {program : Registers → BusProg Registers} (hlines : c.cpu.LinesLow)
    (hclock : clockEnabled (c.console.memory mcrAddr) = true) (hpc : Ordinary (c.cpu.registers .pc))
    (hprogram : instruction (c.console.memory (c.cpu.registers .pc)) = some program)
    {registers : Registers} {console : Console ι}
    (heval : (program (fetched c.cpu.registers)).eval (consoleResponder io) c.console =
      (registers, console)) :
    c.tick io =
      (clockEnabled (console.memory mcrAddr), ⟨c.cpu.withRegisters registers, console⟩) := by
  have hlines' : ((c.cpu.withRegisters (fetched c.cpu.registers)).withRegisters
      registers).LinesLow := hlines
  rw [Computer.tick, eval_cpuTick hclock hpc, cpuDispatch_instruction hprogram]
  simp only [onRegisters, Prog.eval_bind, Prog.pure_eq_ret, Prog.eval_ret,
    Cpu.withRegisters_registers, heval, eval_cpuTickEnd hlines']
  rfl

/-- **One tick** of the computer is the instruction of the task. -/
theorem tick_seems {on : Bool} (h : Seems transcript t c) (htick : t.tick = some (on, t')) :
    (c.tick io).1 = on ∧ Seems transcript t' (c.tick io).2 := by
  obtain ⟨hclock, hpc, program, registers, t₁, hprogram, hrun, hresult⟩ := Task.tick_eq_some htick
  obtain ⟨rfl, rfl⟩ := Prod.mk.inj hresult
  rw [← h.registers] at hpc hprogram hrun
  rw [← h.console.memory] at hclock hprogram
  obtain ⟨hregisters, hafter⟩ := Prog.eval_of_run (g := consoleResponder io) responder_seems
    (program (fetched c.cpu.registers)) h.console hrun
  rw [tick_of_instruction h.lines hclock hpc hprogram (Prod.ext hregisters rfl), hafter.memory]
  exact ⟨rfl, rfl, h.lines, hafter.memory, hafter.display, hafter.printed, hafter.silenced⟩

/-- What a round does to the keyboard and the terminal. -/
def listen (io : DeviceIo ι) (x : KeyboardData × ι) : KeyboardData × ι :=
  let r := io.getChar x.2
  (if r.1 ≠ 0 then ⟨x.1.kbsr ||| readyBitSetOn, r.2.1.signExtend 16⟩ else x.1, r.2.2)

theorem listen_enable (x : KeyboardData × ι) :
    interruptEnableBitOn (listen io x).1.kbsr = interruptEnableBitOn x.1.kbsr := by
  rw [listen]
  dsimp only
  split_ifs
  · exact (kbsr_input _).2
  · rfl

variable (io) in
/-- Without an interrupt, the terminal is listened to, and nothing else happens. -/
theorem checkInput_of_silenced {console : Console ι} (h : Silenced console) :
    console.checkInput io = { console with
      keyboard := (listen io (console.keyboard, console.terminal)).1
      terminal := (listen io (console.keyboard, console.terminal)).2 } ∧
    Silenced (console.checkInput io) := by
  obtain ⟨hwaiting, henable⟩ := h
  have henable' : interruptEnableBitOn (console.keyboard.kbsr ||| readyBitSetOn) = false := by
    rw [← henable]
    exact (kbsr_input _).2
  have hinput : console.checkInput io = { console with
      keyboard := (listen io (console.keyboard, console.terminal)).1
      terminal := (listen io (console.keyboard, console.terminal)).2 } := by
    rw [Console.checkInput, listen]
    split_ifs
    · rw [Console.input]
      simp only [hwaiting, henable', Bool.or_false]
    · rfl
  rw [hinput]
  exact ⟨rfl, hwaiting, (listen_enable _).trans henable⟩

/-- What a run does between two ticks. -/
theorem afterTick_of_silenced (h : Silenced c.console) :
    c.afterTick io = { c with console := c.console.checkInput io } := by
  have hwaiting : (c.checkInput io).console.keyWaiting = false := (checkInput_of_silenced io h).2.1
  rw [Computer.afterTick, Computer.checkInterrupts, if_neg (Bool.eq_false_iff.mp hwaiting)]
  rfl

/-- The task does not notice. -/
theorem afterTick_seems (h : Seems transcript t c) : Seems transcript t (c.afterTick io) := by
  obtain ⟨hinput, hsilenced⟩ := checkInput_of_silenced io h.console.silenced
  rw [afterTick_of_silenced h.console.silenced]
  refine ⟨h.registers, h.lines, ?_, ?_, ?_, hsilenced⟩
  all_goals
    show _ = _
    rw [hinput]
  · exact h.console.memory
  · exact h.console.display
  · exact (transcript.getChar _).trans h.console.printed

end Follow

/-! ### Rounds -/

section Rounds

variable {ι : Type} {io : DeviceIo ι} {transcript : Transcript io} {t t' : Task} {c : Computer ι}
  {pause : Computer ι → Computer ι}

/-- A tick that leaves the computer on, and what comes before the next tick. -/
def Computer.round (io : DeviceIo ι) (pause : Computer ι → Computer ι) (c : Computer ι) :
    Option (Computer ι) :=
  if (c.tick io).1 then some (pause (c.tick io).2) else none

/-- The rounds of a run. -/
theorem runLoop_rounds {n : ℕ} {c' : Computer ι}
    (h : iterate (Computer.round io (Computer.afterTick io)) n c = some c') (k : ℕ) :
    c.runLoop io (n + k) = c'.runLoop io k := by
  induction n generalizing c with
  | zero =>
    obtain rfl := Option.some.inj h
    rw [Nat.zero_add]
  | succ n ih =>
    obtain ⟨c₁, hround, hrest⟩ := Option.bind_eq_some_iff.mp h
    rw [Computer.round] at hround
    split_ifs at hround with hon
    obtain rfl := Option.some.inj hround
    rw [Nat.succ_add, Computer.runLoop]
    simp only [hon, if_true, ih hrest]

/-- The rounds of a step. -/
theorem stepLoop_rounds {n : ℕ} {c' : Computer ι} {status : Option ℤ}
    (h : iterate (Computer.round io id) n c = some c') (k : ℕ) :
    c.stepLoop io (n + k) status = c'.stepLoop io k (if n = 0 then status else some 1) := by
  induction n generalizing c status with
  | zero =>
    obtain rfl := Option.some.inj h
    rw [Nat.zero_add, if_pos rfl]
  | succ n ih =>
    obtain ⟨c₁, hround, hrest⟩ := Option.bind_eq_some_iff.mp h
    rw [Computer.round] at hround
    split_ifs at hround with hon
    obtain rfl := Option.some.inj hround
    rw [Nat.succ_add, Computer.stepLoop]
    simp only [hon, if_true, if_neg (Nat.succ_ne_zero n)]
    refine (ih hrest).trans ?_
    split_ifs <;> rfl

/-- **A task in its computer.** Wherever the task gets to, the computer gets to. -/
theorem rounds_of_eventually {Q : Task → Prop} (h : Eventually Task.step Q t)
    (hpause : ∀ t c, Seems transcript t c → Seems transcript t (pause c))
    (hseems : Seems transcript t c) :
    ∃ n c' t', iterate (Computer.round io pause) n c = some c' ∧ Seems transcript t' c' ∧ Q t' := by
  have hround : ∀ t c t', Seems transcript t c → t.step = some t' →
      ∃ c', c.round io pause = some c' ∧ Seems transcript t' c' := by
    intro t c t' hseems hstep
    obtain ⟨hon, hseems'⟩ := tick_seems hseems (Task.step_eq_some_iff.mp hstep)
    exact ⟨pause (c.tick io).2, if_pos hon, hpause _ _ hseems'⟩
  obtain ⟨n, c', hiterate, t', hseems', hQ⟩ :=
    eventually_iff.mp (h.simulate hround hseems)
  exact ⟨n, c', t', hiterate, hseems', hQ⟩

end Rounds

/-! ### The simulator -/

section Runs

variable {ι : Type} (libc : SortSearch BusAttachment) {io : DeviceIo ι} {transcript : Transcript io}
  {t : Task} {sim : Simulator PluginData ι} {Q : Task → Prop}

/-- The simulator, with its two plugins, runs the task. -/
def Runs (transcript : Transcript io) (t : Task) (sim : Simulator PluginData ι) : Prop :=
  ∃ c, Shows sim c ∧ Seems transcript t c

theorem Runs.printed_eq (h : Runs transcript t sim) :
    transcript.printed sim.machine.deviceIo = t.printed := by
  obtain ⟨c, hshows, hseems⟩ := h
  rw [hshows.machine.terminal, hseems.console.printed]

/-- What the computer does in its rounds, the simulator does. -/
theorem runLoop_of_rounds {n : ℕ} {c c' : Computer ι} (hshows : Shows sim c)
    (hrounds : iterate (Computer.round io (Computer.afterTick io)) n c = some c') :
    ∃ sim', runLoop (pluginEnv libc io) n sim = some (true, sim') ∧ Shows sim' c' := by
  obtain ⟨sim', hloop, hshows'⟩ := runLoop_shows libc io n hshows
  have hrunning : c.runLoop io n = (true, c') := runLoop_rounds hrounds 0
  rw [hrunning] at hloop hshows'
  exact ⟨sim', hloop, hshows'⟩

/-- **In a run**, whatever is typed. -/
theorem runLoop_of_eventually (h : Eventually Task.step Q t) (hruns : Runs transcript t sim) :
    ∃ n sim' t', runLoop (pluginEnv libc io) n sim = some (true, sim') ∧
      Runs transcript t' sim' ∧ Q t' := by
  obtain ⟨c, hshows, hseems⟩ := hruns
  obtain ⟨n, c', t', hrounds, hseems', hQ⟩ :=
    rounds_of_eventually h (fun _ _ => afterTick_seems) hseems
  obtain ⟨sim', hloop, hshows'⟩ := runLoop_of_rounds libc hshows hrounds
  exact ⟨n, sim', t', hloop, ⟨c', hshows', hseems'⟩, hQ⟩

/-- **A run ends** if the task comes to an instruction that stops the clock. -/
theorem runLoop_ends
    (h : Eventually Task.step (fun t' => ∃ t'', t'.tick = some (false, t'') ∧ Q t'') t)
    (hruns : Runs transcript t sim) :
    ∃ n sim' t', runLoop (pluginEnv libc io) n sim = some (false, sim') ∧
      Runs transcript t' sim' ∧ Q t' := by
  obtain ⟨c, hshows, hseems⟩ := hruns
  obtain ⟨n, c', t', hrounds, hseems', t'', htick, hQ⟩ :=
    rounds_of_eventually h (fun _ _ => afterTick_seems) hseems
  obtain ⟨hoff, hseems''⟩ := tick_seems hseems' htick
  obtain ⟨sim', hloop, hshows'⟩ := runLoop_shows libc io (n + 1) hshows
  have hended : c.runLoop io (n + 1) = (false, (c'.tick io).2) := by
    rw [runLoop_rounds hrounds 1, Computer.runLoop]
    simp only [hoff, Bool.false_eq_true, if_false]
  rw [hended] at hloop hshows'
  exact ⟨n + 1, sim', t'', hloop, ⟨_, hshows', hseems''⟩, hQ⟩

/-- **In a step**, if there is anything to do. -/
theorem stepLoop_of_eventually (h : Eventually Task.step Q t) (hnow : ¬ Q t)
    (hruns : Runs transcript t sim) :
    ∃ n sim' t', stepLoop (pluginEnv libc io) n none sim = some (some 1, sim') ∧
      Runs transcript t' sim' ∧ Q t' := by
  obtain ⟨c, hshows, hseems⟩ := hruns
  cases h with
  | now hQ => exact absurd hQ hnow
  | later hstep hlater =>
    obtain ⟨hon, hseems₁⟩ := tick_seems hseems (Task.step_eq_some_iff.mp hstep)
    have hpause : ∀ t c, Seems transcript t c → Seems transcript t (id c) := fun _ _ h => h
    obtain ⟨n, c', t', hrounds, hseems', hQ⟩ := rounds_of_eventually hlater hpause hseems₁
    have hfirst : c.round io id = some (c.tick io).2 := if_pos hon
    have hall : iterate (Computer.round io id) (n + 1) c = some c' := by
      rw [iterate, hfirst]
      exact hrounds
    obtain ⟨sim', hloop, hshows'⟩ := stepLoop_shows libc io (n + 1) none hshows
    have hrunning : c.stepLoop io (n + 1) none = (some 1, c') := stepLoop_rounds hall 0
    rw [hrunning] at hloop hshows'
    exact ⟨n + 1, sim', t', hloop, ⟨c', hshows', hseems'⟩, hQ⟩

end Runs

end Lc3Simulator
