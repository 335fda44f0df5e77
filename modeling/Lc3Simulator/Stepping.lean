import Mathlib.Algebra.Ring.Nat
import Lc3Simulator.InterruptQueue
import Lc3Simulator.Plugins.Keyboard
import Lc3Simulator.Simulator

/-!
# Stepping against running

The two drivers of the simulator tick the same CPU. Between two ticks the run command reads the
terminal, calls the devices that asked for it and offers the CPU an interrupt; the step command
does none of this. So a program that uses the keyboard or an interrupt behaves differently under
the two commands, and a program that has nothing to do between its ticks does not.

The step command leaves the terminal alone, and the run command asks it for a character in every
round, so the states compared here are equal up to the state of the terminal. Nothing the machine
does depends on that state, since the simulator looks at nothing that printing returns.

## Main definitions

* `SameButIo` — equal up to the state of the terminal
* `Idle` — there is nothing to do between two ticks
* `IdleRun` — in every iteration of a run that is followed by another one, there is nothing to do
* `loopIterations` — the first iterations of a run command

## Main results

* `step_agrees_with_run` — over idle runs, stepping is running, at once and in pieces
* `step_misses_interrupt` — a key press that the run command delivers and the step command does not
-/

namespace Lc3Simulator

open Interaction Transition

variable {ω ι α : Type} {env : Env ω ι}

/-! ### The state of the terminal does not matter -/

/-- The same machine with the terminal in some state. -/
def SameButIo (m m' : Machine ω ι) : Prop := ∃ deviceIo, m' = { m with deviceIo }

theorem hostCall_agree {m m' : Machine ω ι} (h : SameButIo m m') (call : HostCall) :
    Option.Rel SameButIo (hostCall env m call) (hostCall env m' call) := by
  obtain ⟨io, rfl⟩ := h
  cases call with
  | writeOutput output => exact Option.Rel.some ⟨_, rfl⟩
  | alertInterrupt vec priority =>
    exact rel_bind_same _ fun interCont => Option.Rel.some ⟨io, rfl⟩

theorem runCallback_agree {m m' : Machine ω ι} (h : SameButIo m m') (device : DevicePtr)
    (callback : Callback ω α) :
    AgreeUpTo SameButIo (runCallback env device callback m)
      (runCallback env device callback m') := by
  obtain ⟨io, rfl⟩ := h
  refine rel_bind_same _ ?_
  rintro ⟨a, devices, calls⟩
  refine rel_bind_same _ fun _ => ?_
  refine rel_bind (R := SameButIo) ?_ fun m₁ m₂ h => Option.Rel.some ⟨rfl, h⟩
  exact rel_foldlM (fun call m m' hm => hostCall_agree hm call) ⟨io, rfl⟩

theorem busRead_agree {m m' : Machine ω ι} (h : SameButIo m m') (address : Word) :
    AgreeUpTo SameButIo (busRead env m address) (busRead env m' address) := by
  obtain ⟨io, rfl⟩ := h
  simp only [busRead]
  by_cases hflag : (m.bus.memory address).attachmentFlag = true
  · rw [if_pos hflag, if_pos hflag]
    exact rel_bind_same _ fun attachment => runCallback_agree ⟨io, rfl⟩ attachment.device _
  · rw [if_neg hflag, if_neg hflag]
    exact Option.Rel.some ⟨rfl, io, rfl⟩

theorem busWrite_agree {m m' : Machine ω ι} (h : SameButIo m m') (address value : Word) :
    Option.Rel SameButIo (busWrite env m address value) (busWrite env m' address value) := by
  obtain ⟨io, rfl⟩ := h
  simp only [busWrite]
  by_cases hflag : (m.bus.memory address).attachmentFlag = true
  · rw [if_pos hflag, if_pos hflag]
    refine rel_bind_same _ fun attachment => ?_
    refine agree_bind (runCallback_agree ⟨io, rfl⟩ attachment.device _) ?_
    exact fun _ m₁ m₂ h => Option.Rel.some h
  · rw [if_neg hflag, if_neg hflag]
    exact Option.Rel.some ⟨io, rfl⟩

/-- One access of a CPU. -/
theorem handler_agree (q : BusRequest) {m m' : Machine ω ι} (h : SameButIo m m') :
    AgreeUpTo SameButIo ((initBusAccessor env).handler q m)
      ((initBusAccessor env).handler q m') := by
  cases q with
  | read address => exact busRead_agree h address
  | write address value => exact rel_map (busWrite_agree h address value) fun _ _ h => ⟨rfl, h⟩

/-! ### Ticking -/

/-- The same simulator with the terminal in some state. -/
def SameSim (s t : Simulator ω ι) : Prop :=
  ∃ deviceIo, t = { s with machine := { s.machine with deviceIo } }

theorem SameSim.refl (s : Simulator ω ι) : SameSim s s := ⟨s.machine.deviceIo, rfl⟩

theorem SameSim.symm {s t : Simulator ω ι} (h : SameSim s t) : SameSim t s := by
  obtain ⟨io, rfl⟩ := h
  exact ⟨s.machine.deviceIo, rfl⟩

theorem SameSim.trans {s t u : Simulator ω ι} (h : SameSim s t) (h' : SameSim t u) :
    SameSim s u := by
  obtain ⟨io, rfl⟩ := h
  obtain ⟨io', rfl⟩ := h'
  exact ⟨io', rfl⟩

theorem tick_agree {s t : Simulator ω ι} (h : SameSim s t) :
    AgreeUpTo SameSim (tick env s) (tick env t) := by
  obtain ⟨io, rfl⟩ := h
  refine agree_bind (Prog.run_rel (R := SameButIo) (fun q m m' hm => handler_agree q hm)
    (cpuTick s.cpu) ⟨io, rfl⟩) ?_
  rintro ⟨running, cpu⟩ m₁ m₂ ⟨io', rfl⟩
  exact Option.Rel.some ⟨rfl, io', rfl⟩

/-- At most `n` ticks, up to the one that halts. -/
def tickLoop (env : Env ω ι) : ℕ → Simulator ω ι → Option (Bool × Simulator ω ι)
  | 0, sim => some (true, sim)
  | n + 1, sim => do
    let (running, sim) ← tick env sim
    if running then tickLoop env n sim else return (false, sim)

theorem tickLoop_agree (n : ℕ) {s t : Simulator ω ι} (h : SameSim s t) :
    AgreeUpTo SameSim (tickLoop env n s) (tickLoop env n t) := by
  induction n generalizing s t with
  | zero => exact Option.Rel.some ⟨rfl, h⟩
  | succ n ih =>
    refine agree_bind (tick_agree h) ?_
    intro running s' t' h'
    cases running with
    | true => exact ih h'
    | false => exact Option.Rel.some ⟨rfl, h'⟩

/-- Ticks that do not reach the halt can be continued. -/
theorem tickLoop_add (j k : ℕ) (s : Simulator ω ι) :
    tickLoop env (j + k) s =
      (tickLoop env j s).bind fun x => if x.1 then tickLoop env k x.2 else some x := by
  induction j generalizing s with
  | zero => rw [Nat.zero_add]; rfl
  | succ j ih =>
    rw [Nat.succ_add_eq_add_succ, Nat.add_succ]
    show (tick env s).bind _ = ((tick env s).bind _).bind _
    rw [Option.bind_assoc]
    refine congrArg _ (funext fun x => ?_)
    obtain ⟨running, s₁⟩ := x
    cases running with
    | true => exact ih s₁
    | false => rfl

/-- The loop of the step command, with the status that is left in its variable. -/
theorem stepLoop_eq (n : ℕ) (status : Option ℤ) (s : Simulator ω ι) :
    stepLoop env n status s = (tickLoop env n s).map fun x =>
      (if x.1 then if n = 0 then status else some 1 else some 0, x.2) := by
  induction n generalizing status s with
  | zero => rfl
  | succ n ih =>
    show (tick env s).bind _ = ((tick env s).bind _).map _
    rw [Option.map_bind]
    refine congrArg _ (funext fun x => ?_)
    obtain ⟨running, s₁⟩ := x
    cases running with
    | true => simp [ih]
    | false => rfl

/-! ### Nothing to do between two ticks -/

/-- No character is waiting, no device has subscribed to the ticks, and no interrupt is pending that
the CPU would take. -/
structure Idle (env : Env ω ι) (sim : Simulator ω ι) : Prop where
  input : (env.deviceIo.getChar sim.machine.deviceIo).1 = 0
  onTick : sim.onTickDevices.getD [] = []
  interrupts : ∃ pending, interruptControllerPeek sim.machine.interCont = some pending ∧
    ∀ vec priority, pending = some (vec, priority) →
      priority.setWidth 16 ≤ psrPriority (sim.cpu.registers .psr)

theorem simulatorCheckInput_of_idle {sim : Simulator ω ι} (h : Idle env sim) :
    ∃ sim', simulatorCheckInput env sim = some sim' ∧ SameSim sim sim' := by
  refine ⟨_, ?_, ⟨(env.deviceIo.getChar sim.machine.deviceIo).2.2, rfl⟩⟩
  simp only [simulatorCheckInput, h.input, ne_eq, not_true_eq_false, if_false]

theorem simulatorUpdateDevicesOnTick_of_idle {sim : Simulator ω ι}
    (h : sim.onTickDevices.getD [] = []) : simulatorUpdateDevicesOnTick sim = some sim := by
  rw [simulatorUpdateDevicesOnTick]
  match hlist : sim.onTickDevices, h with
  | none, _ => rfl
  | some [], _ => rfl

theorem simulatorCheckInterrupts_of_idle {sim : Simulator ω ι}
    (h : ∃ pending, interruptControllerPeek sim.machine.interCont = some pending ∧
      ∀ vec priority, pending = some (vec, priority) →
        priority.setWidth 16 ≤ psrPriority (sim.cpu.registers .psr)) :
    simulatorCheckInterrupts env sim = some sim := by
  obtain ⟨pending, hpeek, hpending⟩ := h
  rw [simulatorCheckInterrupts, hpeek]
  match pending with
  | none => rfl
  | some (vec, priority) =>
    have hsignal : cpuSignalInterrupt sim.cpu vec priority = Prog.ret (false, sim.cpu) :=
      if_pos (hpending vec priority rfl)
    simp [hsignal, runOnBus]

/-- **With nothing to do, the body of the loop only looks at the terminal.** -/
theorem loopBody_of_idle {sim : Simulator ω ι} (h : Idle env sim) :
    ∃ sim', loopBody env sim = some sim' ∧ SameSim sim sim' := by
  obtain ⟨sim', hinput, io, rfl⟩ := simulatorCheckInput_of_idle h
  refine ⟨_, ?_, io, rfl⟩
  rw [loopBody]
  rw [hinput, Option.bind_eq_bind, Option.bind_some,
    simulatorUpdateDevicesOnTick_of_idle (by exact h.onTick), Option.bind_some]
  exact simulatorCheckInterrupts_of_idle h.interrupts

/-- In each of the first `n` iterations whose tick does not halt, there is nothing to do. -/
def IdleRun (env : Env ω ι) : ℕ → Simulator ω ι → Prop
  | 0, _ => True
  | n + 1, sim => ∀ sim₁, tick env sim = some (true, sim₁) →
      Idle env sim₁ ∧ ∀ sim₂, loopBody env sim₁ = some sim₂ → IdleRun env n sim₂

/-- Over idle iterations, the loop of the run command ticks and does nothing else. -/
theorem runLoop_agree (n : ℕ) {s t : Simulator ω ι} (hidle : IdleRun env n s) (h : SameSim s t) :
    AgreeUpTo SameSim (runLoop env n s) (tickLoop env n t) := by
  induction n generalizing s t with
  | zero => exact Option.Rel.some ⟨rfl, h⟩
  | succ n ih =>
    refine agree_bind_of_eq (tick_agree h) fun running s₁ t₁ htick h₁ => ?_
    cases running with
    | true =>
      obtain ⟨hnothing, hrest⟩ := hidle s₁ htick
      obtain ⟨s₂, hbody, h₂⟩ := loopBody_of_idle hnothing
      show AgreeUpTo SameSim ((loopBody env s₁).bind _) _
      rw [hbody]
      exact ih (hrest s₂ hbody) (h₂.symm.trans h₁)
    | false => exact Option.Rel.some ⟨rfl, h₁⟩

/-! ### The two commands -/

/-- The state after the first `k` iterations of a run command. A terminal that does not start leaves
no iterations. -/
def loopIterations (env : Env ω ι) (k : ℕ) (sim : Simulator ω ι) : Option (Simulator ω ι) :=
  let (status, sim) := startIo env sim
  if status < 0 then some sim else (runLoop env k sim).map Prod.snd

theorem startIo_same (sim : Simulator ω ι) : SameSim sim (startIo env sim).2 :=
  ⟨(env.deviceIo.ioStart sim.machine.deviceIo).2, rfl⟩

theorem endIo_same (sim : Simulator ω ι) : SameSim sim (endIo env sim).2 :=
  ⟨(env.deviceIo.ioEnd sim.machine.deviceIo).2, rfl⟩

/-- The step command with a terminal that starts. -/
theorem simulatorStep_of_start {sim : Simulator ω ι} (h : ¬ (startIo env sim).1 < 0) (k : ℕ) :
    simulatorStep env k sim = (stepLoop env k none (startIo env sim).2).map fun x =>
      (if (endIo env x.2).1 < 0 then some (-1) else x.1, (endIo env x.2).2) := by
  rw [simulatorStep]
  show (if (startIo env sim).1 < 0 then _ else _) = _
  rw [if_neg h, Option.map_eq_bind]
  rfl

/-- One step command against the first iterations of a run command. -/
theorem simulatorStep_agree {sim : Simulator ω ι} {k : ℕ}
    (hidle : IdleRun env k (startIo env sim).2) :
    Option.Rel SameSim (loopIterations env k sim) ((simulatorStep env k sim).map Prod.snd) := by
  rw [loopIterations]
  show Option.Rel SameSim (if (startIo env sim).1 < 0 then _ else _) _
  by_cases h : (startIo env sim).1 < 0
  · have hstep : simulatorStep env k sim = some (some (-1), (startIo env sim).2) := if_pos h
    rw [if_pos h, hstep]
    exact Option.Rel.some (SameSim.refl _)
  · rw [if_neg h, simulatorStep_of_start h, stepLoop_eq, Option.map_map, Option.map_map]
    exact rel_map (runLoop_agree k hidle (SameSim.refl _)) fun _ y h => h.2.trans (endIo_same y.2)

/-- A step command that reports its last tick has ticked, on a terminal that started. -/
theorem simulatorStep_eq_some {sim sim' : Simulator ω ι} {k : ℕ} {status : Option ℤ}
    (h : simulatorStep env k sim = some (status, sim')) (hstatus : status ≠ some (-1)) :
    ¬ (startIo env sim).1 < 0 ∧ ∃ running s, tickLoop env k sim = some (running, s) ∧
      SameSim s sim' ∧ (running = false ↔ status = some 0) := by
  have hstart : ¬ (startIo env sim).1 < 0 := by
    intro hstart
    have hstep : simulatorStep env k sim = some (some (-1), (startIo env sim).2) := if_pos hstart
    rw [hstep] at h
    exact hstatus (Prod.mk.inj (Option.some.inj h)).1.symm
  refine ⟨hstart, ?_⟩
  rw [simulatorStep_of_start hstart, stepLoop_eq, Option.map_map] at h
  obtain ⟨⟨running, t⟩, hticks, h⟩ := Option.map_eq_some_iff.mp h
  obtain ⟨hout, rfl⟩ := Prod.mk.inj h
  have hagree : AgreeUpTo SameSim (tickLoop env k sim) (tickLoop env k (startIo env sim).2) :=
    tickLoop_agree k (startIo_same sim)
  rw [hticks] at hagree
  obtain ⟨s, hloop, hsame⟩ := agree_eq_some hagree
  refine ⟨running, s, hloop, hsame.trans (endIo_same t), ?_⟩
  by_cases hend : (endIo env t).1 < 0
  · simp only [if_pos hend] at hout
    exact absurd hout.symm hstatus
  · simp only [if_neg hend] at hout
    subst hout
    cases running <;> by_cases hk : k = 0 <;> simp [hk]

/-- Step commands up to the halt are ticks up to the halt. -/
theorem steps_eq {ks : List ℕ} {k : ℕ} {sim sim₁ sim₂ : Simulator ω ι} {outs : List (Option ℤ)}
    (hsteps : run (runCommand env) (ks.map fun j : ℕ => Command.step j) sim = some (outs, sim₁))
    (houts : ∀ out ∈ outs, out = none ∨ out = some 1)
    (hlast : simulatorStep env k sim₁ = some (some 0, sim₂)) :
    ¬ (startIo env sim).1 < 0 ∧
      ∃ s, tickLoop env (ks.sum + k) sim = some (false, s) ∧ SameSim s sim₂ := by
  induction ks generalizing sim outs with
  | nil =>
    obtain ⟨rfl, rfl⟩ := Prod.mk.inj (Option.some.inj hsteps)
    obtain ⟨hstart, running, s, hticks, hsame, hrunning⟩ :=
      simulatorStep_eq_some hlast (by decide)
    obtain rfl := hrunning.mpr rfl
    exact ⟨hstart, s, by rw [List.sum_nil, Nat.zero_add]; exact hticks, hsame⟩
  | cons j ks ih =>
    obtain ⟨out, sim', rest, hfirst, hrest, rfl⟩ := run_cons_eq_some hsteps
    have hout : out = none ∨ out = some 1 := houts out List.mem_cons_self
    obtain ⟨hstart, running, s, hticks, hsame, hrunning⟩ :=
      simulatorStep_eq_some hfirst (by rcases hout with rfl | rfl <;> decide)
    have hgoing : running = true := by
      rw [← Bool.not_eq_false, hrunning]
      rcases hout with rfl | rfl <;> decide
    obtain ⟨-, t, hmore, hsame'⟩ := ih hrest fun o ho => houts o (List.mem_cons_of_mem _ ho)
    have hagree : AgreeUpTo SameSim (tickLoop env (ks.sum + k) s)
        (tickLoop env (ks.sum + k) sim') := tickLoop_agree (ks.sum + k) hsame
    rw [hmore] at hagree
    obtain ⟨s', hloop, h'⟩ := agree_eq_some hagree
    refine ⟨hstart, s', ?_, h'.trans hsame'⟩
    rw [List.sum_cons, Nat.add_assoc, tickLoop_add, hticks, hgoing]
    exact hloop

/-- **Over idle runs, stepping is running.** A step command leaves what the first iterations of a
run command leave, and step commands up to the halt leave what one run command leaves. -/
theorem step_agrees_with_run (sim : Simulator ω ι) :
    (∀ k : ℕ, IdleRun env k (startIo env sim).2 →
      Option.Rel SameSim (loopIterations env k sim) ((simulatorStep env k sim).map Prod.snd)) ∧
    ∀ (ks : List ℕ) (k : ℕ) outs sim₁ sim₂, IdleRun env (ks.sum + k) (startIo env sim).2 →
      run (runCommand env) (ks.map fun j : ℕ => Command.step j) sim = some (outs, sim₁) →
      (∀ out ∈ outs, out = none ∨ out = some 1) →
      simulatorStep env k sim₁ = some (some 0, sim₂) →
      ∃ status sim₃, simulatorRunUntilEnd env (ks.sum + k) sim = some (status, sim₃) ∧
        SameSim sim₂ sim₃ := by
  refine ⟨fun k hidle => simulatorStep_agree hidle, ?_⟩
  intro ks k outs sim₁ sim₂ hidle hsteps houts hlast
  obtain ⟨hstart, s, hticks, hsame⟩ := steps_eq hsteps houts hlast
  have hagree : AgreeUpTo SameSim (runLoop env (ks.sum + k) (startIo env sim).2)
      (tickLoop env (ks.sum + k) sim) := runLoop_agree _ hidle (startIo_same sim).symm
  rw [hticks] at hagree
  obtain ⟨t, hloop, h'⟩ := agree_eq_some hagree
  refine ⟨if (endIo env t).1 < 0 then -1 else 0, (endIo env t).2, ?_,
    hsame.symm.trans (h'.symm.trans (endIo_same t))⟩
  have hrun : simulatorRunUntilEnd env (ks.sum + k) sim =
      (runLoop env (ks.sum + k) (startIo env sim).2).bind _ := if_neg hstart
  rw [hrun, hloop]
  rfl

/-- A program of two words that turns the clock off, on a machine without devices. -/
def haltingSim : Simulator Unit Unit where
  cpu := ⟨⟨false, 0⟩, ⟨false, 1⟩, fun r => if r = .pc then 0xFFF0 else 0⟩
  machine := bareMachine fun address =>
    if address = mcrAddr then 0x8000 else if address = 0xFFF1 then 0x300C else 0
  onInputDevices := none
  onTickDevices := none

theorem idleRun_haltingSim : IdleRun bareEnv 4 haltingSim := by
  intro sim₁ htick
  obtain rfl := (Prod.mk.inj (Option.some.inj htick)).2
  refine ⟨⟨rfl, rfl, none, by rfl, nofun⟩, fun sim₂ hbody => ?_⟩
  obtain rfl := Option.some.inj hbody
  intro sim₃ htick
  have hrunning := (Prod.mk.inj (Option.some.inj htick)).1
  exact absurd hrunning (by decide +kernel)

theorem step_agrees_with_run_halt :
    Option.Rel SameSim (loopIterations bareEnv 4 haltingSim)
      ((simulatorStep bareEnv 4 haltingSim).map Prod.snd) ∧
    ∃ outs sim₁ sim₂ status sim₃,
      run (runCommand bareEnv) [.step 1] haltingSim = some (outs, sim₁) ∧
        simulatorStep bareEnv 3 sim₁ = some (some 0, sim₂) ∧
        simulatorRunUntilEnd bareEnv 4 haltingSim = some (status, sim₃) ∧ SameSim sim₂ sim₃ := by
  refine ⟨(step_agrees_with_run haltingSim).1 4 idleRun_haltingSim, ?_⟩
  obtain ⟨status, sim₃, hrun, hsame⟩ := (step_agrees_with_run haltingSim).2 [1] 3 [some 1] _ _
    idleRun_haltingSim rfl (by simp) rfl
  exact ⟨_, _, _, status, sim₃, rfl, rfl, hrun, hsame⟩

/-! ### An interrupt that waits -/

/-- A simulator that has nothing but keyboards. -/
def keyboardEnv : Env KeyboardData Unit :=
  ⟨SortSearch.bisecting _, fun _ => keyboardDevice, silentIo⟩

/-- Attach a keyboard, let it raise interrupts, give the CPU a stack, and press a key. -/
def keyPress : List Command :=
  [.attachDevice 0, .writeAddress kbsrAddress 0x4000, .writeRegister .r6 0x3000,
    .updateDevicesInput 0x41]

/-- The simulator with the interrupt of the key pending. -/
def keyPressed : Option (Simulator KeyboardData Unit) := do
  let sim ← simulatorNew keyboardEnv keyboardInit ()
  let (_, sim) ← run (runCommand keyboardEnv) keyPress sim
  return sim

theorem reachable_of_keyPressed {sim : Simulator KeyboardData Unit} (h : keyPressed = some sim) :
    Reachable keyboardEnv sim := by
  rw [keyPressed] at h
  obtain ⟨sim₀, hnew, h⟩ := Option.bind_eq_some_iff.mp h
  obtain ⟨⟨outs, sim'⟩, hrun, h⟩ := Option.bind_eq_some_iff.mp h
  obtain rfl := Option.some.inj h
  exact ⟨keyboardInit, (), sim₀, keyPress, outs, hnew, hrun⟩

theorem cpu_of_agree {x y : Option (Simulator ω ι)} (h : Option.Rel SameSim x y) :
    x.map Simulator.cpu = y.map Simulator.cpu := by
  cases h with
  | none => rfl
  | some h =>
    obtain ⟨_, rfl⟩ := h
    rfl

/-- **The step command misses the interrupt of a key.** With the interrupt pending, one iteration of
the run command ends at the handler, and one step at the next instruction. -/
theorem step_misses_interrupt :
    ¬ ∀ sim, Reachable keyboardEnv sim → ∀ k : ℕ,
      Option.Rel SameSim (loopIterations keyboardEnv k sim)
        ((simulatorStep keyboardEnv k sim).map Prod.snd) := by
  intro h
  obtain ⟨sim, hsim⟩ : ∃ sim, keyPressed = some sim :=
    Option.isSome_iff_exists.mp (by decide +kernel)
  have hcpu := cpu_of_agree (h sim (reachable_of_keyPressed hsim) 1)
  have hrun : (keyPressed.bind fun sim => (loopIterations keyboardEnv 1 sim).map
      Simulator.cpu).map (·.registers .pc) = some 0 := by decide +kernel
  have hstep : (keyPressed.bind fun sim => ((simulatorStep keyboardEnv (1 : ℕ) sim).map
      Prod.snd).map Simulator.cpu).map (·.registers .pc) = some 1 := by decide +kernel
  rw [hsim, Option.bind_some] at hrun hstep
  rw [hcpu, hstep] at hrun
  exact absurd hrun (by decide)

end Lc3Simulator
