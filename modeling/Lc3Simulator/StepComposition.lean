import Lc3Simulator.Privilege
import Lc3Simulator.Stepping

/-!
# Stepping in pieces

A tick that reports the halt has seen the clock turned off, and while the clock register is
ordinary memory nothing but an instruction turns it on again. So a machine that has halted stays
as it is, and ticks may be counted in pieces whether or not the halt falls into one of them.

The step command keeps the report of its last tick in a variable. With an amount of zero there is
no last tick, and the variable is returned without a value.

## Main definitions

* `Stopped` — the clock is off
* `IoSucceeds` — the terminal starts and ends
* `tickReports` — what the ticks that are performed report
* `StatusDefined` — the status that a step command returns is the one it should be

## Main results

* `tick_stopped`, `tick_reports_stop` — a halted machine stays so
* `simulatorStep_compose` — stepping twice is stepping the sum
* `simulatorStep_law` — and the status is defined if and only if the amount is not zero
-/

namespace Lc3Simulator

open Interaction Transition

variable {ω ι : Type} {env : Env ω ι} {sim sim' : Simulator ω ι} {running : Bool}

/-! ### The halt -/

/-- The clock register is ordinary memory. -/
def ClockOrdinary (sim : Simulator ω ι) : Prop :=
  (sim.machine.bus.memory mcrAddr).attachmentFlag = false

/-- The clock is off. -/
def Stopped (sim : Simulator ω ι) : Prop := clockEnabled (mcrValue sim.machine) = false

theorem tick_clockOrdinary (hclock : ClockOrdinary sim) (h : tick env sim = some (running, sim')) :
    ClockOrdinary sim' := by
  obtain ⟨cpu, m, hrun, rfl⟩ := tick_eq_some h
  exact ((run_sameMap hrun).flag mcrAddr).trans hclock

/-- **A halted machine stays as it is.** -/
theorem tick_stopped (hclock : ClockOrdinary sim) (h : Stopped sim) :
    tick env sim = some (false, sim) := by
  rw [tick, runOnBus, run_cpuTick_of_stopped hclock h]
  rfl

/-- **A tick that reports the halt leaves the clock off.** -/
theorem tick_reports_stop (hclock : ClockOrdinary sim) (h : tick env sim = some (false, sim')) :
    Stopped sim' := by
  obtain ⟨cpu, m, hrun, rfl⟩ := tick_eq_some h
  cases hstopped : clockEnabled (mcrValue sim.machine) with
  | false =>
    rw [run_cpuTick_of_stopped hclock hstopped] at hrun
    obtain ⟨-, rfl⟩ := Prod.mk.inj (Option.some.inj hrun)
    exact hstopped
  | true =>
    obtain ⟨w, m₁, y, hfetch, hdispatch, hend⟩ := run_cpuTick_of_running hclock hstopped hrun
    have hflag : (y.2.bus.memory mcrAddr).attachmentFlag = false := by
      rw [(run_sameMap hdispatch).flag, (busRead_eq_some hfetch).1]
      exact hclock
    obtain ⟨mcr, m₂, hpoll, hcases⟩ := run_cpuTickEnd_eq_some hend
    obtain ⟨rfl, rfl⟩ := Prod.mk.inj (Option.some.inj ((busRead_mcr hflag).symm.trans hpoll))
    rcases hcases with ⟨hoff, -, -, rfl⟩ | ⟨-, hrunning, -⟩
    · exact hoff
    · cases hrunning

/-! ### Ticks in pieces -/

/-- Any number of ticks of a halted machine change nothing. -/
theorem tickLoop_stopped (hclock : ClockOrdinary sim) (h : Stopped sim) (n : ℕ) :
    (tickLoop env n sim).map Prod.snd = some sim := by
  cases n with
  | zero => rfl
  | succ n =>
    rw [tickLoop, tick_stopped hclock h]
    rfl

theorem tickLoop_clockOrdinary {n : ℕ} (hclock : ClockOrdinary sim)
    (h : tickLoop env n sim = some (running, sim')) :
    ClockOrdinary sim' ∧ (running = false → Stopped sim') := by
  induction n generalizing sim with
  | zero =>
    obtain ⟨rfl, rfl⟩ := Prod.mk.inj (Option.some.inj h)
    exact ⟨hclock, fun hrunning => by cases hrunning⟩
  | succ n ih =>
    obtain ⟨⟨running₁, sim₁⟩, htick, hrest⟩ := Option.bind_eq_some_iff.mp h
    have hclock₁ := tick_clockOrdinary hclock htick
    cases running₁ with
    | true => exact ih hclock₁ hrest
    | false =>
      obtain ⟨rfl, rfl⟩ := Prod.mk.inj (Option.some.inj hrest)
      exact ⟨hclock₁, fun _ => tick_reports_stop hclock htick⟩

/-- **Ticks add up**, whether or not the halt is among the first ones. -/
theorem tickLoop_add_state (hclock : ClockOrdinary sim) (j k : ℕ) :
    (tickLoop env (j + k) sim).map Prod.snd =
      (tickLoop env j sim).bind fun x => (tickLoop env k x.2).map Prod.snd := by
  rw [tickLoop_add, Option.map_bind]
  refine Option.bind_congr fun x hx => ?_
  obtain ⟨running, sim₁⟩ := x
  cases running with
  | true => rfl
  | false =>
    obtain ⟨hclock₁, hstopped⟩ := tickLoop_clockOrdinary hclock hx
    exact (tickLoop_stopped hclock₁ (hstopped rfl) k).symm

/-! ### The step command -/

/-- The terminal starts and ends. -/
structure IoSucceeds (env : Env ω ι) : Prop where
  start : ∀ io, ¬ (env.deviceIo.ioStart io).1 < 0
  ioEnd : ∀ io, ¬ (env.deviceIo.ioEnd io).1 < 0

/-- Starting and ending leave no trace in the terminal. -/
structure IoTraceless (env : Env ω ι) : Prop where
  start : ∀ io, (env.deviceIo.ioStart io).2 = io
  ioEnd : ∀ io, (env.deviceIo.ioEnd io).2 = io

/-- A step command between a start and an end of the terminal. -/
theorem simulatorStep_of_io (hio : IoSucceeds env) (k : ℕ) :
    simulatorStep env k sim = (tickLoop env k (startIo env sim).2).map fun x =>
      (if x.1 then if k = 0 then none else some 1 else some 0, (endIo env x.2).2) := by
  rw [simulatorStep_of_start (hio.start _), stepLoop_eq, Option.map_map]
  refine congrArg (Option.map · _) (funext fun x => ?_)
  exact congrArg (Prod.mk · _) (if_neg (hio.ioEnd _))

/-- Two step commands, one after the other. -/
def simulatorStepTwice (env : Env ω ι) (a b : ℤ) (sim : Simulator ω ι) :
    Option (Simulator ω ι) :=
  (simulatorStep env a sim).bind fun x => (simulatorStep env b x.2).map Prod.snd

/-- **Stepping twice is stepping the sum**, up to the state of the terminal, which is started and
ended once more; and if that leaves no trace, the state is the very same. -/
theorem simulatorStep_compose (hio : IoSucceeds env) (hclock : ClockOrdinary sim) (a b : ℕ) :
    Option.Rel SameSim (simulatorStepTwice env a b sim)
        ((simulatorStep env (a + b : ℕ) sim).map Prod.snd) ∧
      (IoTraceless env → simulatorStepTwice env a b sim =
        (simulatorStep env (a + b : ℕ) sim).map Prod.snd) := by
  have hclock₀ : ClockOrdinary (startIo env sim).2 := hclock
  have htwice : simulatorStepTwice env a b sim =
      (tickLoop env a (startIo env sim).2).bind fun x =>
        (tickLoop env b (startIo env (endIo env x.2).2).2).map fun y => (endIo env y.2).2 := by
    simp only [simulatorStepTwice, simulatorStep_of_io hio, Option.bind_map, Option.map_map]
    rfl
  have honce : (simulatorStep env (a + b : ℕ) sim).map Prod.snd =
      (tickLoop env a (startIo env sim).2).bind fun x =>
        (tickLoop env b x.2).map fun y => (endIo env y.2).2 := by
    have hadd : (tickLoop env (a + b) (startIo env sim).2).map Prod.snd =
        (tickLoop env a (startIo env sim).2).bind fun x => (tickLoop env b x.2).map Prod.snd :=
      tickLoop_add_state hclock₀ a b
    have hended := congrArg (Option.map fun s => (endIo env s).2) hadd
    rw [Option.map_map, Option.map_bind] at hended
    rw [simulatorStep_of_io hio, Option.map_map]
    refine hended.trans (Option.bind_congr fun x _ => ?_)
    rw [Function.comp_apply, Option.map_map]
    rfl
  rw [htwice, honce]
  constructor
  · refine rel_bind_same _ fun x => ?_
    have hsame : SameSim (startIo env (endIo env x.2).2).2 x.2 :=
      ((endIo_same x.2).trans (startIo_same _)).symm
    exact rel_map (tickLoop_agree b hsame) fun y z h =>
      ((endIo_same y.2).symm.trans h.2).trans (endIo_same z.2)
  · intro htraceless
    refine Option.bind_congr fun x _ => ?_
    have hsame : (startIo env (endIo env x.2).2).2 = x.2 := by
      simp only [startIo, endIo, htraceless.start, htraceless.ioEnd]
    rw [hsame]

/-! ### The status -/

/-- What the ticks of a loop report, up to the one that reports the halt. -/
def tickReports (env : Env ω ι) : ℕ → Simulator ω ι → Option (List Bool)
  | 0, _ => some []
  | n + 1, sim => do
    let (running, sim) ← tick env sim
    if running then (tickReports env n sim).map (true :: ·) else return [false]

/-- The loop has gone on if and only if none of its ticks reports the halt. -/
theorem tickLoop_reports {n : ℕ} (h : tickLoop env n sim = some (running, sim')) :
    ∃ reports, tickReports env n sim = some reports ∧ (running = true ↔ false ∉ reports) := by
  induction n generalizing sim with
  | zero =>
    obtain ⟨rfl, -⟩ := Prod.mk.inj (Option.some.inj h)
    exact ⟨[], rfl, by simp⟩
  | succ n ih =>
    obtain ⟨⟨running₁, sim₁⟩, htick, hrest⟩ := Option.bind_eq_some_iff.mp h
    cases running₁ with
    | true =>
      obtain ⟨reports, hreports, hrunning⟩ := ih hrest
      refine ⟨true :: reports, ?_, by simpa using hrunning⟩
      simp [tickReports, htick, hreports]
    | false =>
      obtain ⟨rfl, -⟩ := Prod.mk.inj (Option.some.inj hrest)
      refine ⟨[false], ?_, by simp⟩
      simp [tickReports, htick]

/-- The status that a step command returns has a value, which is not negative, and which is one if
and only if no tick that is performed reports a halt. -/
def StatusDefined (env : Env ω ι) (sim : Simulator ω ι) (amt : ℤ) : Prop :=
  ∀ status sim', simulatorStep env amt sim = some (status, sim') →
    ∃ reports value, tickReports env amt.toNat (startIo env sim).2 = some reports ∧
      status = some value ∧ 0 ≤ value ∧ (value = 1 ↔ false ∉ reports)

theorem statusDefined_iff (hio : IoSucceeds env) (k : ℕ) :
    StatusDefined env sim k ↔ k ≠ 0 := by
  constructor
  · rintro h rfl
    have hstep : simulatorStep env (0 : ℕ) sim =
        some (none, (endIo env (startIo env sim).2).2) := simulatorStep_of_io hio 0
    obtain ⟨-, value, -, hvalue, -⟩ := h _ _ hstep
    cases hvalue
  · intro hk status sim' hstep
    rw [simulatorStep_of_io hio] at hstep
    obtain ⟨⟨running, sim₁⟩, hticks, heq⟩ := Option.map_eq_some_iff.mp hstep
    obtain ⟨rfl, -⟩ := Prod.mk.inj heq
    obtain ⟨reports, hreports, hrunning⟩ := tickLoop_reports hticks
    cases running with
    | true => exact ⟨reports, 1, hreports, by simp [hk], by decide, by simpa using hrunning⟩
    | false => exact ⟨reports, 0, hreports, rfl, by decide, by simpa using hrunning⟩

/-- **Steps add up, and their status is defined unless the amount is zero.** With a clock register
that is ordinary memory and a terminal that starts and ends, two step commands leave the state that
one of the sum leaves, and a halted machine stays as it is. The status of a step command has the
value it should have if and only if the amount is not zero. -/
theorem simulatorStep_law (hio : IoSucceeds env) (hclock : ClockOrdinary sim) :
    (∀ a b : ℤ, 0 ≤ a → 0 ≤ b → a + b ≤ 2 ^ 63 - 1 →
      Option.Rel SameSim (simulatorStepTwice env a b sim)
          ((simulatorStep env (a + b) sim).map Prod.snd) ∧
        (IoTraceless env → simulatorStepTwice env a b sim =
          (simulatorStep env (a + b) sim).map Prod.snd)) ∧
      (Stopped sim → tick env sim = some (false, sim)) ∧
      ∀ amt : ℤ, 0 ≤ amt → amt ≤ 2 ^ 63 - 1 → (StatusDefined env sim amt ↔ amt ≠ 0) := by
  refine ⟨fun a b ha hb _ => ?_, tick_stopped hclock, fun amt hamt _ => ?_⟩
  · obtain ⟨a, rfl⟩ := Int.eq_ofNat_of_zero_le ha
    obtain ⟨b, rfl⟩ := Int.eq_ofNat_of_zero_le hb
    exact simulatorStep_compose hio hclock a b
  · obtain ⟨k, rfl⟩ := Int.eq_ofNat_of_zero_le hamt
    rw [statusDefined_iff hio, Ne, Ne, Int.ofNat_eq_zero]

theorem ioSucceeds_bareEnv : IoSucceeds bareEnv :=
  ⟨fun _ => Int.lt_irrefl 0, fun _ => Int.lt_irrefl 0⟩

/-- The second of two step commands finds the machine halted. -/
theorem simulatorStep_law_halt :
    simulatorStepTwice bareEnv 3 2 haltingSim =
        (simulatorStep bareEnv (3 + 2) haltingSim).map Prod.snd ∧
      StatusDefined bareEnv haltingSim 3 := by
  have hclock : ClockOrdinary haltingSim := rfl
  have hlaw := simulatorStep_law ioSucceeds_bareEnv hclock
  exact ⟨(hlaw.1 3 2 (by decide) (by decide) (by decide)).2 ⟨fun _ => rfl, fun _ => rfl⟩,
    (hlaw.2.2 3 (by decide) (by decide)).mpr (by decide)⟩

/-- **A step command of no ticks returns a variable without a value.** -/
theorem simulatorStep_zero_undefined :
    ¬ ∀ amt : ℤ, 0 ≤ amt → amt ≤ 2 ^ 63 - 1 → StatusDefined bareEnv haltingSim amt := by
  intro h
  have hstep : simulatorStep bareEnv 0 haltingSim = some (none, haltingSim) := rfl
  obtain ⟨-, value, -, hvalue, -⟩ := h 0 (by decide) (by decide) _ _ hstep
  cases hvalue

end Lc3Simulator
