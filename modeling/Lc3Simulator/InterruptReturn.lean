import Lc3Simulator.Privilege

/-!
# Coming back from a handler

A delivery and the RTI that ends its handler should leave the interrupted code as it was. The two
agree about the frame and about every register but `R6`: RTI looks at the popped status word to
decide whether to take the saved user stack pointer, and `cpu.c` takes it when the word says
*supervisor* mode, where the delivery saved it in *user* mode. So code in user mode comes back with
the supervisor stack pointer in `R6`, and code in supervisor mode with the user stack pointer.

Handlers may themselves be interrupted, to any depth. A `HandlerRun` is a run of any steps that
records the deliveries in it that were returned from, the nested ones included, each with the state
before it and the state after its RTI.

## Main definitions

* `Delivers`, `Returns` — an interrupt or exception, and the RTI at the end of its handler
* `HandlerRun` — runs with the deliveries returned from in them
* `Transparent` — PC, PSR and `R0` to `R7` are what they were
* `StackAgrees` — where it makes no difference which stack pointer is taken

## Main results

* `handlerRun_transparent_iff` — a delivery is transparent exactly when the stacks agree
* `rti_takes_other_stack` — a delivery in each mode that is not
-/

namespace Lc3Simulator

open Interaction Isa

/-! ### Runs of handlers -/

section Handlers

variable {ω ι : Type}

/-- What can happen in a handler: the two parts of a tick, an offered interrupt, and whatever else
leaves the CPU and the address map alone. -/
inductive Step (env : Env ω ι) : Cpu × Machine ω ι → Cpu × Machine ω ι → Prop
  | execute {s s' running} (h : (cpuExecute s.1).run (initBusAccessor env).handler s.2 =
      some ((running, s'.1), s'.2)) : Step env s s'
  | checkExceptions {s s'} (h : (cpuCheckExceptions s.1).run (initBusAccessor env).handler s.2 =
      some s') : Step env s s'
  | signal {s s' vec priority taken} (h : (cpuSignalInterrupt s.1 vec priority).run
      (initBusAccessor env).handler s.2 = some ((taken, s'.1), s'.2)) : Step env s s'
  | devices {s s'} (hcpu : s'.1 = s.1) (hmap : SameMap s.2 s'.2) : Step env s s'

/-- A delivery: an interrupt that the CPU accepts, or an exception that is waiting when the tick
looks for one. -/
inductive Delivers (env : Env ω ι) : Cpu × Machine ω ι → Cpu × Machine ω ι → Prop
  | interrupt {s s' vec priority} (hrange : priority ≤ 7)
      (h : (cpuSignalInterrupt s.1 vec priority).run (initBusAccessor env).handler s.2 =
        some ((true, s'.1), s'.2)) : Delivers env s s'
  | exception {s s'} (hwaiting : ¬ s.1.LinesLow)
      (h : (cpuCheckExceptions s.1).run (initBusAccessor env).handler s.2 = some s') :
      Delivers env s s'

/-- The handler that was entered in `u` ends in `v` by executing RTI in supervisor mode, which leads
to `w`: the stack pointer and the other registers are as on entry, and so are the two words of the
frame that was pushed. -/
structure Returns (env : Env ω ι) (u v w : Cpu × Machine ω ι) : Prop where
  supervisor : supervisorBit (v.1.registers .psr) = false
  kept : ∀ r, r ≠ .pc → r ≠ .psr → v.1.registers r = u.1.registers r
  frame_pc : (v.2.bus.memory (u.1.registers .r6)).value =
    (u.2.bus.memory (u.1.registers .r6)).value
  frame_psr : (v.2.bus.memory (u.1.registers .r6 + 1)).value =
    (u.2.bus.memory (u.1.registers .r6 + 1)).value
  execute : ∃ mcr m₁ instruction m₂ running, busRead env v.2 mcrAddr = some (mcr, m₁) ∧
    clockEnabled mcr = true ∧ busRead env m₁ (v.1.registers .pc) = some (instruction, m₂) ∧
    opcode instruction = 8 ∧
    (cpuExecute v.1).run (initBusAccessor env).handler v.2 = some ((running, w.1), w.2)

/-- The two words of a frame are ordinary memory. -/
def OrdinaryFrame (m : Machine ω ι) (sp : Word) : Prop :=
  (m.bus.memory sp).attachmentFlag = false ∧ (m.bus.memory (sp + 1)).attachmentFlag = false

/-- `HandlerRun env s t levels`: from `s` to `t`, where `levels` lists the deliveries that were
returned from, each with the state before it and the state after its RTI. -/
inductive HandlerRun (env : Env ω ι) : Cpu × Machine ω ι → Cpu × Machine ω ι →
    List ((Cpu × Machine ω ι) × (Cpu × Machine ω ι)) → Prop
  | refl (s) : HandlerRun env s s []
  | step {s t t' levels} (h : HandlerRun env s t levels) (hstep : Step env t t') :
      HandlerRun env s t' levels
  | handle {s t u v w levels levels'} (h : HandlerRun env s t levels) (hdelivers : Delivers env t u)
      (hframe : OrdinaryFrame t.2 (u.1.registers .r6)) (hhandler : HandlerRun env u v levels')
      (hreturns : Returns env u v w) : HandlerRun env s w (levels ++ (t, w) :: levels')

/-- PC, PSR and `R0` to `R7` are the same. -/
def Transparent (s s' : Cpu × Machine ω ι) : Prop :=
  ∀ r, r ≠ .usp → r ≠ .ssp → s'.1.registers r = s.1.registers r

/-- The stack pointer in use is the one that RTI will put there: in user mode the supervisor stack
pointer, in supervisor mode the user stack pointer. -/
def StackAgrees (s : Cpu × Machine ω ι) : Prop :=
  s.1.registers .r6 =
    if supervisorBit (s.1.registers .psr) then s.1.registers .ssp else s.1.registers .usp

variable {env : Env ω ι} {s s' t u v w : Cpu × Machine ω ι} {m : Machine ω ι} {cpu : Cpu}

/-! ### The address map is the same throughout -/

theorem Step.sameMap (h : Step env s s') : SameMap s.2 s'.2 := by
  cases h with
  | execute h => exact run_sameMap h
  | checkExceptions h => exact run_sameMap h
  | signal h => exact run_sameMap h
  | devices _ hmap => exact hmap

theorem Delivers.sameMap (h : Delivers env s s') : SameMap s.2 s'.2 := by
  cases h with
  | interrupt _ h => exact run_sameMap h
  | exception _ h => exact run_sameMap h

theorem Returns.sameMap (h : Returns env u v w) : SameMap v.2 w.2 := by
  obtain ⟨_, _, _, _, _, -, -, -, -, hrun⟩ := h.execute
  exact run_sameMap hrun

theorem HandlerRun.sameMap {levels : List ((Cpu × Machine ω ι) × (Cpu × Machine ω ι))}
    (h : HandlerRun env s t levels) : SameMap s.2 t.2 := by
  induction h with
  | refl s => exact SameMap.refl s.2
  | step _ hstep ih => exact ih.trans hstep.sameMap
  | handle _ hdelivers _ _ hreturns ih ih' =>
    exact ((ih.trans hdelivers.sameMap).trans ih').trans hreturns.sameMap

/-- A tick is two of the steps. -/
theorem HandlerRun.tick {levels : List ((Cpu × Machine ω ι) × (Cpu × Machine ω ι))} {running : Bool}
    (h : HandlerRun env s t levels) (htick : (cpuTick t.1).run (initBusAccessor env).handler t.2 =
      some ((running, s'.1), s'.2)) : HandlerRun env s s' levels := by
  rw [cpuTick_eq_cpuExecute, Prog.run_bind] at htick
  obtain ⟨⟨⟨b, cpu⟩, m⟩, hexecute, hrest⟩ := Option.bind_eq_some_iff.mp htick
  have hfirst : HandlerRun env s (cpu, m) levels := h.step (Step.execute hexecute)
  cases b with
  | false =>
    obtain ⟨hcpu, rfl⟩ := Prod.mk.inj (Option.some.inj hrest)
    obtain ⟨-, rfl⟩ := Prod.mk.inj hcpu
    exact hfirst
  | true =>
    simp only [if_true, Prog.run_bind] at hrest
    obtain ⟨⟨cpu', m'⟩, hcheck, hrest⟩ := Option.bind_eq_some_iff.mp hrest
    obtain ⟨hcpu, rfl⟩ := Prod.mk.inj (Option.some.inj hrest)
    obtain ⟨-, rfl⟩ := Prod.mk.inj hcpu
    exact hfirst.step (Step.checkExceptions hcheck)

/-! ### One delivery -/

/-- Both kinds of delivery enter a handler the same way. -/
theorem Delivers.entry (h : Delivers env s s') :
    ∃ vec psr, Entry env s.1.registers s.2 vec psr s'.1.registers s'.2 := by
  cases h with
  | interrupt _ h =>
    rcases run_cpuSignalInterrupt h with ⟨-, heq⟩ | ⟨-, cpu', m', hdeliver, heq⟩
    · cases heq
    · obtain ⟨hcpu, rfl⟩ := Prod.mk.inj heq
      obtain rfl := (Prod.mk.inj hcpu).2
      exact ⟨_, _, (run_deliver_entry hdeliver).2⟩
  | exception hwaiting h =>
    obtain ⟨cpu, vec, hcpu, hdeliver⟩ := run_cpuCheckExceptions hwaiting h
    exact ⟨vec, _, hcpu ▸ (run_deliver_entry hdeliver).2⟩

/-- Executing RTI in supervisor mode over an ordinary frame. -/
theorem run_cpuExecute_rti {mcr instruction : Word} {m₁ m₂ : Machine ω ι}
    {x : (Bool × Cpu) × Machine ω ι} (hmode : supervisorBit (cpu.registers .psr) = false)
    (hframe : OrdinaryFrame m (cpu.registers .r6)) (hpoll : busRead env m mcrAddr = some (mcr, m₁))
    (hclock : clockEnabled mcr = true)
    (hfetch : busRead env m₁ (cpu.registers .pc) = some (instruction, m₂))
    (hop : opcode instruction = 8)
    (hrun : (cpuExecute cpu).run (initBusAccessor env).handler m = some x) :
    x.1.2.registers = returnRegisters (fetched cpu.registers)
      (m.bus.memory (cpu.registers .r6)).value (m.bus.memory (cpu.registers .r6 + 1)).value := by
  have hbus : m₂.bus = m.bus := (busRead_eq_some hfetch).1.trans (busRead_eq_some hpoll).1
  have hpc : busRead env m₂ (cpu.registers .r6) = some (_, m₂) := busRead_ordinary (hbus ▸ hframe.1)
  have hpsr : busRead env m₂ (cpu.registers .r6 + 1) = some (_, m₂) :=
    busRead_ordinary (hbus ▸ hframe.2)
  have hmode' :
      supervisorBit ((cpu.withRegisters (fetched cpu.registers)).registers .psr) = false := hmode
  rw [run_cpuExecute (h := (initBusAccessor env).handler) hpoll hclock hfetch, cpuDispatch_rti hop,
    rti_of_supervisor instruction hmode'] at hrun
  obtain ⟨y, hdispatch, hend⟩ := Option.bind_eq_some_iff.mp hrun
  obtain ⟨z, -, rfl⟩ := Option.map_eq_some_iff.mp hend
  obtain ⟨p, hp, hdispatch⟩ := Option.bind_eq_some_iff.mp hdispatch
  obtain rfl := Option.some.inj (hpc.symm.trans hp)
  obtain ⟨q, hq, hdispatch⟩ := Option.bind_eq_some_iff.mp hdispatch
  obtain rfl := Option.some.inj (hpsr.symm.trans hq)
  obtain rfl := Option.some.inj hdispatch
  rw [← hbus]
  rfl

/-- **One delivery.** Whatever the handler did, the code it interrupted finds everything as it was
exactly when it finds its stack pointer. -/
theorem transparent_iff_stackAgrees (hdelivers : Delivers env t u) (hmap : SameMap t.2 v.2)
    (hframe : OrdinaryFrame t.2 (u.1.registers .r6)) (hreturns : Returns env u v w) :
    Transparent t w ↔ StackAgrees t := by
  obtain ⟨vec, psr, hentry⟩ := hdelivers.entry
  obtain ⟨hpc, hpsr⟩ := hentry.pushed hframe.1 hframe.2
  obtain ⟨mcr, m₁, instruction, m₂, running, hpoll, hclock, hfetch, hop, hrun⟩ := hreturns.execute
  have hr6 : v.1.registers .r6 = u.1.registers .r6 := hreturns.kept .r6 (by decide) (by decide)
  have husp : v.1.registers .usp = u.1.registers .usp := hreturns.kept .usp (by decide) (by decide)
  -- the address map is still the one the frame was pushed under
  have hframe' : OrdinaryFrame v.2 (v.1.registers .r6) := by
    rw [hr6]
    exact ⟨(hmap.flag _).trans hframe.1, (hmap.flag _).trans hframe.2⟩
  have hw : w.1.registers = returnRegisters (fetched v.1.registers) (t.1.registers .pc)
      (t.1.registers .psr) := by
    rw [← hpc, ← hpsr, ← hreturns.frame_pc, ← hreturns.frame_psr, ← hr6]
    exact run_cpuExecute_rti hreturns.supervisor hframe' hpoll hclock hfetch hop hrun
  have hstack : w.1.registers .r6 =
      if supervisorBit (t.1.registers .psr) then t.1.registers .ssp else t.1.registers .usp := by
    rw [hw]
    show (if supervisorBit (t.1.registers .psr) then v.1.registers .r6 + 2
      else v.1.registers .usp) = _
    rw [hr6, husp, hentry.r6, hentry.usp]
    cases supervisorBit (t.1.registers .psr) with
    | false => rfl
    | true => exact BitVec.sub_add_cancel _ _
  rw [Transparent, StackAgrees, ← hstack]
  refine ⟨fun h => (h .r6 (by decide) (by decide)).symm, fun hagrees r husp hssp => ?_⟩
  have hkept : ∀ r, r ≠ .pc → r ≠ .psr → r ≠ .r6 → r ≠ .usp →
      w.1.registers r = t.1.registers r := by
    intro r hpc hpsr hr6 husp
    rw [hw]
    have hv : v.1.registers r = t.1.registers r :=
      (hreturns.kept r hpc hpsr).trans (hentry.kept r hpc hpsr hr6 husp)
    cases r <;> first | exact hv | contradiction
  by_cases hpc : r = .pc
  · rw [hpc, hw]
    rfl
  · by_cases hpsr : r = .psr
    · rw [hpsr, hw]
      rfl
    · by_cases h6 : r = .r6
      · rw [h6, hagrees]
      · exact hkept r hpc hpsr h6 husp

/-- **Coming back from handlers.** In any run, with deliveries nested to any depth, every delivery
whose handler returns with its registers and frame as on entry is transparent exactly when the
stack pointer of the interrupted code is, in user mode, the supervisor stack pointer, and in
supervisor mode, the user stack pointer. -/
theorem handlerRun_transparent_iff {levels : List ((Cpu × Machine ω ι) × (Cpu × Machine ω ι))}
    (h : HandlerRun env s t levels) :
    ∀ level ∈ levels, Transparent level.1 level.2 ↔ StackAgrees level.1 := by
  induction h with
  | refl s =>
    intro level hlevel
    cases hlevel
  | step _ _ ih => exact ih
  | @handle s t u v w levels levels' _ hdelivers hframe hhandler hreturns ih ih' =>
    intro level hlevel
    rcases List.mem_append.mp hlevel with hlevel | hlevel
    · exact ih level hlevel
    · rcases List.mem_cons.mp hlevel with rfl | hlevel
      · have hmap : SameMap t.2 v.2 := hdelivers.sameMap.trans hhandler.sameMap
        exact transparent_iff_stackAgrees hdelivers hmap hframe hreturns
      · exact ih' level hlevel

end Handlers

/-! ### A handler that returns at once -/

/-- The handler of vector `0x80` is the word RTI, at `0x0500`. -/
def handlerMachine : Machine Unit Unit :=
  bareMachine fun a => if a = 0x0180 then 0x0500 else if a = 0x0500 then 0x8000
    else if a = mcrAddr then 0x8000 else 0

/-- A CPU in supervisor mode, with the user stack at `0xF000`. -/
def supervisorCpu : Cpu :=
  ⟨⟨false, 0⟩, ⟨false, 1⟩, fun r => if r = .psr then 0x0002 else if r = .pc then 0x3000
    else if r = .r6 then 0x2000 else if r = .usp then 0xF000 else 0⟩

/-- The state after an interrupt with vector `0x80` and priority 4. -/
def interrupted (cpu : Cpu) : Cpu × Machine Unit Unit :=
  ((cpuSignalInterrupt cpu 0x80 4).run (initBusAccessor bareEnv).handler handlerMachine).elim
    (cpu, handlerMachine) fun x => (x.1.2, x.2)

/-- The state after the RTI of its handler. -/
def returned (cpu : Cpu) : Cpu × Machine Unit Unit :=
  ((cpuExecute (interrupted cpu).1).run (initBusAccessor bareEnv).handler (interrupted cpu).2).elim
    (interrupted cpu) fun x => (x.1.2, x.2)

theorem handlerRun_userCpu : HandlerRun bareEnv (userCpu, handlerMachine) (returned userCpu)
    [((userCpu, handlerMachine), returned userCpu)] := by
  refine HandlerRun.handle (u := interrupted userCpu) (v := interrupted userCpu)
    (HandlerRun.refl _) (@Delivers.interrupt _ _ _ _ _ 0x80 4 (by decide) rfl)
    ⟨rfl, rfl⟩ (HandlerRun.refl _) ?_
  exact ⟨rfl, fun _ _ _ => rfl, rfl, rfl,
    0x8000, _, 0x8000, _, true, rfl, by decide, rfl, by decide, rfl⟩

theorem handlerRun_supervisorCpu : HandlerRun bareEnv (supervisorCpu, handlerMachine)
    (returned supervisorCpu) [((supervisorCpu, handlerMachine), returned supervisorCpu)] := by
  refine HandlerRun.handle (u := interrupted supervisorCpu) (v := interrupted supervisorCpu)
    (HandlerRun.refl _) (@Delivers.interrupt _ _ _ _ _ 0x80 4 (by decide) rfl)
    ⟨rfl, rfl⟩ (HandlerRun.refl _) ?_
  exact ⟨rfl, fun _ _ _ => rfl, rfl, rfl,
    0x8000, _, 0x8000, _, true, rfl, by decide, rfl, by decide, rfl⟩

theorem handlerRun_transparent_iff_userCpu :
    Transparent (userCpu, handlerMachine) (returned userCpu) ↔
      StackAgrees (userCpu, handlerMachine) :=
  handlerRun_transparent_iff handlerRun_userCpu _ List.mem_cons_self

/-- In user mode the code comes back with the supervisor stack pointer, in supervisor mode with the
user stack pointer. -/
theorem rti_takes_other_stack :
    (HandlerRun bareEnv (userCpu, handlerMachine) (returned userCpu)
        [((userCpu, handlerMachine), returned userCpu)] ∧
      userCpu.registers .r6 = 0xF000 ∧ (returned userCpu).1.registers .r6 = 0x2000 ∧
      ¬ Transparent (userCpu, handlerMachine) (returned userCpu)) ∧
    (HandlerRun bareEnv (supervisorCpu, handlerMachine) (returned supervisorCpu)
        [((supervisorCpu, handlerMachine), returned supervisorCpu)] ∧
      supervisorCpu.registers .r6 = 0x2000 ∧ (returned supervisorCpu).1.registers .r6 = 0xF000 ∧
      ¬ Transparent (supervisorCpu, handlerMachine) (returned supervisorCpu)) := by
  refine ⟨⟨handlerRun_userCpu, by decide, by decide, fun h => ?_⟩,
    ⟨handlerRun_supervisorCpu, by decide, by decide, fun h => ?_⟩⟩
  · exact absurd (h .r6 (by decide) (by decide)) (by decide)
  · exact absurd (h .r6 (by decide) (by decide)) (by decide)

end Lc3Simulator
