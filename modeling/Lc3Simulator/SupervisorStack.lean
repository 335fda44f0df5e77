import Lc3Simulator.Events
import Lc3Simulator.Privilege

/-!
# Where deliveries from user mode push

A delivery from user mode pushes through the saved supervisor stack pointer. The source names the
top of the supervisor stack, `SUPERVISOR_STACK_HIGH`, but never uses it: `new_Cpu` leaves the saved
pointer 0, and nothing else writes it, except for the user interface. So every such delivery pushes
the status word at `0xFFFF` and the PC at `0xFFFE`, and that is the clock register: afterwards its
clock bit is bit 15 of the PC to resume at.

## Main definitions

* `PushesSafely` — the frame is below the top of the supervisor stack, and the clock register is
  as it was

## Main results

* `delivery_overwrites_clock` — no delivery from user mode does
* `illegalOpcode_stops_clock` — three instructions that stop the machine this way
-/

namespace Lc3Simulator

open Interaction Isa Transition

/-- `SUPERVISOR_STACK_HIGH`. -/
def supervisorStackHigh : Word := 0x2FFF

section Deliveries

variable {ω ι : Type} {env : Env ω ι} {sim sim' sim₀ : Simulator ω ι}

/-- The two words of the frame, which are at the new stack pointer and above it, are on the
supervisor stack, and the clock register is not touched. -/
structure PushesSafely (sim sim' : Simulator ω ι) : Prop where
  pc_le : sim'.cpu.registers .r6 ≤ supervisorStackHigh
  psr_le : sim'.cpu.registers .r6 + 1 ≤ supervisorStackHigh
  clock : mcrValue sim'.machine = mcrValue sim.machine

/-- The saved supervisor stack pointer is 0, and the clock register is ordinary memory. -/
structure StackUnset (sim : Simulator ω ι) : Prop where
  ssp : sim.cpu.registers .ssp = 0
  clock : (sim.machine.bus.memory mcrAddr).attachmentFlag = false

theorem simulatorNew_stackUnset {devices : ω} {deviceIo : ι}
    (h : simulatorNew env devices deviceIo = some sim) : StackUnset sim := by
  obtain ⟨hcpu, hflag, -⟩ := simulatorNew_eq_some h
  exact ⟨by rw [hcpu], hflag mcrAddr⟩

/-- No event writes the saved supervisor stack pointer, unless the user interface does. -/
theorem simEvent_stackUnset {e : SimEvent} {out : Unit} (hwrites : ¬ e.WritesRegister)
    (hspares : e.Spares env mcrAddr) (hunset : StackUnset sim)
    (h : simEvent env e sim = some (out, sim')) : StackUnset sim' := by
  refine ⟨?_, simEvent_flag hspares hunset.clock h⟩
  rw [← hunset.ssp]
  cases simEvent_cpuChange h with
  | delivered vec priority m _ hentry _ => exact hentry.ssp
  | executed w _ _ hexec => exact hexec.ssp
  | written reg value he hregs =>
    rcases he with rfl | ⟨rfl, -⟩
    · exact absurd trivial hwrites
    · rw [hregs]
      exact Function.update_of_ne (by decide) _ _
  | same _ _ hcpu => rw [hcpu]

/-- **Every delivery from user mode overwrites the clock register.** In every run of a new
simulator in which the user interface writes no register and no device asks for the clock register,
each delivery from user mode pushes the PC to resume at into the clock register, and the status word
above it. -/
theorem delivery_overwrites_clock {devices : ω} {deviceIo : ι} {events : List SimEvent}
    {outs : List Unit} (hnew : simulatorNew env devices deviceIo = some sim₀)
    (hevents : ∀ e ∈ events, ¬ e.WritesRegister ∧ e.Spares env mcrAddr)
    (hrun : run (simEvent env) events sim₀ = some (outs, sim)) {e : SimEvent} {out : Unit}
    {vec : Byte} {priority : Word} (hdelivery : delivery sim e = some (vec, priority))
    (hstep : simEvent env e sim = some (out, sim'))
    (huser : (sim.cpu.registers .psr).getLsbD 15 = true) :
    ¬ PushesSafely sim sim' ∧
      (∃ m₁ m₂ m₃, busWrite env sim.machine 0xFFFF (sim.cpu.registers .psr) = some m₁ ∧
        busWrite env m₁ mcrAddr (sim.cpu.registers .pc) = some m₂ ∧
        busRead env m₂ (0x0100 + vec.setWidth 16) = some (sim'.cpu.registers .pc, m₃) ∧
        sim'.machine.bus = m₃.bus) ∧
      mcrValue sim'.machine = sim.cpu.registers .pc := by
  have hunset : StackUnset sim := run_invariant_of_along
    (C := fun e _ => ¬ e.WritesRegister ∧ e.Spares env mcrAddr)
    (fun e _ _ _ hC hI h => simEvent_stackUnset hC.1 hC.2 hI h)
    (along_of_forall_mem hevents _) (simulatorNew_stackUnset hnew) hrun
  rw [← supervisorBit_eq] at huser
  obtain ⟨m, hentry, hbus⟩ := (simEvent_cpuChange hstep).entry hdelivery
  have hr6 : sim'.cpu.registers .r6 = mcrAddr := by
    rw [hentry.r6, if_pos huser, hunset.ssp]
    decide
  have hr6' : sim'.cpu.registers .r6 + 1 = 0xFFFF := by
    rw [hr6]
    decide
  obtain ⟨m₁, m₂, hpush, hpush', hread⟩ := hentry.frame
  rw [hr6'] at hpush
  rw [hr6] at hpush'
  have hclock : (m₁.bus.memory mcrAddr).attachmentFlag = false :=
    ((busWrite_sameMap hpush).flag mcrAddr).trans hunset.clock
  have hmcr : mcrValue sim'.machine = sim.cpu.registers .pc := by
    have hm₂ : m₂.bus = m₁.bus.setValue mcrAddr (sim.cpu.registers .pc) := by
      rw [(busWrite_eq_some hpush').1, hclock, if_neg Bool.false_ne_true]
    rw [mcrValue, hbus, (busRead_eq_some hread).1, hm₂]
    simp [Bus.setValue]
  refine ⟨fun hsafe => ?_, ⟨m₁, m₂, m, hpush, hpush', hread, hbus⟩, hmcr⟩
  have hle := hsafe.psr_le
  rw [hr6'] at hle
  exact absurd hle (by decide)

end Deliveries

/-! ### A program that stops the machine -/

/-- `LEA R6, #2` at `0x3000`, `RTI` to user mode at `0x3002`, and there the undefined opcode. -/
def stoppingProgram : List Word := [0x3000, 0xEC02, 0x8000, 0xD000, 0x3002, 0x8002]

/-- The program is loaded, two ticks are over, and the third one has executed its instruction. -/
def stoppingEvents : List SimEvent :=
  [.between (.writeAddress 0x3000 0xEC02), .between (.writeAddress 0x3001 0x8000),
    .between (.writeAddress 0x3002 0xD000), .between (.writeAddress 0x3003 0x3002),
    .between (.writeAddress 0x3004 0x8002), .between (.setStart 0x3000),
    .execute, .checkExceptions, .execute, .checkExceptions, .execute]

theorem stoppingEvents_spare : ∀ e ∈ stoppingEvents,
    ¬ e.WritesRegister ∧ e.Spares bareEnv mcrAddr := by
  intro e he
  simp only [stoppingEvents, List.mem_cons, List.not_mem_nil, or_false] at he
  rcases he with rfl | rfl | rfl | rfl | rfl | rfl | rfl | rfl | rfl | rfl | rfl <;>
    exact ⟨fun h => h, trivial⟩

/-- A new simulator. -/
def stoppingNew : Simulator Unit Unit := (simulatorNew bareEnv () ()).get (by decide +kernel)

theorem stoppingRun_isSome : (run (simEvent bareEnv) stoppingEvents stoppingNew).isSome := by
  decide +kernel

def stoppingRun : List Unit × Simulator Unit Unit :=
  (run (simEvent bareEnv) stoppingEvents stoppingNew).get stoppingRun_isSome

/-- The state in which the exception is delivered. -/
def stoppingSim : Simulator Unit Unit := stoppingRun.2

theorem stoppedSim_isSome : (simEvent bareEnv .checkExceptions stoppingSim).isSome := by
  decide +kernel

/-- The state after the delivery. -/
def stoppedSim : Simulator Unit Unit :=
  ((simEvent bareEnv .checkExceptions stoppingSim).get stoppedSim_isSome).2

theorem stoppingSim_run :
    run (simEvent bareEnv) stoppingEvents stoppingNew = some (stoppingRun.1, stoppingSim) :=
  (Option.some_get stoppingRun_isSome).symm

theorem stoppedSim_step :
    simEvent bareEnv .checkExceptions stoppingSim = some ((), stoppedSim) :=
  (Option.some_get stoppedSim_isSome).symm

theorem stoppingSim_delivery : delivery stoppingSim .checkExceptions = some (1, 0) := by
  decide +kernel

theorem delivery_overwrites_clock_stopping :
    mcrValue stoppedSim.machine = stoppingSim.cpu.registers .pc :=
  (delivery_overwrites_clock (Option.some_get _).symm stoppingEvents_spare stoppingSim_run
    stoppingSim_delivery stoppedSim_step (by decide +kernel)).2.2

/-- The exception of the third instruction is delivered from user mode with the clock on, and the
push of the PC turns the clock off: the machine stops in the third tick, and ticks no more. -/
theorem illegalOpcode_stops_clock :
    simulatorNew bareEnv () () = some stoppingNew ∧
    run (simEvent bareEnv) stoppingEvents stoppingNew = some (stoppingRun.1, stoppingSim) ∧
    (stoppingSim.cpu.registers .psr).getLsbD 15 = true ∧
    delivery stoppingSim .checkExceptions = some (1, 0) ∧
    simEvent bareEnv .checkExceptions stoppingSim = some ((), stoppedSim) ∧
    ¬ PushesSafely stoppingSim stoppedSim ∧
    clockEnabled (mcrValue stoppingSim.machine) = true ∧
    clockEnabled (mcrValue stoppedSim.machine) = false ∧
    (run (runCommand bareEnv) [.loadProgram stoppingProgram 0, .step 3, .step 1] stoppingNew).map
      Prod.fst = some [some 0, some 1, some 0] := by
  refine ⟨(Option.some_get _).symm, stoppingSim_run, by decide +kernel, stoppingSim_delivery,
    stoppedSim_step, fun hsafe => ?_, by decide +kernel, by decide +kernel, by decide +kernel⟩
  exact absurd hsafe.pc_le (by decide +kernel)

end Lc3Simulator
