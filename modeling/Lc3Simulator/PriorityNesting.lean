import Lc3Simulator.Arbitration

/-!
# Nesting of interrupts by priority

An interrupt is accepted if its priority is above the priority field of the status word, and its
handler runs at its priority, so that only higher ones interrupt the handler. This rests on the
priority fitting the field, which has three bits. A device may raise an interrupt with any byte for
a priority: then the comparison is made with the whole byte, but the bits above the third go to bits
11 to 15 of the status word, and the last of these is the privilege mode.

## Main definitions

* `interrupt` — the interrupt that an event delivers
* `PriorityNesting` — handlers run at their priority, and are interrupted by higher ones only

## Main results

* `runLoop_priorityNesting_iff` — the loop nests exactly when the priorities are at most 7
* `alert_overflows_priority` — a device that raises an interrupt with priority 8
-/

namespace Lc3Simulator

open Isa Transition

section Nesting

variable {ω ι : Type} {env : Env ω ι} {sim sim' : Simulator ω ι}

/-- The interrupt that an event delivers: its vector and its priority. -/
def interrupt (sim : Simulator ω ι) : SimEvent → Option (Byte × Byte)
  | .between .checkInterrupts => accepted sim
  | _ => none

/-- Every interrupt that is delivered leaves the status word of a handler at its priority; and from
there to the next RTI only interrupts of a higher priority are delivered. -/
def PriorityNesting (env : Env ω ι) : List SimEvent → Simulator ω ι → Prop :=
  StepsAlong (simEvent env) fun e rest sim sim' =>
    ∀ vec priority, interrupt sim e = some (vec, priority) →
      HandlerStatus (sim'.cpu.registers .psr) (priority.setWidth 16) ∧
      AlongUntil (simEvent env) (ExecutesRti env) (fun e₁ sim₁ =>
        ∀ vec' priority', interrupt sim₁ e₁ = some (vec', priority') → priority < priority')
        rest sim'

/-- The interrupt that the event delivers, if it delivers one, has a priority of three bits. -/
def PriorityInRange (e : SimEvent) (sim : Simulator ω ι) : Prop :=
  ∀ vec priority, interrupt sim e = some (vec, priority) → priority ≤ 7

/-- The events of the loop. -/
def SimEvent.InLoop (e : SimEvent) : Prop := e ∈ loopRoundParts

/-- The request that is accepted is above the priority of the CPU. -/
theorem accepted_priority {vec priority : Byte} (h : accepted sim = some (vec, priority)) :
    psrPriority (sim.cpu.registers .psr) < priority.setWidth 16 := by
  rw [accepted, Option.filter_eq_some_iff] at h
  simpa using h.2

theorem delivery_of_interrupt {e : SimEvent} {vec priority : Byte}
    (h : interrupt sim e = some (vec, priority)) :
    e = .between .checkInterrupts ∧ accepted sim = some (vec, priority) ∧
      delivery sim e = some (vec, priority.setWidth 16) := by
  match e with
  | .between .checkInterrupts =>
    have haccepted : accepted sim = some (vec, priority) := h
    exact ⟨rfl, haccepted, by rw [delivery, haccepted]; rfl⟩

/-- The status word after a delivery. -/
theorem simEvent_psr {e : SimEvent} {out : Unit} {vec : Byte} {priority : Word}
    (hdelivery : delivery sim e = some (vec, priority))
    (h : simEvent env e sim = some (out, sim')) :
    sim'.cpu.registers .psr = handlerPsr priority := by
  obtain ⟨m, hentry, -⟩ := (simEvent_cpuChange h).entry hdelivery
  exact hentry.psr

/-- The priority of the CPU stays at least what it is, until RTI. -/
theorem simEvent_psrPriority {e : SimEvent} {out : Unit} {p : Word} (hloop : e.InLoop)
    (hrange : PriorityInRange e sim) (hrti : ¬ ExecutesRti env e sim)
    (hle : p ≤ psrPriority (sim.cpu.registers .psr)) (h : simEvent env e sim = some (out, sim')) :
    p ≤ psrPriority (sim'.cpu.registers .psr) := by
  cases simEvent_cpuChange h with
  | executed w he hfetch hexec =>
    have hmode : SameMode (sim.cpu.registers .psr) (sim'.cpu.registers .psr) := by
      refine hexec.sameMode fun hop => ?_
      by_contra hsupervisor
      exact hrti ⟨he, Bool.eq_false_iff.mpr hsupervisor, w, hfetch, hop⟩
    rw [hmode.2]
    exact hle
  | written reg value he =>
    rcases he with rfl | ⟨-, rfl⟩ <;> simp [SimEvent.InLoop, loopRoundParts] at hloop
  | same _ _ hcpu => rwa [hcpu]
  | delivered vec priority m hdelivery hentry =>
    rw [hentry.psr]
    match e with
    | .checkExceptions =>
      obtain ⟨vec', -, heq⟩ := Option.map_eq_some_iff.mp hdelivery
      obtain ⟨-, rfl⟩ := Prod.mk.inj heq
      rwa [(handlerPsr_spec (psrPriority_le _)).2]
    | .between .checkInterrupts =>
      obtain ⟨⟨vec', priority'⟩, haccepted, heq⟩ := Option.map_eq_some_iff.mp hdelivery
      obtain ⟨-, rfl⟩ := Prod.mk.inj heq
      have hstatus := (handlerStatus_handlerPsr_iff priority').mpr (hrange vec' priority' haccepted)
      rw [hstatus.priority]
      exact BitVec.le_trans hle (BitVec.le_of_lt (accepted_priority haccepted))

theorem setWidth_lt_setWidth {p q : Byte} : p.setWidth 16 < (q.setWidth 16 : Word) ↔ p < q := by
  rw [BitVec.lt_def, BitVec.lt_def, BitVec.toNat_setWidth, BitVec.toNat_setWidth]
  omega

/-- While the CPU has at least the priority `p`, only interrupts above `p` are delivered; and no
event of the loop lowers its priority before RTI. -/
theorem alongUntil_higher {events : List SimEvent} {p : Byte}
    (hevents : Along (simEvent env) (fun e sim => e.InLoop ∧ PriorityInRange e sim) events sim)
    (hle : p.setWidth 16 ≤ psrPriority (sim.cpu.registers .psr)) :
    AlongUntil (simEvent env) (ExecutesRti env) (fun e₁ sim₁ => ∀ vec' priority',
      interrupt sim₁ e₁ = some (vec', priority') → p < priority') events sim := by
  have hdelivers : ∀ (e₁ : SimEvent) (sim₁ : Simulator ω ι),
      (e₁.InLoop ∧ PriorityInRange e₁ sim₁) →
      p.setWidth 16 ≤ psrPriority (sim₁.cpu.registers .psr) →
      ∀ vec' priority', interrupt sim₁ e₁ = some (vec', priority') → p < priority' := by
    intro e₁ sim₁ _ hle₁ vec' priority' hinterrupt
    have hlt := accepted_priority (delivery_of_interrupt hinterrupt).2.1
    exact setWidth_lt_setWidth.mp (Nat.lt_of_le_of_lt hle₁ hlt)
  have hkeeps : ∀ (e₁ : SimEvent) (sim₁ : Simulator ω ι) (out : Unit) (sim₂ : Simulator ω ι),
      (e₁.InLoop ∧ PriorityInRange e₁ sim₁) → ¬ ExecutesRti env e₁ sim₁ →
      p.setWidth 16 ≤ psrPriority (sim₁.cpu.registers .psr) →
      simEvent env e₁ sim₁ = some (out, sim₂) →
      p.setWidth 16 ≤ psrPriority (sim₂.cpu.registers .psr) := by
    intro e₁ sim₁ out sim₂ hC hrti hle₁ hstep
    exact simEvent_psrPriority hC.1 hC.2 hrti hle₁ hstep
  exact alongUntil_of_along hdelivers hkeeps hevents hle

/-- **Interrupts nest exactly when their priorities fit.** -/
theorem priorityNesting_iff {events : List SimEvent} {outs : List Unit}
    (hloop : ∀ e ∈ events, e.InLoop) (hrun : run (simEvent env) events sim = some (outs, sim')) :
    PriorityNesting env events sim ↔ Along (simEvent env) PriorityInRange events sim := by
  induction events generalizing sim outs with
  | nil => exact Iff.rfl
  | cons e rest ih =>
    obtain ⟨out, sim₁, outs', hstep, hrest, -⟩ := run_cons_eq_some hrun
    have hrest_loop : ∀ e₁ ∈ rest, e₁.InLoop := fun e₁ he₁ => hloop e₁ (List.mem_cons_of_mem e he₁)
    have hih := ih hrest_loop hrest
    constructor
    · intro hnesting
      obtain ⟨hdelivers, hnested⟩ := hnesting out sim₁ hstep
      refine ⟨fun vec priority hinterrupt => ?_, fun out' sim₂ hstep' => ?_⟩
      · obtain ⟨-, -, hdelivery⟩ := delivery_of_interrupt hinterrupt
        have hstatus := (hdelivers vec priority hinterrupt).1
        rw [simEvent_psr hdelivery hstep] at hstatus
        exact (handlerStatus_handlerPsr_iff priority).mp hstatus
      · obtain ⟨-, rfl⟩ := Prod.mk.inj (Option.some.inj (hstep.symm.trans hstep'))
        exact hih.mp hnested
    · rintro ⟨hrange, halong⟩ out' sim₂ hstep'
      obtain ⟨-, rfl⟩ := Prod.mk.inj (Option.some.inj (hstep.symm.trans hstep'))
      have halong₁ := halong out sim₁ hstep
      refine ⟨fun vec priority hinterrupt => ?_, hih.mpr halong₁⟩
      obtain ⟨-, -, hdelivery⟩ := delivery_of_interrupt hinterrupt
      have hstatus := (handlerStatus_handlerPsr_iff priority).mpr (hrange vec priority hinterrupt)
      rw [← simEvent_psr hdelivery hstep] at hstatus
      have hboth : Along (simEvent env) (fun e₁ sim₃ => e₁.InLoop ∧ PriorityInRange e₁ sim₃)
          rest sim₁ := along_and (along_of_forall_mem hrest_loop sim₁) halong₁
      exact ⟨hstatus, alongUntil_higher hboth (BitVec.le_of_eq hstatus.priority.symm)⟩

theorem inLoop_of_mem_loopParts {k : ℕ} {running : Bool} :
    ∀ e ∈ loopParts k running, e.InLoop := by
  intro e he
  rcases List.mem_append.mp he with he | he
  · obtain ⟨l, hl, he⟩ := List.mem_flatten.mp he
    obtain rfl := List.eq_of_mem_replicate hl
    exact he
  · cases running with
    | true => cases he
    | false =>
      obtain rfl := List.mem_singleton.mp he
      simp [SimEvent.InLoop, loopRoundParts]

/-- **Priority nesting in the loop of `simulator_run_until_end`**, from any state and for any number
of rounds. The interrupts that are delivered are those the CPU executes, and in a look that delivers
none nothing happens. Each delivered interrupt leaves the CPU in supervisor mode at its priority,
with the condition code Z and no other bit, and until the next RTI only interrupts of a higher
priority are delivered, exactly when the priorities of the delivered interrupts are at most 7. -/
theorem runLoop_priorityNesting_iff {n : ℕ} {running : Bool}
    (h : runLoop env n sim = some (running, sim')) :
    ∃ k outs, (running = true → k = n) ∧
      run (simEvent env) (loopParts k running) sim = some (outs, sim') ∧
      RunDelivers env (loopParts k running) sim ∧
      (PriorityNesting env (loopParts k running) sim ↔
        Along (simEvent env) PriorityInRange (loopParts k running) sim) := by
  obtain ⟨k, outs, -, hk, hrun⟩ := runLoop_parts h
  exact ⟨k, outs, hk, hrun, runDelivers env _ sim, priorityNesting_iff inLoop_of_mem_loopParts hrun⟩

end Nesting

/-! ### A priority that does not fit -/

/-- A device that raises an interrupt with priority 8 on every character, and a terminal that always
has one. -/
def overflowEnv : Env Unit Unit where
  libc := SortSearch.bisecting _
  device _ := { inertDevice with
    onInput := some fun _ _ => some ((), (), [.alertInterrupt 0x80 8]) }
  deviceIo := { silentIo with getChar := fun _ => (1, 0x61, ()) }

theorem overflowSim_isSome : ((simulatorNew overflowEnv () ()).bind
    (runCommand overflowEnv (.attachDevice 0))).isSome := by
  decide +kernel

/-- A new simulator with the device attached. -/
def overflowSim : Simulator Unit Unit :=
  (((simulatorNew overflowEnv () ()).bind (runCommand overflowEnv (.attachDevice 0))).get
    overflowSim_isSome).2

theorem overflowLoop_isSome : (runLoop overflowEnv 1 overflowSim).isSome := by decide +kernel

theorem overflowRun_isSome :
    (run (simEvent overflowEnv) (loopRoundParts.take 4) overflowSim).isSome := by
  decide +kernel

/-- The state in which the loop looks at the interrupts for the first time. -/
def overflowPending : Simulator Unit Unit :=
  ((run (simEvent overflowEnv) (loopRoundParts.take 4) overflowSim).get overflowRun_isSome).2

theorem overflowStep_isSome :
    (simEvent overflowEnv (.between .checkInterrupts) overflowPending).isSome := by
  decide +kernel

theorem runLoop_priorityNesting_iff_overflow : ∃ k outs running sim',
    run (simEvent overflowEnv) (loopParts k running) overflowSim = some (outs, sim') ∧
    RunDelivers overflowEnv (loopParts k running) overflowSim ∧
    (PriorityNesting overflowEnv (loopParts k running) overflowSim ↔
      Along (simEvent overflowEnv) PriorityInRange (loopParts k running) overflowSim) := by
  obtain ⟨k, outs, -, hrun, hdelivers, hiff⟩ :=
    runLoop_priorityNesting_iff (Option.some_get overflowLoop_isSome).symm
  exact ⟨k, outs, _, _, hrun, hdelivers, hiff⟩

/-- The first round of the loop delivers an interrupt of priority 8 and leaves the priority of the
CPU 0. -/
theorem alert_overflows_priority :
    (runLoop overflowEnv 1 overflowSim).map (fun x => (x.1, x.2.cpu.registers .psr)) =
      some (true, 0x0802) ∧ psrPriority 0x0802 = 0 ∧
    ¬ PriorityNesting overflowEnv (loopParts 1 true) overflowSim := by
  refine ⟨by decide +kernel, by decide, fun h => ?_⟩
  have hparts : loopParts 1 true = loopRoundParts.take 4 ++ [.between .checkInterrupts] := rfl
  rw [hparts] at h
  have hlast : PriorityNesting overflowEnv [.between .checkInterrupts] overflowPending :=
    StepsAlong.of_append h (Option.some_get overflowRun_isSome).symm
  obtain ⟨hstatus, -⟩ := (hlast _ _ (Option.some_get overflowStep_isSome).symm).1 0x80 8
    (by decide +kernel)
  exact absurd hstatus.priority (by decide +kernel)

end Lc3Simulator
