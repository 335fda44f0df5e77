import Lc3Simulator.AlertHistory

/-!
# Arbitration between the CPU and the pending requests

When the simulator looks at the interrupts, it compares the greatest pending request with the
priority of the CPU, has the CPU deliver it, and then takes the greatest pending request from the
controller. The request that is taken is the one that was delivered, unless one that outranks it
came in between: the delivery pushes two words and reads the vector through the bus, and a device
that has one of these addresses may raise an interrupt there. Then the controller forgets a request
that nobody delivered, and keeps the one that was.

The fetch that follows is preceded by one more access, to the clock; a device with that address
may raise an interrupt as well.

## Main definitions

* `DeliversRequest`, `RunDelivers` — the CPU executes an interrupt, and it executes those accepted
* `Outranked` — some pending request is above the priority of the CPU
* `Arbitrates` — what a look at the interrupts is for
* `FetchSettled` — the next instruction is fetched while no request outranks the CPU
* `NoneOutranks`, `ClockQuiet` — no device raises a request that comes too late
* `Arbitration`, `Undisturbed` — the same for runs

## Main results

* `arbitrates_iff` — one call
* `arbitration_iff` — every run
* `check_takes_other` — a device at an address of the stack
-/

namespace Lc3Simulator

open Interaction Transition

section Arbitration

variable {ω ι : Type} {env : Env ω ι} {sim sim' : Simulator ω ι}

/-! ### What a look at the interrupts is for -/

/-- Some pending request has a priority above the one in the status word. -/
def Outranked (c : InterruptController) (psr : Word) : Prop :=
  ∃ r ∈ pending c, (psrPriority psr).toNat < (ofLex r).1

/-- From `sim` to `sim'` the CPU has executed the interrupt, and nothing else has changed but the
controller. -/
def DeliversRequest (env : Env ω ι) (vec priority : Byte) (sim sim' : Simulator ω ι) : Prop :=
  ∃ cpu m interCont, runOnBus env (cpuExecuteInterrupt sim.cpu vec priority) sim.machine =
    some (cpu, m) ∧ sim' = { sim with cpu, machine := { m with interCont } }

/-- In a look at the interrupts the CPU executes the request that is accepted, and nothing happens
if none is. -/
def LooksDeliver (env : Env ω ι) (e : SimEvent) (sim sim' : Simulator ω ι) : Prop :=
  e = .between .checkInterrupts →
    (accepted sim = none → sim' = sim) ∧
    ∀ vec priority, accepted sim = some (vec, priority) → DeliversRequest env vec priority sim sim'

/-- All looks of a run are like that. -/
def RunDelivers (env : Env ω ι) : List SimEvent → Simulator ω ι → Prop :=
  StepsAlong (simEvent env) fun e _ sim sim' => LooksDeliver env e sim sim'

theorem simEvent_looksDeliver {e : SimEvent} {out : Unit}
    (h : simEvent env e sim = some (out, sim')) : LooksDeliver env e sim sim' := by
  rintro rfl
  have hcheck : simulatorCheckInterrupts env sim = some sim' := simEvent_between h
  rcases simulatorCheckInterrupts_cases hcheck with
    ⟨hnone, heq⟩ | ⟨vec, priority, cpu, m, interCont, haccepted, -, hdeliver, -, heq⟩
  · refine ⟨fun _ => heq, fun vec priority hsome => ?_⟩
    exact absurd (hnone.symm.trans hsome) (by simp)
  · refine ⟨fun hnone => absurd (haccepted.symm.trans hnone) (by simp),
      fun vec' priority' hsome => ?_⟩
    obtain ⟨rfl, rfl⟩ := Prod.mk.inj (Option.some.inj (haccepted.symm.trans hsome))
    rw [← cpuExecuteInterrupt_eq] at hdeliver
    exact ⟨cpu, m, interCont, hdeliver, heq⟩

theorem runDelivers (env : Env ω ι) (events : List SimEvent) (sim : Simulator ω ι) :
    RunDelivers env events sim := by
  have hlooks : ∀ (e : SimEvent) (rest : List SimEvent) (sim : Simulator ω ι) (out : Unit)
      (sim' : Simulator ω ι), simEvent env e sim = some (out, sim') →
      LooksDeliver env e sim sim' := fun _ _ _ _ _ hstep => simEvent_looksDeliver hstep
  exact stepsAlong_of_forall hlooks events sim

/-- An interrupt is delivered exactly if a pending request outranks the CPU. It is the greatest one,
it and no other leaves the pending requests, and then none outranks the CPU. Otherwise nothing
happens. -/
structure Arbitrates (env : Env ω ι) (sim sim' : Simulator ω ι) : Prop where
  delivers_iff : (∃ vec priority : Byte,
    requestKey priority.toNat vec.toNat ∈ pending sim.machine.interCont ∧
      DeliversRequest env vec priority sim sim') ↔
    Outranked sim.machine.interCont (sim.cpu.registers .psr)
  greatest : Outranked sim.machine.interCont (sim.cpu.registers .psr) →
    ∃ vec priority : Byte,
      (pending sim.machine.interCont).greatest = (requestKey priority.toNat vec.toNat : ℕ ×ₗ ℕ) ∧
      DeliversRequest env vec priority sim sim' ∧
      ∀ r ∈ pending sim.machine.interCont,
        r ∈ pending sim'.machine.interCont ↔ r ≠ requestKey priority.toNat vec.toNat
  settled : ¬ Outranked sim'.machine.interCont (sim'.cpu.registers .psr)
  unchanged : ¬ Outranked sim.machine.interCont (sim.cpu.registers .psr) → sim' = sim

/-- No request that a device raises during the delivery, and that is not dropped since its vector
is pending, outranks the request that is delivered. -/
def NoneOutranks (env : Env ω ι) (sim : Simulator ω ι) : Prop :=
  ∀ vec priority, accepted sim = some (vec, priority) →
    ∀ r ∈ (pending sim.machine.interCont).alerts
      (progAlerts env (cpuExecuteInterrupt sim.cpu vec priority) sim.machine),
      r ≤ requestKey priority.toNat vec.toNat

theorem mem_of_greatest_eq {s : Requests} {r : ℕ ×ₗ ℕ} (h : s.greatest = (r : ℕ ×ₗ ℕ)) : r ∈ s :=
  Finset.mem_of_max h

theorem le_of_greatest_eq {s : Requests} {r r' : ℕ ×ₗ ℕ} (h : s.greatest = (r : ℕ ×ₗ ℕ))
    (hr' : r' ∈ s) : r' ≤ r :=
  Finset.le_max_of_eq hr' h

/-- The test of the root decides for all pending requests. -/
theorem accepted_cases (h : QueueInvariant sim.machine.interCont) :
    (accepted sim = none ∧ ¬ Outranked sim.machine.interCont (sim.cpu.registers .psr)) ∨
    ∃ vec priority, accepted sim = some (vec, priority) ∧
      Outranked sim.machine.interCont (sim.cpu.registers .psr) ∧
      (pending sim.machine.interCont).greatest =
        (requestKey priority.toNat vec.toNat : ℕ ×ₗ ℕ) := by
  obtain ⟨request, hpeek, hgreatest⟩ := interruptControllerPeek_refines h
  match request with
  | none =>
    refine Or.inl ⟨by simp [accepted, hpeek], ?_⟩
    rintro ⟨r, hr, -⟩
    rw [Finset.max_eq_bot.mp hgreatest.symm] at hr
    exact absurd hr (Finset.notMem_empty r)
  | some (vec, priority) =>
    by_cases hlt : psrPriority (sim.cpu.registers .psr) < priority.setWidth 16
    · have hpriority : (psrPriority (sim.cpu.registers .psr)).toNat < priority.toNat := by
        rw [BitVec.lt_def, BitVec.toNat_setWidth] at hlt
        omega
      exact Or.inr ⟨vec, priority, by simp [accepted, hpeek, hlt],
        ⟨_, mem_of_greatest_eq hgreatest.symm, hpriority⟩, hgreatest.symm⟩
    · refine Or.inl ⟨by simp [accepted, hpeek, BitVec.not_lt.mp hlt], ?_⟩
      rintro ⟨r, hr, hr'⟩
      have hle : (ofLex r).1 ≤ priority.toNat :=
        Prod.Lex.monotone_fst_ofLex (le_of_greatest_eq hgreatest.symm hr)
      rw [BitVec.lt_def, BitVec.toNat_setWidth] at hlt
      omega

/-- A delivery at a priority of three bits changes the status word or the stack pointer. -/
theorem DeliversRequest.ne {vec priority : Byte} (h : DeliversRequest env vec priority sim sim')
    (hpriority : priority.toNat ≤ 7) : sim' ≠ sim := by
  rintro rfl
  obtain ⟨cpu, m, interCont, hrun, heq⟩ := h
  rw [runOnBus, cpuExecuteInterrupt_eq] at hrun
  obtain ⟨pc, hregs⟩ := run_deliver_registers hrun
  have hcpu : cpu = sim'.cpu := (congrArg Simulator.cpu heq).symm
  have hle : (priority.setWidth 16 : Word) ≤ 7 := by
    rw [BitVec.le_def, BitVec.toNat_setWidth]
    exact (Nat.mod_le _ _).trans hpriority
  have hsame : entryRegisters sim'.cpu.registers (handlerPsr (priority.setWidth 16)) pc =
      sim'.cpu.registers := hregs.symm.trans (congrArg Cpu.registers hcpu)
  rcases entryRegisters_ne pc hle with hne | hne
  · exact hne (congrFun hsame .psr)
  · exact hne (congrFun hsame .r6)

/-- A look that finds nothing to deliver. -/
theorem arbitrates_of_not_outranked (h : UsualQueue sim.machine.interCont)
    (hnot : ¬ Outranked sim.machine.interCont (sim.cpu.registers .psr)) :
    Arbitrates env sim sim where
  delivers_iff := by
    refine iff_of_false ?_ hnot
    rintro ⟨vec, priority, hmem, hdelivers⟩
    exact hdelivers.ne (h.priority_le _ hmem) rfl
  greatest hout := absurd hout hnot
  settled := hnot
  unchanged _ := rfl

/-! ### One call -/

/-- A delivery, with the requests at the time when one is taken. -/
theorem simulatorCheckInterrupts_delivers (h : UsualQueue sim.machine.interCont)
    (husual : ∀ request ∈ eventAlerts env (.between .checkInterrupts) sim, UsualAlert request)
    {vec priority : Byte} (haccepted : accepted sim = some (vec, priority))
    (hcheck : simulatorCheckInterrupts env sim = some sim') :
    DeliversRequest env vec priority sim sim' ∧
      sim'.cpu.registers .psr = handlerPsr (priority.setWidth 16) ∧
      pending sim'.machine.interCont = ((pending sim.machine.interCont).alerts
        (progAlerts env (cpuExecuteInterrupt sim.cpu vec priority) sim.machine)).take := by
  rcases simulatorCheckInterrupts_cases hcheck with
    ⟨hnone, -⟩ | ⟨vec', priority', cpu, m, interCont, haccepted', -, hdeliver, htake, rfl⟩
  · exact absurd (hnone.symm.trans haccepted) (by simp)
  · obtain ⟨rfl, rfl⟩ := Prod.mk.inj (Option.some.inj (haccepted'.symm.trans haccepted))
    obtain ⟨-, hentry⟩ := run_deliver_entry hdeliver
    rw [← cpuExecuteInterrupt_eq] at hdeliver
    rw [eventAlerts_of_accepted haccepted] at husual
    obtain ⟨c, halerts, hc, hpending⟩ := h.alerts husual
    obtain rfl := Option.some.inj (halerts.symm.trans (run_alerts hdeliver))
    obtain ⟨c', htake', -, hpending'⟩ := hc.take
    obtain rfl := Option.some.inj (htake.symm.trans htake')
    exact ⟨⟨cpu, m, interCont, hdeliver, rfl⟩, hentry.psr, hpending'.trans (by rw [hpending])⟩

/-- The priority of the CPU in the handler of a usual request. -/
theorem psrPriority_handlerPsr {priority : Byte} (h : priority.toNat ≤ 7) :
    (psrPriority (handlerPsr (priority.setWidth 16))).toNat = priority.toNat := by
  have hwidth : (priority.setWidth 16 : Word).toNat = priority.toNat := by
    rw [BitVec.toNat_setWidth]
    omega
  have hle : (priority.setWidth 16 : Word) ≤ 7 := by
    rw [BitVec.le_def, hwidth]
    exact h
  rw [(handlerPsr_spec hle).2, hwidth]

/-- **One call.** It arbitrates exactly if no device raises a request during the delivery that
outranks the one that is delivered. -/
theorem arbitrates_iff (h : UsualQueue sim.machine.interCont)
    (husual : ∀ request ∈ eventAlerts env (.between .checkInterrupts) sim, UsualAlert request)
    (hcheck : simulatorCheckInterrupts env sim = some sim') :
    Arbitrates env sim sim' ↔ NoneOutranks env sim := by
  rcases accepted_cases h.queue with
    ⟨hnone, hnot⟩ | ⟨vec, priority, haccepted, hout, hgreatest⟩
  · rcases simulatorCheckInterrupts_cases hcheck with
      ⟨-, rfl⟩ | ⟨vec, priority, -, -, -, haccepted, -⟩
    · refine iff_of_true (arbitrates_of_not_outranked h hnot) fun vec priority haccepted => ?_
      exact absurd (hnone.symm.trans haccepted) (by simp)
    · exact absurd (hnone.symm.trans haccepted) (by simp)
  · obtain ⟨hdelivers, hpsr, hpending⟩ :=
      simulatorCheckInterrupts_delivers h husual haccepted hcheck
    have hmem := mem_of_greatest_eq hgreatest
    have hmem_alerts : requestKey priority.toNat vec.toNat ∈
        (pending sim.machine.interCont).alerts
          (progAlerts env (cpuExecuteInterrupt sim.cpu vec priority) sim.machine) :=
      Requests.mem_alerts_of_mem hmem
    constructor
    · -- A request that outranks the delivered one is taken in its place, and that one stays.
      intro harbitrates vec' priority' haccepted' r hr
      obtain ⟨rfl, rfl⟩ := Prod.mk.inj (Option.some.inj (haccepted'.symm.trans haccepted))
      obtain ⟨vec₁, priority₁, hgreatest₁, -, hleaves⟩ := harbitrates.greatest hout
      have hkey := WithBot.coe_injective (hgreatest₁.symm.trans hgreatest)
      rw [hkey] at hleaves
      have hgone := mt (hleaves _ hmem).mp (not_not.mpr rfl)
      rw [hpending, Requests.take, Finset.mem_filter, not_and, not_not] at hgone
      exact le_of_greatest_eq (hgone hmem_alerts).symm hr
    · intro hnone
      have hserved : ((pending sim.machine.interCont).alerts
          (progAlerts env (cpuExecuteInterrupt sim.cpu vec priority) sim.machine)).greatest =
          (requestKey priority.toNat vec.toNat : ℕ ×ₗ ℕ) :=
        le_antisymm (Finset.max_le fun r hr =>
          WithBot.coe_le_coe.mpr (hnone vec priority haccepted r hr)) (Finset.le_max hmem_alerts)
      have hleft : ∀ r, r ∈ pending sim'.machine.interCont ↔
          r ∈ (pending sim.machine.interCont).alerts
            (progAlerts env (cpuExecuteInterrupt sim.cpu vec priority) sim.machine) ∧
          r ≠ requestKey priority.toNat vec.toNat := by
        intro r
        rw [hpending, Requests.take, Finset.mem_filter, hserved, ne_eq, WithBot.coe_inj]
      refine ⟨iff_of_true ⟨vec, priority, hmem, hdelivers⟩ hout, fun _ => ⟨vec, priority,
        hgreatest, hdelivers, fun r hr => ?_⟩, ?_, fun hnot => absurd hout hnot⟩
      · rw [hleft r]
        exact and_iff_right (Requests.mem_alerts_of_mem hr)
      · rintro ⟨r, hr, hlt⟩
        have hle : (ofLex r).1 ≤ priority.toNat :=
          Prod.Lex.monotone_fst_ofLex (hnone vec priority haccepted r ((hleft r).mp hr).1)
        rw [hpsr, psrPriority_handlerPsr (h.priority_le _ hmem)] at hlt
        exact absurd hle (Nat.not_le.mpr hlt)

/-- A call comes back if the accesses of the delivery do. -/
theorem simulatorCheckInterrupts_isSome (h : UsualQueue sim.machine.interCont)
    (husual : ∀ request ∈ eventAlerts env (.between .checkInterrupts) sim, UsualAlert request)
    (hreturns : ∀ vec priority, accepted sim = some (vec, priority) →
      (runOnBus env (cpuExecuteInterrupt sim.cpu vec priority) sim.machine).isSome) :
    (simulatorCheckInterrupts env sim).isSome := by
  obtain ⟨request, hpeek, -⟩ := interruptControllerPeek_refines h.queue
  rw [simulatorCheckInterrupts, hpeek]
  cases request with
  | none => rfl
  | some request =>
    obtain ⟨vec, priority⟩ := request
    by_cases hle : priority.setWidth 16 ≤ psrPriority (sim.cpu.registers .psr)
    · simp [cpuSignalInterrupt, hle, runOnBus]
    · have haccepted : accepted sim = some (vec, priority) := by
        simp [accepted, hpeek, BitVec.not_le.mp hle]
      obtain ⟨⟨cpu, m⟩, hrun⟩ := Option.isSome_iff_exists.mp (hreturns vec priority haccepted)
      rw [eventAlerts_of_accepted haccepted] at husual
      obtain ⟨c, halerts, hc, -⟩ := h.alerts husual
      obtain rfl := Option.some.inj (halerts.symm.trans (run_alerts hrun))
      obtain ⟨c', htake, -⟩ := hc.take
      simp only [runOnBus] at hrun
      simp [cpuSignalInterrupt, hle, runOnBus, hrun, htake]

/-! ### The fetch -/

/-- The machine when the next instruction is fetched: a tick looks at the clock first. -/
def atFetch (env : Env ω ι) (sim : Simulator ω ι) : Option (Machine ω ι) :=
  (busRead env sim.machine mcrAddr).bind fun x => if clockEnabled x.1 then some x.2 else none

/-- The next instruction is fetched while no pending request outranks the CPU. -/
def FetchSettled (env : Env ω ι) (sim : Simulator ω ι) : Prop :=
  ∀ m, atFetch env sim = some m → ¬ Outranked m.interCont (sim.cpu.registers .psr)

/-- If a device has the address of the clock, it raises nothing there that outranks the CPU. -/
def ClockQuiet (env : Env ω ι) (sim : Simulator ω ι) : Prop :=
  (atFetch env sim).isSome → ∀ r ∈ (pending sim.machine.interCont).alerts
    (accessAlerts env sim.machine (.read mcrAddr)),
    (ofLex r).1 ≤ (psrPriority (sim.cpu.registers .psr)).toNat

/-- The first access of a tick is the one to the clock. -/
theorem eventAlerts_execute (env : Env ω ι) (sim : Simulator ω ι) :
    ∃ alerts, eventAlerts env .execute sim =
      accessAlerts env sim.machine (.read mcrAddr) ++ alerts := by
  rw [eventAlerts, cpuExecute, busAccessRead, Prog.send, Prog.ask_bind, progAlerts]
  exact ⟨_, rfl⟩

theorem fetchSettled_iff (h : UsualQueue sim.machine.interCont)
    (husual : ∀ request ∈ eventAlerts env .execute sim, UsualAlert request) :
    FetchSettled env sim ↔ ClockQuiet env sim := by
  obtain ⟨alerts, hexecute⟩ := eventAlerts_execute env sim
  obtain ⟨c, halerts, -, hpending⟩ :=
    h.alerts fun request hrequest => husual request (hexecute ▸ List.mem_append_left _ hrequest)
  have hclock : ∀ m, atFetch env sim = some m → m.interCont = c := by
    intro m hm
    obtain ⟨⟨word, m₁⟩, hread, hm⟩ := Option.bind_eq_some_iff.mp hm
    have hm₁ : m₁ = m := by
      by_cases hword : clockEnabled word = true
      · simpa [hword] using hm
      · simp [hword] at hm
    have hhandler : (initBusAccessor env).handler (.read mcrAddr) sim.machine =
        some (word, m₁) := hread
    exact hm₁ ▸ Option.some.inj ((handler_alerts hhandler).symm.trans halerts)
  constructor
  · intro hsettled hsome r hr
    obtain ⟨m, hm⟩ := Option.isSome_iff_exists.mp hsome
    by_contra hlt
    refine hsettled m hm ⟨r, ?_, Nat.not_le.mp hlt⟩
    rw [hclock m hm, hpending]
    exact hr
  · rintro hquiet m hm ⟨r, hr, hlt⟩
    rw [hclock m hm, hpending] at hr
    exact absurd (hquiet (Option.isSome_iff_exists.mpr ⟨m, hm⟩) r hr) (Nat.not_le.mpr hlt)

/-! ### Every run -/

/-- Every look at the interrupts arbitrates, and if a tick follows, it fetches its instruction while
no request outranks the CPU. -/
def Arbitration (env : Env ω ι) : List SimEvent → Simulator ω ι → Prop :=
  StepsAlong (simEvent env) fun e rest sim sim' => e = .between .checkInterrupts →
    Arbitrates env sim sim' ∧ (rest.head? = some .execute → FetchSettled env sim')

/-- No device raises a request that comes too late for a look at the interrupts: during the
delivery, above the request that is delivered; or above the CPU, when a tick that follows looks at
the clock. -/
def Undisturbed (env : Env ω ι) : List SimEvent → Simulator ω ι → Prop :=
  StepsAlong (simEvent env) fun e rest sim sim' => e = .between .checkInterrupts →
    NoneOutranks env sim ∧ (rest.head? = some .execute → ClockQuiet env sim')

/-- From a state with a usual queue on. -/
theorem run_arbitration_iff {events : List SimEvent} (h : UsualQueue sim.machine.interCont)
    (husual : AlertsUsual env events sim) :
    Arbitration env events sim ↔ Undisturbed env events sim := by
  refine stepsAlong_iff
    (J := fun events sim => UsualQueue sim.machine.interCont ∧ AlertsUsual env events sim)
    (fun e rest sim out sim' hJ hstep => ?_) (fun e rest sim out sim' hJ hstep => ?_) ⟨h, husual⟩
  · obtain ⟨hfirst, hlater⟩ := hJ.2.cons hstep
    exact ⟨simEvent_usualQueue hJ.1 hfirst hstep, hlater⟩
  · obtain ⟨hfirst, hlater⟩ := hJ.2.cons hstep
    have hqueue := simEvent_usualQueue hJ.1 hfirst hstep
    refine forall_congr' fun he => and_congr ?_ (forall_congr' fun hhead => ?_)
    · subst he
      obtain ⟨sim₁, hcheck, heq⟩ := Option.map_eq_some_iff.mp hstep
      obtain ⟨-, rfl⟩ := Prod.mk.inj heq
      exact arbitrates_iff hJ.1 hfirst hcheck
    · obtain ⟨later, rfl⟩ := List.head?_eq_some_iff.mp hhead
      exact fetchSettled_iff hqueue fun request hrequest =>
        hlater request (List.mem_append_left _ hrequest)

/-- **Arbitration.** In every run of a new simulator with usual alerts only, every look at the
interrupts arbitrates, and every fetch that follows one finds the CPU outranked by no request,
exactly when no device raises a request that outranks the one being delivered, or the CPU when it
looks at the clock. The iterations of the run command are such runs, in which every fetch but the
first follows a look at the interrupts; and a look comes back if the accesses of its delivery do. -/
theorem arbitration_iff {devices : ω} {deviceIo : ι} {sim₀ : Simulator ω ι}
    {events : List SimEvent} {outs : List Unit}
    (hnew : simulatorNew env devices deviceIo = some sim₀)
    (hrun : run (simEvent env) events sim₀ = some (outs, sim))
    (husual : AlertsUsual env events sim₀) :
    (Arbitration env events sim₀ ↔ Undisturbed env events sim₀) ∧
    (∀ n running sim', runLoop env n sim = some (running, sim') →
      ∃ k outs', (running = true → k = n) ∧
        run (simEvent env) (loopParts k running) sim = some (outs', sim') ∧
        (AlertsUsual env (loopParts k running) sim →
          (Arbitration env (loopParts k running) sim ↔
            Undisturbed env (loopParts k running) sim))) ∧
    (AlertsUsual env [.between .checkInterrupts] sim →
      (∀ vec priority, accepted sim = some (vec, priority) →
        (runOnBus env (cpuExecuteInterrupt sim.cpu vec priority) sim.machine).isSome) →
      (simulatorCheckInterrupts env sim).isSome) := by
  have hqueue₀ : UsualQueue sim₀.machine.interCont := by
    rw [(simulatorNew_eq_some hnew).2.2]
    exact usualQueue_new
  have hqueue := run_usualQueue hqueue₀ husual hrun
  refine ⟨run_arbitration_iff hqueue₀ husual, fun n running sim' hloop => ?_,
    fun hlook hreturns => ?_⟩
  · obtain ⟨k, outs', -, hk, hparts⟩ := runLoop_parts hloop
    exact ⟨k, outs', hk, hparts, run_arbitration_iff hqueue⟩
  · refine simulatorCheckInterrupts_isSome hqueue (fun request hrequest => ?_) hreturns
    exact hlook request (List.mem_append_left _ hrequest)

end Arbitration

/-! ### A request that nobody delivers -/

/-- A device that raises an interrupt on every character, and one with a higher priority whenever
its register is written. -/
def noisyEnv : Env Unit Unit where
  libc := SortSearch.bisecting _
  device _ := { inertDevice with
    writeRegister := fun _ _ _ => some ((), (), [.alertInterrupt 0x90 7])
    onInput := some fun _ _ => some ((), (), [.alertInterrupt 0x80 4])
    getAddresses := [0x2FFF] }
  deviceIo := silentIo

theorem noisyNew_isSome : (simulatorNew noisyEnv () ()).isSome := by decide +kernel

def noisyNew : Simulator Unit Unit := (simulatorNew noisyEnv () ()).get noisyNew_isSome

/-- Attach the device, point the stack at its register, and type a character. -/
def noisyEvents : List SimEvent :=
  [.between (.attachDevice 0), .between (.writeRegister .r6 0x3000),
    .between (.updateDevicesInput 0x41)]

theorem noisyRun_isSome : (run (simEvent noisyEnv) noisyEvents noisyNew).isSome := by
  decide +kernel

/-- The simulator with the request of the character pending. -/
def noisySim : Simulator Unit Unit :=
  ((run (simEvent noisyEnv) noisyEvents noisyNew).get noisyRun_isSome).2

theorem noisyCheck_isSome : (simulatorCheckInterrupts noisyEnv noisySim).isSome := by
  decide +kernel

/-- The simulator after the look at the interrupts. -/
def noisyAfter : Simulator Unit Unit :=
  (simulatorCheckInterrupts noisyEnv noisySim).get noisyCheck_isSome

theorem noisy_usual :
    AlertsUsual noisyEnv (noisyEvents ++ [.between .checkInterrupts]) noisyNew := by
  have halerts : alertsRaised noisyEnv (noisyEvents ++ [.between .checkInterrupts]) noisyNew =
      [(0x80, 4), (0x90, 7)] := by decide +kernel
  intro request hrequest
  rw [halerts] at hrequest
  simp only [List.mem_cons, List.not_mem_nil, or_false] at hrequest
  rcases hrequest with rfl | rfl <;> decide

theorem noisyAll_isSome : (run (simEvent noisyEnv) (noisyEvents ++ [.between .checkInterrupts])
    noisyNew).isSome := by
  decide +kernel

theorem arbitration_iff_noisy :
    Arbitration noisyEnv (noisyEvents ++ [.between .checkInterrupts]) noisyNew ↔
      Undisturbed noisyEnv (noisyEvents ++ [.between .checkInterrupts]) noisyNew :=
  (arbitration_iff (Option.some_get noisyNew_isSome).symm
    (Option.some_get noisyAll_isSome).symm noisy_usual).1

/-- The write of the status word to the stack raises the request of vector `0x90`. The CPU enters
the handler of the character, the controller forgets the other request, and the one of the character
is still pending. -/
theorem check_takes_other :
    (run (simEvent noisyEnv) noisyEvents noisyNew).map Prod.snd = some noisySim ∧
    AlertsUsual noisyEnv (noisyEvents ++ [.between .checkInterrupts]) noisyNew ∧
    simulatorCheckInterrupts noisyEnv noisySim = some noisyAfter ∧
    noisyAfter.cpu.registers .psr = 0x0402 ∧
    pending noisySim.machine.interCont = {requestKey 4 0x80} ∧
    pending noisyAfter.machine.interCont = {requestKey 4 0x80} ∧
    ¬ Arbitrates noisyEnv noisySim noisyAfter := by
  have hbefore : pending noisySim.machine.interCont = {requestKey 4 0x80} := by decide +kernel
  have hafter : pending noisyAfter.machine.interCont = {requestKey 4 0x80} := by decide +kernel
  have hout : Outranked noisySim.machine.interCont (noisySim.cpu.registers .psr) :=
    ⟨requestKey 4 0x80, hbefore ▸ Finset.mem_singleton_self _, by decide +kernel⟩
  refine ⟨congrArg (Option.map Prod.snd) (Option.some_get noisyRun_isSome).symm, noisy_usual,
    (Option.some_get noisyCheck_isSome).symm, by decide +kernel, hbefore, hafter, fun h => ?_⟩
  obtain ⟨vec, priority, hgreatest, -, hleaves⟩ := h.greatest hout
  rw [hbefore, hafter] at hleaves
  rw [hbefore] at hgreatest
  have hkey := Finset.mem_singleton.mp (mem_of_greatest_eq hgreatest)
  exact (hleaves _ (Finset.mem_singleton_self _)).mp (Finset.mem_singleton_self _) hkey.symm

end Lc3Simulator
