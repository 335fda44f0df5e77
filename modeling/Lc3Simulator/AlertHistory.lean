import Lc3Simulator.Events
import Lc3Simulator.PriorityMap

/-!
# What the devices ask of the interrupt controller

Devices raise interrupts in their callbacks, and callbacks run inside bus accesses, inside
attachments and on input. This file lists the alerts of every event of a simulator and shows that
they, and the request that is taken when one is delivered, are all that happens to the controller.
So a condition on the alerts of a run is a condition on what the devices did so far, and the
controller of the simulator is the priority map of these alerts.

## Main definitions

* `progAlerts` — the alerts of a program of the CPU, in the order of its accesses
* `eventAlerts`, `alertsRaised` — the alerts of an event, and of a run
* `AlertsUsual` — vectors `0..254` and priorities `0..7`
* `UsualQueue` — what every controller satisfies that has seen such alerts only

## Main results

* `simEvent_alerts` — one event, as far as the controller goes
* `run_usualQueue` — runs with such alerts
-/

namespace Lc3Simulator

open Interaction Transition

/-! ### The alerts -/

/-- The vector and the priority of an alert. -/
def HostCall.alert : HostCall → Option (Byte × Byte)
  | .writeOutput _ => none
  | .alertInterrupt vec priority => some (vec, priority)

section Alerts

variable {ω ι α : Type} (env : Env ω ι)

def callbackAlerts (callback : Callback ω α) (devices : ω) : List (Byte × Byte) :=
  match callback devices with
  | none => []
  | some (_, _, calls) => calls.filterMap HostCall.alert

/-- The alerts of the device that has the address, if one has. -/
def registerAlerts (m : Machine ω ι) (address : Word) (callback : Device ω → Callback ω α) :
    List (Byte × Byte) :=
  if (m.bus.memory address).attachmentFlag then
    match busSearch env.libc m.bus address with
    | none => []
    | some attachment => callbackAlerts (callback (env.device attachment.device)) m.devices
  else []

/-- The alerts of a bus access. -/
def accessAlerts (m : Machine ω ι) : BusRequest → List (Byte × Byte)
  | .read address => registerAlerts env m address fun device => device.readRegister address
  | .write address value =>
    registerAlerts env m address fun device => device.writeRegister address value

/-- The alerts of a program of the CPU. -/
def progAlerts : BusProg α → Machine ω ι → List (Byte × Byte)
  | .ret _, _ => []
  | .ask q next, m => accessAlerts env m q ++
    match (initBusAccessor env).handler q m with
    | none => []
    | some x => progAlerts (next x.1) x.2

/-- The alerts of the devices that take a character. -/
def inputAlerts (input : Word) : List DevicePtr → Machine ω ι → List (Byte × Byte)
  | [], _ => []
  | device :: rest, m => ((env.device device).onInput.elim []
      fun onInput => callbackAlerts (onInput input) m.devices) ++
    match callOnInput env input m device with
    | none => []
    | some m => inputAlerts input rest m

/-- The alerts of an event. -/
def eventAlerts : SimEvent → Simulator ω ι → List (Byte × Byte)
  | .execute, sim => progAlerts env (cpuExecute sim.cpu) sim.machine
  | .checkExceptions, sim => progAlerts env (cpuCheckExceptions sim.cpu) sim.machine
  | .between (.attachDevice device), sim =>
    match busAttach env.libc (env.device device) sim.machine.bus device with
    | none => []
    | some (status, _) =>
      if status < 0 then [] else callbackAlerts (env.device device).start sim.machine.devices
  | .between (.writeAddress address value), sim =>
    accessAlerts env sim.machine (.write address value)
  | .between (.updateDevicesInput input), sim =>
    inputAlerts env input (sim.onInputDevices.getD []) sim.machine
  | .between .checkInput, sim =>
    let result := env.deviceIo.getChar sim.machine.deviceIo
    if result.1 ≠ 0 then
      inputAlerts env (result.2.1.signExtend 16) (sim.onInputDevices.getD [])
        { sim.machine with deviceIo := result.2.2 }
    else []
  | .between .checkInterrupts, sim =>
    match accepted sim with
    | none => []
    | some (vec, priority) =>
      progAlerts env (cpuExecuteInterrupt sim.cpu vec priority) sim.machine
  | _, _ => []

/-- The alerts of a run. -/
def alertsRaised : List SimEvent → Simulator ω ι → List (Byte × Byte)
  | [], _ => []
  | e :: events, sim => eventAlerts env e sim ++
    match simEvent env e sim with
    | none => []
    | some x => alertsRaised events x.2

end Alerts

/-! ### One event -/

/-- The controller after some alerts. -/
def interruptControllerAlerts (c : InterruptController) (alerts : List (Byte × Byte)) :
    Option InterruptController :=
  alerts.foldlM (fun c request => interruptControllerAlert c request.1 request.2) c

theorem interruptControllerAlerts_append {c c₁ c₂ : InterruptController}
    {alerts alerts' : List (Byte × Byte)} (h : interruptControllerAlerts c alerts = some c₁)
    (h' : interruptControllerAlerts c₁ alerts' = some c₂) :
    interruptControllerAlerts c (alerts ++ alerts') = some c₂ := by
  rw [interruptControllerAlerts, List.foldlM_append]
  exact Option.bind_eq_some_iff.mpr ⟨c₁, h, h'⟩

section Event

variable {ω ι α : Type} {env : Env ω ι} {m m' : Machine ω ι} {sim sim' : Simulator ω ι}
  {device : DevicePtr}

theorem foldlM_hostCall_alerts {calls : List HostCall}
    (h : calls.foldlM (hostCall env) m = some m') :
    interruptControllerAlerts m.interCont (calls.filterMap HostCall.alert) =
      some m'.interCont := by
  induction calls generalizing m with
  | nil =>
    obtain rfl := Option.some.inj h
    rfl
  | cons call calls ih =>
    rw [List.foldlM_cons] at h
    obtain ⟨m₁, hcall, h⟩ := Option.bind_eq_some_iff.mp h
    cases call with
    | writeOutput output =>
      obtain rfl := Option.some.inj hcall
      have hrest := ih h
      exact hrest
    | alertInterrupt vec priority =>
      obtain ⟨interCont, halert, hcall⟩ := Option.bind_eq_some_iff.mp hcall
      obtain rfl := Option.some.inj hcall
      exact Option.bind_eq_some_iff.mpr ⟨interCont, halert, ih h⟩

theorem runCallback_alerts {callback : Callback ω α} {a : α}
    (h : runCallback env device callback m = some (a, m')) :
    interruptControllerAlerts m.interCont (callbackAlerts callback m.devices) =
      some m'.interCont := by
  obtain ⟨⟨value, devices, calls⟩, hcallback, h⟩ := Option.bind_eq_some_iff.mp h
  obtain ⟨-, -, h⟩ := Option.bind_eq_some_iff.mp h
  obtain ⟨m₁, hcalls, h⟩ := Option.bind_eq_some_iff.mp h
  obtain ⟨-, rfl⟩ := Prod.mk.inj (Option.some.inj h)
  rw [callbackAlerts, hcallback]
  have halerts := foldlM_hostCall_alerts hcalls
  exact halerts

/-- One bus access. -/
theorem handler_alerts {q : BusRequest} {x : BusResponse q × Machine ω ι}
    (h : (initBusAccessor env).handler q m = some x) :
    interruptControllerAlerts m.interCont (accessAlerts env m q) = some x.2.interCont := by
  cases q with
  | read address =>
    replace h : busRead env m address = some x := h
    rw [busRead] at h
    rw [accessAlerts, registerAlerts]
    by_cases hflag : (m.bus.memory address).attachmentFlag = true
    · rw [if_pos hflag] at h ⊢
      obtain ⟨attachment, hsearch, h⟩ := Option.bind_eq_some_iff.mp h
      rw [hsearch]
      exact runCallback_alerts h
    · rw [if_neg hflag] at h ⊢
      obtain rfl := Option.some.inj h
      rfl
  | write address value =>
    obtain ⟨m₁, hwrite, rfl⟩ := Option.map_eq_some_iff.mp h
    replace h : busWrite env m address value = some m₁ := hwrite
    rw [busWrite] at h
    rw [accessAlerts, registerAlerts]
    by_cases hflag : (m.bus.memory address).attachmentFlag = true
    · rw [if_pos hflag] at h ⊢
      obtain ⟨attachment, hsearch, h⟩ := Option.bind_eq_some_iff.mp h
      obtain ⟨⟨u, m₂⟩, hcallback, h⟩ := Option.bind_eq_some_iff.mp h
      obtain rfl := Option.some.inj h
      rw [hsearch]
      exact runCallback_alerts hcallback
    · rw [if_neg hflag] at h ⊢
      obtain rfl := Option.some.inj h
      rfl

/-- A program of the CPU. -/
theorem run_alerts {p : BusProg α} {a : α}
    (h : p.run (initBusAccessor env).handler m = some (a, m')) :
    interruptControllerAlerts m.interCont (progAlerts env p m) = some m'.interCont := by
  induction p generalizing m with
  | ret b =>
    obtain ⟨-, rfl⟩ := Prod.mk.inj (Option.some.inj h)
    rfl
  | ask q next ih =>
    rw [Prog.run_ask] at h
    obtain ⟨x, hq, h⟩ := Option.bind_eq_some_iff.mp h
    rw [progAlerts, hq]
    exact interruptControllerAlerts_append (handler_alerts hq) (ih x.1 h)

theorem inputs_alerts {input : Word} {devices : List DevicePtr}
    (h : devices.foldlM (callOnInput env input) m = some m') :
    interruptControllerAlerts m.interCont (inputAlerts env input devices m) =
      some m'.interCont := by
  induction devices generalizing m with
  | nil =>
    obtain rfl := Option.some.inj h
    rfl
  | cons device devices ih =>
    rw [List.foldlM_cons] at h
    obtain ⟨m₁, hcall, h⟩ := Option.bind_eq_some_iff.mp h
    rw [inputAlerts, hcall]
    obtain ⟨onInput, honInput, hcall⟩ := Option.bind_eq_some_iff.mp hcall
    obtain ⟨⟨u, m₂⟩, hcallback, hcall⟩ := Option.bind_eq_some_iff.mp hcall
    obtain rfl := Option.some.inj hcall
    rw [honInput]
    exact interruptControllerAlerts_append (runCallback_alerts hcallback) (ih h)

theorem eventAlerts_of_idle {b : Between} (hb : b.Idle env sim) :
    eventAlerts env (.between b) sim = [] := by
  cases b with
  | checkInput => simp [eventAlerts, show (env.deviceIo.getChar sim.machine.deviceIo).1 = 0 from hb]
  | checkInterrupts => rw [eventAlerts, show accepted sim = none from hb]
  | _ => first | rfl | exact hb.elim

theorem eventAlerts_of_character {b : Between} {input : Word} {deviceIo : ι}
    (hb : b.character env sim = some (input, deviceIo)) :
    eventAlerts env (.between b) sim =
      inputAlerts env input (sim.onInputDevices.getD []) { sim.machine with deviceIo } := by
  cases b with
  | updateDevicesInput character =>
    obtain ⟨rfl, rfl⟩ := Prod.mk.inj (Option.some.inj hb)
    rfl
  | checkInput =>
    simp only [Between.character] at hb
    simp only [eventAlerts]
    split_ifs at hb ⊢
    obtain ⟨rfl, rfl⟩ := Prod.mk.inj (Option.some.inj hb)
    rfl
  | _ => cases hb

theorem eventAlerts_of_accepted {vec priority : Byte} (h : accepted sim = some (vec, priority)) :
    eventAlerts env (.between .checkInterrupts) sim =
      progAlerts env (cpuExecuteInterrupt sim.cpu vec priority) sim.machine := by
  rw [eventAlerts, h]

/-- The request that an event delivers. -/
def requestDelivered (sim : Simulator ω ι) : SimEvent → Option (Byte × Byte)
  | .between .checkInterrupts => accepted sim
  | _ => none

theorem requestDelivered_of_idle {b : Between} (hb : b.Idle env sim) :
    requestDelivered sim (.between b) = none := by
  cases b with
  | checkInterrupts => exact hb
  | _ => rfl

theorem requestDelivered_of_character {b : Between} {input : Word} {deviceIo : ι}
    (hb : b.character env sim = some (input, deviceIo)) :
    requestDelivered sim (.between b) = none := by
  cases b with
  | checkInterrupts => cases hb
  | _ => rfl

/-- **One event, as far as the controller goes**: its alerts, and the greatest request is taken if
one is delivered. -/
theorem simEvent_alerts {e : SimEvent} {out : Unit} (h : simEvent env e sim = some (out, sim')) :
    ∃ c, interruptControllerAlerts sim.machine.interCont (eventAlerts env e sim) = some c ∧
      (requestDelivered sim e = none ∧ sim'.machine.interCont = c ∨
        (requestDelivered sim e).isSome ∧
          interruptControllerTake c = some sim'.machine.interCont) := by
  cases e with
  | execute =>
    obtain ⟨running, cpu, m, hrun, rfl⟩ := simEvent_execute h
    exact ⟨m.interCont, run_alerts hrun, Or.inl ⟨rfl, rfl⟩⟩
  | checkExceptions =>
    obtain ⟨cpu, m, hrun, rfl⟩ := simEvent_checkExceptions h
    exact ⟨m.interCont, run_alerts hrun, Or.inl ⟨rfl, rfl⟩⟩
  | between b =>
    cases between_step (simEvent_between h) with
    | idle deviceIo hidle =>
      exact ⟨_, by rw [eventAlerts_of_idle hidle]; rfl,
        Or.inl ⟨requestDelivered_of_idle hidle, rfl⟩⟩
    | register hreg => rcases hreg with rfl | ⟨-, rfl⟩ <;> exact ⟨_, rfl, Or.inl ⟨rfl, rfl⟩⟩
    | refused hattach hfail =>
      refine ⟨_, ?_, Or.inl ⟨rfl, rfl⟩⟩
      simp only [eventAlerts, hattach, if_pos hfail]
      rfl
    | attached hattach hsuccess hstart =>
      obtain ⟨⟨u, m⟩, hcallback, hstart⟩ := Option.bind_eq_some_iff.mp hstart
      obtain rfl := Option.some.inj hstart
      have halerts := runCallback_alerts hcallback
      rw [simulatorCheckDeviceSubscriptions_machine]
      refine ⟨m.interCont, ?_, Or.inl ⟨rfl, rfl⟩⟩
      simp only [eventAlerts, hattach, if_neg hsuccess]
      exact halerts
    | @wrote address value machine hwrite =>
      have hhandler : (initBusAccessor env).handler (.write address value) sim.machine =
          some ((), machine) := Option.map_eq_some_iff.mpr ⟨machine, hwrite, rfl⟩
      exact ⟨machine.interCont, handler_alerts hhandler, Or.inl ⟨rfl, rfl⟩⟩
    | input hcharacter hinput =>
      have halerts := inputs_alerts hinput
      exact ⟨_, by rw [eventAlerts_of_character hcharacter]; exact halerts,
        Or.inl ⟨requestDelivered_of_character hcharacter, rfl⟩⟩
    | delivered haccepted _ hdeliver htake =>
      rw [← cpuExecuteInterrupt_eq] at hdeliver
      exact ⟨_, by rw [eventAlerts_of_accepted haccepted]; exact run_alerts hdeliver,
        Or.inr ⟨by rw [requestDelivered, haccepted]; rfl, htake⟩⟩

end Event

/-! ### Alerts in range -/

/-- Vectors `0..254` and priorities `0..7`. -/
def UsualAlert (request : Byte × Byte) : Prop :=
  request.1.toNat ≤ 254 ∧ request.2.toNat ≤ 7

instance : DecidablePred UsualAlert := fun request =>
  inferInstanceAs (Decidable (request.1.toNat ≤ 254 ∧ request.2.toNat ≤ 7))

/-- The devices raise usual alerts only, in the whole run. -/
def AlertsUsual {ω ι : Type} (env : Env ω ι) (events : List SimEvent) (sim : Simulator ω ι) :
    Prop :=
  ∀ request ∈ alertsRaised env events sim, UsualAlert request

/-- What every controller satisfies that has seen usual alerts only. -/
structure UsualQueue (c : InterruptController) : Prop where
  queue : QueueInvariant c
  priority_le : ∀ r ∈ pending c, (ofLex r).1 ≤ 7

namespace Requests

/-- The requests after some alerts. -/
def alerts (s : Requests) (alerts : List (Byte × Byte)) : Requests :=
  alerts.foldl (fun s request => s.alert request.1.toNat request.2.toNat) s

theorem mem_alert_of_mem {s : Requests} {vec priority : ℕ} {r : ℕ ×ₗ ℕ} (h : r ∈ s) :
    r ∈ s.alert vec priority := by
  rw [Requests.alert]
  split_ifs
  · exact h
  · exact Finset.mem_insert_of_mem h

theorem eq_or_mem_of_mem_alert {s : Requests} {vec priority : ℕ} {r : ℕ ×ₗ ℕ}
    (h : r ∈ s.alert vec priority) : r = requestKey priority vec ∨ r ∈ s := by
  rw [Requests.alert] at h
  split_ifs at h
  · exact Or.inr h
  · exact Finset.mem_insert.mp h

/-- Alerts drop no request. -/
theorem mem_alerts_of_mem {alerts : List (Byte × Byte)} {s : Requests} {r : ℕ ×ₗ ℕ} (h : r ∈ s) :
    r ∈ s.alerts alerts := by
  induction alerts generalizing s with
  | nil => exact h
  | cons request alerts ih => exact ih (mem_alert_of_mem h)

end Requests

theorem usualQueue_new : UsualQueue interruptControllerNew where
  queue := queueInvariant_new
  priority_le := by
    rw [pending_eq_empty rfl]
    exact fun r hr => absurd hr (Finset.notMem_empty r)

theorem UsualQueue.alert {c : InterruptController} (h : UsualQueue c) {request : Byte × Byte}
    (husual : UsualAlert request) :
    ∃ c', interruptControllerAlert c request.1 request.2 = some c' ∧ UsualQueue c' ∧
      pending c' = (pending c).alert request.1.toNat request.2.toNat := by
  obtain ⟨c', halert, hqueue, hpending⟩ := interruptControllerAlert_refines h.queue
    (Nat.lt_succ_of_le husual.1) (husual.2.trans_lt (by decide : 7 < 255))
  refine ⟨c', halert, ⟨hqueue, fun r hr => ?_⟩, hpending⟩
  rw [hpending] at hr
  rcases Requests.eq_or_mem_of_mem_alert hr with rfl | hold
  · exact husual.2
  · exact h.priority_le r hold

theorem UsualQueue.take {c : InterruptController} (h : UsualQueue c) :
    ∃ c', interruptControllerTake c = some c' ∧ UsualQueue c' ∧ pending c' = (pending c).take := by
  obtain ⟨c', htake, hqueue, hpending⟩ := interruptControllerTake_refines h.queue
  refine ⟨c', htake, ⟨hqueue, fun r hr => ?_⟩, hpending⟩
  rw [hpending] at hr
  exact h.priority_le r (Finset.mem_filter.mp hr).1

/-- The controller after usual alerts holds the requests after these alerts. -/
theorem UsualQueue.alerts {alerts : List (Byte × Byte)} {c : InterruptController}
    (h : UsualQueue c) (husual : ∀ request ∈ alerts, UsualAlert request) :
    ∃ c', interruptControllerAlerts c alerts = some c' ∧ UsualQueue c' ∧
      pending c' = (pending c).alerts alerts := by
  induction alerts generalizing c with
  | nil => exact ⟨c, rfl, h, rfl⟩
  | cons request alerts ih =>
    obtain ⟨c₁, halert, hc₁, hpending₁⟩ := h.alert (husual request List.mem_cons_self)
    obtain ⟨c', hrest, hc', hpending⟩ :=
      ih hc₁ fun r hr => husual r (List.mem_cons_of_mem request hr)
    refine ⟨c', Option.bind_eq_some_iff.mpr ⟨c₁, halert, hrest⟩, hc', ?_⟩
    rw [hpending, hpending₁]
    rfl

section Runs

variable {ω ι : Type} {env : Env ω ι} {sim sim' : Simulator ω ι}

/-- One event keeps the invariant. -/
theorem simEvent_usualQueue {e : SimEvent} {out : Unit} (h : UsualQueue sim.machine.interCont)
    (husual : ∀ request ∈ eventAlerts env e sim, UsualAlert request)
    (hstep : simEvent env e sim = some (out, sim')) : UsualQueue sim'.machine.interCont := by
  obtain ⟨c, halerts, hc⟩ := simEvent_alerts hstep
  obtain ⟨c₁, halerts₁, hc₁, -⟩ := h.alerts husual
  obtain rfl := Option.some.inj (halerts.symm.trans halerts₁)
  rcases hc with ⟨-, heq⟩ | ⟨-, htake⟩
  · exact heq ▸ hc₁
  · obtain ⟨c₂, htake₂, hc₂, -⟩ := hc₁.take
    exact Option.some.inj (htake₂.symm.trans htake) ▸ hc₂

/-- The alerts of a run, at its first event and after it. -/
theorem AlertsUsual.cons {e : SimEvent} {events : List SimEvent} {out : Unit}
    (h : AlertsUsual env (e :: events) sim) (hstep : simEvent env e sim = some (out, sim')) :
    (∀ request ∈ eventAlerts env e sim, UsualAlert request) ∧ AlertsUsual env events sim' := by
  rw [AlertsUsual, alertsRaised, hstep] at h
  exact ⟨fun r hr => h r (List.mem_append_left _ hr), fun r hr => h r (List.mem_append_right _ hr)⟩

/-- **Runs with usual alerts** keep the invariant. -/
theorem run_usualQueue {events : List SimEvent} {outs : List Unit}
    (h : UsualQueue sim.machine.interCont) (husual : AlertsUsual env events sim)
    (hrun : run (simEvent env) events sim = some (outs, sim')) :
    UsualQueue sim'.machine.interCont := by
  induction events generalizing sim outs with
  | nil =>
    obtain ⟨-, rfl⟩ := Prod.mk.inj (Option.some.inj hrun)
    exact h
  | cons e events ih =>
    obtain ⟨out, sim₁, outs', hstep, hrest, -⟩ := run_cons_eq_some hrun
    obtain ⟨hfirst, hlater⟩ := husual.cons hstep
    exact ih (simEvent_usualQueue h hfirst hstep) hlater hrest

end Runs

end Lc3Simulator
