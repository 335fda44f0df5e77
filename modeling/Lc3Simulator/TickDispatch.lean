import Lc3Simulator.Subscriptions

/-!
# Ticks that reach no device

A device may ask to be called in every round of a run. The loop that should call it takes the
address of a slot of the list for the device, so that the call leads nowhere as soon as one device
asks for it. No device of the repository does.

## Main definitions

* `tickCalls` — the devices whose `on_tick` is called
* `TicksDispatched` — in a round they are the attached devices that declare it
* `ReachesDispatch` — a run reaches the loop at all

## Main results

* `simulatorUpdateDevicesOnTick_eq` — the calls are what `simulator_update_devices_on_tick` carries
  out
* `ticksDispatched_iff` — all runs dispatch as they should if and only if no attached device
  declares `on_tick`, or the loop is never reached
* `ticksDispatched_broken` — one device that declares it
-/

namespace Lc3Simulator

open Transition

variable {ω ι : Type} {env : Env ω ι} {sim : Simulator ω ι} {attached : List DevicePtr}

/-! ### The calls -/

/-- `cur_device->on_tick(cur_device)`, for a pointer to a device. -/
def callOnTick (env : Env ω ι) (m : Machine ω ι) (device : DevicePtr) : Option (Machine ω ι) := do
  let onTick ← (env.device device).onTick
  let result ← runCallback env device onTick m
  return result.2

/-- The devices whose `on_tick` is called in `simulator_update_devices_on_tick`, in order. -/
def tickCalls (sim : Simulator ω ι) : Option (List DevicePtr) :=
  match sim.onTickDevices with
  | none => some []
  | some onTickDevices => tickTargets onTickDevices

/-- Carry out some calls. -/
def performTicks (env : Env ω ι) (sim : Simulator ω ι) (devices : List DevicePtr) :
    Option (Simulator ω ι) :=
  (devices.foldlM (callOnTick env) sim.machine).map fun machine => { sim with machine }

/-- **The calls are what `simulator_update_devices_on_tick` carries out.** -/
theorem simulatorUpdateDevicesOnTick_eq (env : Env ω ι) (sim : Simulator ω ι) :
    simulatorUpdateDevicesOnTick sim = (tickCalls sim).bind (performTicks env sim) := by
  obtain ⟨cpu, machine, onInputDevices, onTickDevices⟩ := sim
  cases onTickDevices with
  | none => rfl
  | some devices =>
    cases devices with
    | nil => rfl
    | cons device devices =>
      rw [tickCalls]
      simp only [tickTargets_eq, if_neg (List.cons_ne_nil device devices)]
      rfl

/-- The loop is right for the empty list only. -/
theorem tickTargets_eq_inputTargets_iff (list : List DevicePtr) :
    tickTargets list = inputTargets list ↔ list = [] := by
  rw [tickTargets_eq, inputTargets_eq]
  by_cases h : list = [] <;> simp [h]

theorem tickCalls_of_subscribed (hsubscribed : Subscribed env attached sim) :
    tickCalls sim = if attached.filter (takesTicks env) = [] then some [] else none := by
  rw [tickCalls, hsubscribed.ticks]
  cases attached.filter (takesTicks env) with
  | nil => rfl
  | cons device devices => exact tickTargets_eq _

/-! ### Every round of every run -/

/-- If a round reaches the loop, it calls the attached devices that declare `on_tick`, each once and
in the order in which they were attached, and nothing else. -/
def TicksDispatched (env : Env ω ι) (attached : List DevicePtr) (sim : Simulator ω ι) : Prop :=
  ∀ sim', simulatorCheckInput env sim = some sim' →
    tickCalls sim' = some (attached.filter (takesTicks env))

/-- The first round of a run reaches the loop. -/
def ReachesDispatch (env : Env ω ι) (sim : Simulator ω ι) : Prop :=
  ∃ sim₁ sim₂, tick env sim = some (true, sim₁) ∧ simulatorCheckInput env sim₁ = some sim₂

theorem filter_takesTicks_eq_nil_iff :
    attached.filter (takesTicks env) = [] ↔
      ∀ device ∈ attached, (env.device device).onTick = none := by
  rw [List.filter_eq_nil_iff]
  simp [takesTicks]

theorem ticksDispatched_of_none (hnone : ∀ device ∈ attached, (env.device device).onTick = none)
    (hsubscribed : Subscribed env attached sim) : TicksDispatched env attached sim := by
  intro sim' hinput
  have hlists : SameLists sim sim' :=
    between_sameLists (b := .checkInput) (fun _ h => by cases h) hinput
  have hempty := filter_takesTicks_eq_nil_iff.mpr hnone
  rw [tickCalls_of_subscribed (hsubscribed.of_sameLists hlists), if_pos hempty, hempty]

/-- A run that does not reach the loop in its first round never reaches it. -/
theorem eachRound_of_not_reaches (h : ¬ ReachesDispatch env sim) (n : ℕ) :
    EachRound env (TicksDispatched env attached) n sim := by
  cases n with
  | zero => trivial
  | succ n =>
    refine fun sim₁ htick => ⟨fun sim₂ hinput => absurd ⟨sim₁, sim₂, htick, hinput⟩ h, ?_⟩
    intro sim₃ hround
    obtain ⟨sim₂, hinput, -⟩ := Option.bind_eq_some_iff.mp hround
    exact absurd ⟨sim₁, sim₂, htick, hinput⟩ h

/-- Every run, in a simulator whose lists hold what they should. -/
theorem ticksDispatched_rounds (hsubscribed : Subscribed env attached sim) :
    (∀ n, EachRound env (TicksDispatched env attached) n sim) ↔
      (∀ device ∈ attached, (env.device device).onTick = none) ∨ ¬ ReachesDispatch env sim := by
  constructor
  · intro h
    refine or_iff_not_imp_right.mpr fun hreaches => ?_
    obtain ⟨sim₁, sim₂, htick, hinput⟩ := not_not.mp hreaches
    have hcalls := (h 1 sim₁ htick).1 sim₂ hinput
    have hlists : SameLists sim sim₂ := (tick_sameLists htick).trans
      (between_sameLists (b := .checkInput) (fun _ h => by cases h) hinput)
    rw [tickCalls_of_subscribed (hsubscribed.of_sameLists hlists)] at hcalls
    refine filter_takesTicks_eq_nil_iff.mp ?_
    by_contra hsome
    rw [if_neg hsome] at hcalls
    cases hcalls
  · rintro (hnone | hnever) n
    · exact eachRound_of_subscribed (fun _ => ticksDispatched_of_none hnone) n hsubscribed
    · exact eachRound_of_not_reaches hnever n

/-- **Ticks reach devices only if none asks for them.** After any commands, every round of every run
calls `on_tick` of the attached devices that declare it, once each and in the order in which they
were attached, if and only if there is no such device, or no run reaches the loop that calls them.
These calls are what `simulator_update_devices_on_tick` carries out, and on a list its loop does
what the loop of input does if and only if the list is empty. -/
theorem ticksDispatched_iff {devices : ω} {deviceIo : ι} {sim₀ : Simulator ω ι}
    {commands : List Command} {outs : List (Option ℤ)}
    (hnew : simulatorNew env devices deviceIo = some sim₀)
    (hrun : run (runCommand env) commands sim₀ = some (outs, sim)) :
    ((∀ n, EachRound env (TicksDispatched env (attachedDevices commands outs)) n
        (startIo env sim).2) ↔
      (∀ device ∈ attachedDevices commands outs, (env.device device).onTick = none) ∨
        ¬ ReachesDispatch env (startIo env sim).2) ∧
    (∀ sim : Simulator ω ι,
      simulatorUpdateDevicesOnTick sim = (tickCalls sim).bind (performTicks env sim)) ∧
    ∀ list : List DevicePtr, tickTargets list = inputTargets list ↔ list = [] := by
  have hstart : Subscribed env (attachedDevices commands outs) (startIo env sim).2 :=
    (run_subscribed hnew hrun).of_sameLists ⟨rfl, rfl⟩
  exact ⟨ticksDispatched_rounds hstart, simulatorUpdateDevicesOnTick_eq env,
    tickTargets_eq_inputTargets_iff⟩

theorem ticksDispatched_iff_inert :
    ∃ sim₀ outs sim, simulatorNew bareEnv () () = some sim₀ ∧
      run (runCommand bareEnv) [.attachDevice 0] sim₀ = some (outs, sim) ∧
      ∀ n, EachRound bareEnv (TicksDispatched bareEnv (attachedDevices [.attachDevice 0] outs)) n
        (startIo bareEnv sim).2 := by
  obtain ⟨sim₀, hnew⟩ : ∃ sim₀, simulatorNew bareEnv () () = some sim₀ := ⟨_, rfl⟩
  have hattach : ((simulatorNew bareEnv () ()).bind fun sim₀ =>
      run (runCommand bareEnv) [.attachDevice 0] sim₀).isSome = true := by decide +kernel
  rw [hnew, Option.bind_some] at hattach
  obtain ⟨⟨outs, sim⟩, hrun⟩ := Option.isSome_iff_exists.mp hattach
  exact ⟨sim₀, outs, sim, hnew, hrun,
    (ticksDispatched_iff hnew hrun).1.mpr (Or.inl fun _ _ => rfl)⟩

/-! ### A device that asks to be called -/

/-- A device without registers that is to be called in every round. -/
def tickingDevice : Device Unit :=
  { inertDevice with onTick := some fun _ => some ((), (), []) }

def tickingEnv : Env Unit Unit := ⟨SortSearch.bisecting _, fun _ => tickingDevice, silentIo⟩

/-- A new simulator with the device attached, at the beginning of a run. -/
def ticking : Option (List (Option ℤ) × Simulator Unit Unit) := do
  let sim ← simulatorNew tickingEnv () ()
  let (outs, sim) ← run (runCommand tickingEnv) [.attachDevice 0] sim
  return (outs, (startIo tickingEnv sim).2)

/-- **One device that declares `on_tick`.** With it attached, the first round does not come back. -/
theorem ticksDispatched_broken :
    (∃ sim₀ sim, simulatorNew tickingEnv () () = some sim₀ ∧
      run (runCommand tickingEnv) [.attachDevice 0] sim₀ = some ([some 0], sim) ∧
      ¬ ∀ n, EachRound tickingEnv
        (TicksDispatched tickingEnv (attachedDevices [.attachDevice 0] [some 0])) n
        (startIo tickingEnv sim).2) ∧
    (ticking.bind fun x => runLoop tickingEnv 1 x.2) = none := by
  refine ⟨?_, Option.isNone_iff_eq_none.mp (by decide +kernel)⟩
  have htick : (ticking.bind fun x => (tick tickingEnv x.2).map fun y => (x.1, y.1)) =
      some ([some 0], true) := by decide +kernel
  obtain ⟨⟨outs, sim₁⟩, hticking, htick⟩ := Option.bind_eq_some_iff.mp htick
  obtain ⟨⟨running, sim₂⟩, htick, heq⟩ := Option.map_eq_some_iff.mp htick
  obtain ⟨rfl, rfl⟩ := Prod.mk.inj heq
  rw [ticking] at hticking
  obtain ⟨sim₀, hnew, hticking⟩ := Option.bind_eq_some_iff.mp hticking
  obtain ⟨⟨outs₁, sim⟩, hrun, hticking⟩ := Option.bind_eq_some_iff.mp hticking
  obtain ⟨rfl, rfl⟩ := Prod.mk.inj (Option.some.inj hticking)
  have hstart : Subscribed tickingEnv (attachedDevices [.attachDevice 0] [some 0])
      (startIo tickingEnv sim).2 := (run_subscribed hnew hrun).of_sameLists ⟨rfl, rfl⟩
  refine ⟨sim₀, sim, hnew, hrun, fun hrounds => ?_⟩
  rcases (ticksDispatched_rounds hstart).mp hrounds with hnone | hnever
  · exact absurd (hnone 0 (by decide)) (Option.some_ne_none _)
  · exact hnever ⟨sim₂, _, htick, rfl⟩

end Lc3Simulator
