import Lc3Simulator.Events

/-!
# Who is called between two ticks

A device that declares a callback is put into a list when it is attached, and the two lists are
never changed otherwise. So after any commands the lists hold the devices that were attached so
far and declare the callback, in the order in which they were attached, or were never created.

The lists store pointers to devices. `list_get` returns the address of a slot, and it takes one
more step to get from there to the device. The loop that dispatches input takes that step, and the
loop that dispatches ticks does not.

## Main definitions

* `Pointer`, `listGet` — what the loops get from their lists
* `inputTargets`, `tickTargets` — the devices that the loops call
* `attachedDevices` — the devices that some commands have attached
* `Subscribed` — the lists hold what they should
* `EachRound` — a property of the state after the tick, in every round of a run

## Main results

* `inputTargets_eq`, `tickTargets_eq` — the loop of input calls every device of its list, and the
  loop of ticks none of a list that has any
* `run_subscribed` — the lists after any commands
* `eachRound_iff` — properties that agree wherever the lists hold what they should
-/

namespace Lc3Simulator

open Transition

/-! ### From a list to a device -/

/-- What a pointer in a dispatching loop points to: a slot of the list, or a device. -/
inductive Pointer
  | slot (index : ℕ)
  | device (d : DevicePtr)
  deriving DecidableEq, Repr

/-- `list_get`. -/
def listGet (list : List DevicePtr) (index : ℕ) : Option Pointer :=
  if index < list.length then some (.slot index) else none

/-- `*(struct device **)pointer`. -/
def Pointer.load (list : List DevicePtr) : Pointer → Option Pointer
  | .slot index => list[index]?.map .device
  | .device _ => none

/-- The device whose callback `pointer->callback(pointer)` calls. A slot is no device, and the words
behind it are no callbacks. -/
def Pointer.target : Pointer → Option DevicePtr
  | .slot _ => none
  | .device d => some d

/-- `cur_device` in the loop of `simulator_update_devices_input`. -/
def curInputDevice (list : List DevicePtr) (index : ℕ) : Option Pointer :=
  (listGet list index).bind (Pointer.load list)

/-- `cur_device` in the loop of `simulator_update_devices_on_tick`. -/
def curTickDevice (list : List DevicePtr) (index : ℕ) : Option Pointer := listGet list index

/-- The devices that a loop over a list calls, one for each index. -/
def loopTargets (curDevice : List DevicePtr → ℕ → Option Pointer) (list : List DevicePtr) :
    Option (List DevicePtr) :=
  (List.range list.length).mapM fun index => (curDevice list index).bind Pointer.target

def inputTargets : List DevicePtr → Option (List DevicePtr) := loopTargets curInputDevice

def tickTargets : List DevicePtr → Option (List DevicePtr) := loopTargets curTickDevice

theorem curInputDevice_target (list : List DevicePtr) (index : ℕ) :
    (curInputDevice list index).bind Pointer.target = list[index]? := by
  rw [curInputDevice, listGet]
  by_cases h : index < list.length
  · rw [if_pos h, Option.bind_some, Pointer.load, List.getElem?_eq_getElem h, Option.map_some,
      Option.bind_some, Pointer.target]
  · rw [if_neg h, List.getElem?_eq_none (not_lt.mp h)]
    rfl

theorem mapM_getElem? (list rest : List DevicePtr) :
    (List.range' rest.length list.length).mapM (fun index => (rest ++ list)[index]?) =
      some list := by
  induction list generalizing rest with
  | nil => rfl
  | cons device list ih =>
    have hfirst : (rest ++ device :: list)[rest.length]? = some device := by simp
    have hrest := ih (rest ++ [device])
    rw [List.length_append, List.length_singleton, List.append_assoc, List.singleton_append]
      at hrest
    rw [List.length_cons, List.range'_succ, List.mapM_cons, hfirst, hrest]
    rfl

/-- **The loop of input calls every device of its list**, in order. -/
theorem inputTargets_eq (list : List DevicePtr) : inputTargets list = some list := by
  rw [inputTargets, loopTargets, List.range_eq_range']
  simp only [curInputDevice_target]
  exact mapM_getElem? list []

/-- **The loop of ticks calls no device.** Its first call leads nowhere, if there is a first one. -/
theorem tickTargets_eq (list : List DevicePtr) :
    tickTargets list = if list = [] then some [] else none := by
  cases list with
  | nil => rfl
  | cons device list =>
    have hslot : curTickDevice (device :: list) 0 = some (.slot 0) := by
      rw [curTickDevice, listGet, if_pos (List.length_pos_of_ne_nil (List.cons_ne_nil _ _))]
    rw [if_neg (List.cons_ne_nil _ _), tickTargets, loopTargets, List.length_cons,
      List.range_succ_eq_map, List.mapM_cons, hslot]
    rfl

/-! ### The lists -/

section Lists

variable {ω ι : Type} (env : Env ω ι)

def takesInput (device : DevicePtr) : Bool := (env.device device).onInput.isSome

def takesTicks (device : DevicePtr) : Bool := (env.device device).onTick.isSome

/-- A list that is created with its first element. -/
def createdList : List DevicePtr → Option (List DevicePtr)
  | [] => none
  | device :: devices => some (device :: devices)

/-- The device that a command has attached, given the status that it returned. -/
def attachedBy : Command × Option ℤ → Option DevicePtr
  | (.attachDevice device, some 0) => some device
  | _ => none

/-- The devices that some commands have attached, in order. -/
def attachedDevices (commands : List Command) (outs : List (Option ℤ)) : List DevicePtr :=
  (commands.zip outs).filterMap attachedBy

/-- The lists hold the attached devices that declare the callback. -/
structure Subscribed (attached : List DevicePtr) (sim : Simulator ω ι) : Prop where
  input : sim.onInputDevices = createdList (attached.filter (takesInput env))
  ticks : sim.onTickDevices = createdList (attached.filter (takesTicks env))

variable {env} {sim sim' : Simulator ω ι} {attached : List DevicePtr} {device : DevicePtr}

/-- A device that declares the callback is put behind the others. -/
theorem createdList_subscribe (declares : DevicePtr → Bool) (attached : List DevicePtr)
    (device : DevicePtr) :
    createdList ((attached ++ [device]).filter declares) =
      if declares device then some ((createdList (attached.filter declares)).getD [] ++ [device])
      else createdList (attached.filter declares) := by
  rw [List.filter_append]
  cases h : declares device with
  | true =>
    rw [List.filter_cons_of_pos h, List.filter_nil, if_pos rfl]
    cases attached.filter declares <;> rfl
  | false =>
    rw [List.filter_cons_of_neg (Bool.eq_false_iff.mp h), List.filter_nil, List.append_nil,
      if_neg Bool.false_ne_true]

theorem simulatorCheckDeviceSubscriptions_onInputDevices :
    (simulatorCheckDeviceSubscriptions env sim device).onInputDevices =
      if takesInput env device then some (sim.onInputDevices.getD [] ++ [device])
      else sim.onInputDevices := by
  rw [simulatorCheckDeviceSubscriptions, takesInput]
  split_ifs <;> rfl

theorem simulatorCheckDeviceSubscriptions_onTickDevices :
    (simulatorCheckDeviceSubscriptions env sim device).onTickDevices =
      if takesTicks env device then some (sim.onTickDevices.getD [] ++ [device])
      else sim.onTickDevices := by
  rw [simulatorCheckDeviceSubscriptions, takesTicks]
  split_ifs <;> rfl

/-- The same lists. -/
def SameLists (sim sim' : Simulator ω ι) : Prop :=
  sim'.onInputDevices = sim.onInputDevices ∧ sim'.onTickDevices = sim.onTickDevices

theorem SameLists.trans {sim₁ sim₂ sim₃ : Simulator ω ι} (h : SameLists sim₁ sim₂)
    (h' : SameLists sim₂ sim₃) : SameLists sim₁ sim₃ :=
  ⟨h'.1.trans h.1, h'.2.trans h.2⟩

theorem Subscribed.of_sameLists (h : Subscribed env attached sim) (hsame : SameLists sim sim') :
    Subscribed env attached sim' :=
  ⟨hsame.1.trans h.input, hsame.2.trans h.ticks⟩

theorem Subscribed.attach (h : Subscribed env attached sim) (machine : Machine ω ι)
    (device : DevicePtr) : Subscribed env (attached ++ [device])
      (simulatorCheckDeviceSubscriptions env { sim with machine } device) := by
  constructor
  · rw [simulatorCheckDeviceSubscriptions_onInputDevices, createdList_subscribe, ← h.input]
  · rw [simulatorCheckDeviceSubscriptions_onTickDevices, createdList_subscribe, ← h.ticks]

/-- **Only attachments change the lists.** -/
theorem tickEvent_sameLists {e : TickEvent} {out : Bool}
    (hattach : ∀ d, e ≠ .between (.attachDevice d))
    (h : tickEvent env e sim = some (out, sim')) : SameLists sim sim' := by
  cases e with
  | tick =>
    obtain ⟨cpu, machine, -, rfl⟩ := tick_eq_some h
    exact ⟨rfl, rfl⟩
  | between b =>
    cases between_step (tickEvent_between h).2 with
    | refused => exact absurd rfl (hattach _)
    | attached => exact absurd rfl (hattach _)
    | idle | register | wrote | input | delivered => exact ⟨rfl, rfl⟩

/-- A command that attaches nothing. -/
theorem runCommand_sameLists {command : Command} {status : Option ℤ}
    (hcommand : ∀ d, command ≠ .attachDevice d)
    (h : runCommand env command sim = some (status, sim')) : SameLists sim sim' := by
  exact (runCommand_leads_of_ne hcommand h).invariant (I := SameLists sim)
    (fun e sim₁ out sim₂ hattach hsame hstep => hsame.trans (tickEvent_sameLists hattach hstep))
    ⟨rfl, rfl⟩

/-- **One command.** -/
theorem runCommand_subscribed {command : Command} {status : Option ℤ}
    (hsubscribed : Subscribed env attached sim)
    (h : runCommand env command sim = some (status, sim')) :
    Subscribed env (attached ++ (attachedBy (command, status)).toList) sim' := by
  by_cases hattach : ∃ d, command = .attachDevice d
  · obtain ⟨d, rfl⟩ := hattach
    obtain ⟨r, hrun, rfl⟩ := runCommand_attachDevice h
    obtain ⟨s, bus, -, ⟨-, hstatus, hsim⟩ | ⟨-, hstatus, machine, -, hsim⟩⟩ :=
      simulatorAttachDevice_cases hrun
    · subst hstatus hsim
      rw [show attachedBy (.attachDevice d, some (-1)) = none from rfl, Option.toList_none,
        List.append_nil]
      exact hsubscribed.of_sameLists ⟨rfl, rfl⟩
    · subst hstatus hsim
      exact hsubscribed.attach machine d
  · have hnone : attachedBy (command, status) = none := by
      cases command with
      | attachDevice d => exact absurd ⟨d, rfl⟩ hattach
      | writeAddress | writeRegister | loadProgram | updateDevicesInput | step | runUntilEnd => rfl
    rw [hnone, Option.toList_none, List.append_nil]
    exact hsubscribed.of_sameLists (runCommand_sameLists (fun d hd => hattach ⟨d, hd⟩) h)

theorem run_subscribed_of {commands : List Command} {outs : List (Option ℤ)}
    (hsubscribed : Subscribed env attached sim)
    (h : run (runCommand env) commands sim = some (outs, sim')) :
    Subscribed env (attached ++ attachedDevices commands outs) sim' := by
  induction commands generalizing sim outs attached with
  | nil =>
    obtain ⟨rfl, rfl⟩ := Prod.mk.inj (Option.some.inj h)
    rw [attachedDevices, List.zip_nil_left, List.filterMap_nil, List.append_nil]
    exact hsubscribed
  | cons command commands ih =>
    obtain ⟨out, sim₁, rest, hcommand, hrest, rfl⟩ := run_cons_eq_some h
    have hlists := ih (runCommand_subscribed hsubscribed hcommand) hrest
    have hcons : attachedDevices (command :: commands) (out :: rest) =
        (attachedBy (command, out)).toList ++ attachedDevices commands rest := by
      rw [attachedDevices, List.zip_cons_cons, List.filterMap_cons]
      cases attachedBy (command, out) <;> rfl
    rw [hcons, ← List.append_assoc]
    exact hlists

/-- **The lists after any commands.** -/
theorem run_subscribed {devices : ω} {deviceIo : ι} {sim₀ : Simulator ω ι}
    {commands : List Command} {outs : List (Option ℤ)}
    (hnew : simulatorNew env devices deviceIo = some sim₀)
    (h : run (runCommand env) commands sim₀ = some (outs, sim)) :
    Subscribed env (attachedDevices commands outs) sim := by
  have hstart : Subscribed env [] sim₀ := by
    obtain rfl := Option.some.inj hnew
    exact ⟨rfl, rfl⟩
  exact run_subscribed_of hstart h

end Lists

/-! ### The rounds of a run -/

section Rounds

variable {ω ι : Type} {env : Env ω ι} {sim : Simulator ω ι}

/-- In each of the first `n` rounds whose tick does not halt, the state after the tick has the
property. -/
def EachRound (env : Env ω ι) (P : Simulator ω ι → Prop) : ℕ → Simulator ω ι → Prop
  | 0, _ => True
  | n + 1, sim => ∀ sim₁, tick env sim = some (true, sim₁) →
      P sim₁ ∧ ∀ sim₂, loopBody env sim₁ = some sim₂ → EachRound env P n sim₂

/-- Properties that agree where the invariant of the ticks and of the body of the loop holds. -/
theorem eachRound_iff {P Q I : Simulator ω ι → Prop}
    (htick : ∀ sim sim' running, I sim → tick env sim = some (running, sim') → I sim')
    (hbody : ∀ sim sim', I sim → loopBody env sim = some sim' → I sim')
    (hPQ : ∀ sim, I sim → (P sim ↔ Q sim)) (n : ℕ) (h : I sim) :
    EachRound env P n sim ↔ EachRound env Q n sim := by
  induction n generalizing sim with
  | zero => exact Iff.rfl
  | succ n ih =>
    refine forall_congr' fun sim₁ => forall_congr' fun hrunning => ?_
    have h₁ := htick sim sim₁ true h hrunning
    refine and_congr (hPQ sim₁ h₁) (forall_congr' fun sim₂ => forall_congr' fun hround => ?_)
    exact ih (hbody sim₁ sim₂ h₁ hround)

theorem tick_sameLists {sim' : Simulator ω ι} {running : Bool}
    (h : tick env sim = some (running, sim')) : SameLists sim sim' :=
  tickEvent_sameLists (e := .tick) (fun _ hd => by cases hd) h

theorem between_sameLists {b : Between} {sim' : Simulator ω ι} (hattach : ∀ d, b ≠ .attachDevice d)
    (h : between env b sim = some sim') : SameLists sim sim' := by
  have hevent : tickEvent env (.between b) sim = some (true, sim') := by
    rw [tickEvent, h]
    rfl
  exact tickEvent_sameLists (fun d hd => hattach d (TickEvent.between.inj hd)) hevent

theorem loopBody_sameLists {sim' : Simulator ω ι} (h : loopBody env sim = some sim') :
    SameLists sim sim' := by
  obtain ⟨sim₁, hinput, h⟩ := Option.bind_eq_some_iff.mp h
  obtain ⟨sim₂, hticks, hinterrupts⟩ := Option.bind_eq_some_iff.mp h
  have h₁ := between_sameLists (b := .checkInput) (fun _ hd => by cases hd) hinput
  have h₂ : SameLists sim₁ sim₂ := by
    obtain ⟨rfl, -⟩ := simulatorUpdateDevicesOnTick_eq_some hticks
    exact ⟨rfl, rfl⟩
  have h₃ := between_sameLists (b := .checkInterrupts) (fun _ hd => by cases hd) hinterrupts
  exact (h₁.trans h₂).trans h₃

/-- Properties that agree wherever the lists hold what they should, in every run. -/
theorem eachRound_iff_of_subscribed {P Q : Simulator ω ι → Prop} {attached : List DevicePtr}
    (hPQ : ∀ sim, Subscribed env attached sim → (P sim ↔ Q sim)) (n : ℕ)
    (h : Subscribed env attached sim) : EachRound env P n sim ↔ EachRound env Q n sim :=
  eachRound_iff (fun _ _ _ hlists hrun => hlists.of_sameLists (tick_sameLists hrun))
    (fun _ _ hlists hround => hlists.of_sameLists (loopBody_sameLists hround)) hPQ n h

/-- What follows from the lists, holds in every round. -/
theorem eachRound_of_subscribed {P : Simulator ω ι → Prop} {attached : List DevicePtr}
    (hP : ∀ sim, Subscribed env attached sim → P sim) (n : ℕ) (h : Subscribed env attached sim) :
    EachRound env P n sim := by
  induction n generalizing sim with
  | zero => trivial
  | succ n ih =>
    refine fun sim₁ hrunning => ⟨hP sim₁ (h.of_sameLists (tick_sameLists hrunning)), ?_⟩
    intro sim₂ hround
    exact ih ((h.of_sameLists (tick_sameLists hrunning)).of_sameLists (loopBody_sameLists hround))

end Rounds

end Lc3Simulator
