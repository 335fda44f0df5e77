import Lc3Simulator.Simulator

/-!
# Devices and terminals that answer alike

The simulator looks at what the callbacks of the devices return, at the host calls they make, and at
the statuses and the characters that the functions of `struct device_io` return, and at nothing else
of the devices and the terminal. So if these return the same, in states that a relation connects,
then every command has the same result, and the states stay connected. A terminal or a device may
for example keep a record of its own: that changes nothing.

In between the devices have printed characters that the terminal has not been handed yet. So the
relation speaks of these as well; it is about nothing left to print, outside of the callbacks.

## Main definitions

* `CallbackAlike`, `Env.Alike` — devices and terminals that answer alike, in related states
* `MachineAlike`, `SimAlike` — the same machine, and simulator, in related states

## Main results

* `runCallback_alike` — a callback with its host calls
* `runCommand_alike`, `runCommands_alike` — what answers alike makes no difference
-/

namespace Lc3Simulator

open Interaction Transition

variable {ω ω' ι κ α : Type}

/-! ### States that are related -/

/-- The character that a host call prints. -/
def HostCall.output : HostCall → Option Byte
  | .writeOutput output => some output
  | .alertInterrupt _ _ => none

/-- The same machine in other states of the devices and the terminal. -/
def Machine.withStates (m : Machine ω ι) (s : ω' × κ) : Machine ω' κ :=
  ⟨m.bus, m.interCont, s.1, s.2, m.started⟩

def Simulator.withStates (sim : Simulator ω ι) (s : ω' × κ) : Simulator ω' κ :=
  ⟨sim.cpu, sim.machine.withStates s, sim.onInputDevices, sim.onTickDevices⟩

/-- Two callbacks return the same and make the same host calls, in related states. -/
def CallbackAlike (R : List Byte → ω × ι → ω' × κ → Prop) (callback : Callback ω α)
    (callback' : Callback ω' α) : Prop :=
  ∀ s t, R [] s t → Option.Rel
    (fun x y => x.1 = y.1 ∧ x.2.2 = y.2.2 ∧
      R (x.2.2.filterMap HostCall.output) (x.2.1, s.2) (y.2.1, t.2))
    (callback s.1) (callback' t.1)

/-- In states related by `R`, the devices and the terminals return the same, and remain related.
The list are the characters that are printed and not handed to the terminal. -/
structure Env.Alike (R : List Byte → ω × ι → ω' × κ → Prop) (env : Env ω ι) (env' : Env ω' κ) :
    Prop where
  libc : env'.libc = env.libc
  start : ∀ d, CallbackAlike R (env.device d).start (env'.device d).start
  readRegister : ∀ d address,
    CallbackAlike R ((env.device d).readRegister address) ((env'.device d).readRegister address)
  writeRegister : ∀ d address value, CallbackAlike R ((env.device d).writeRegister address value)
    ((env'.device d).writeRegister address value)
  onInput : ∀ d, Option.Rel (fun f f' => ∀ input, CallbackAlike R (f input) (f' input))
    (env.device d).onInput (env'.device d).onInput
  onTick : ∀ d, (env'.device d).onTick.isSome = (env.device d).onTick.isSome
  getAddresses : ∀ d, (env'.device d).getAddresses = (env.device d).getAddresses
  getAddressMethod : ∀ d, (env'.device d).getAddressMethod = (env.device d).getAddressMethod
  getChar : ∀ s t, R [] s t → (env.deviceIo.getChar s.2).1 = (env'.deviceIo.getChar t.2).1 ∧
    (env.deviceIo.getChar s.2).2.1 = (env'.deviceIo.getChar t.2).2.1 ∧
    R [] (s.1, (env.deviceIo.getChar s.2).2.2) (t.1, (env'.deviceIo.getChar t.2).2.2)
  writeChar : ∀ output left s t, R (output :: left) s t →
    R left (s.1, env.deviceIo.writeChar output s.2) (t.1, env'.deviceIo.writeChar output t.2)
  ioStart : ∀ s t, R [] s t → (env.deviceIo.ioStart s.2).1 = (env'.deviceIo.ioStart t.2).1 ∧
    R [] (s.1, (env.deviceIo.ioStart s.2).2) (t.1, (env'.deviceIo.ioStart t.2).2)
  ioEnd : ∀ s t, R [] s t → (env.deviceIo.ioEnd s.2).1 = (env'.deviceIo.ioEnd t.2).1 ∧
    R [] (s.1, (env.deviceIo.ioEnd s.2).2) (t.1, (env'.deviceIo.ioEnd t.2).2)

/-- The same machine in related states. -/
def MachineAlike (R : List Byte → ω × ι → ω' × κ → Prop) (m : Machine ω ι) (m' : Machine ω' κ) :
    Prop :=
  ∃ t, R [] (m.devices, m.deviceIo) t ∧ m' = m.withStates t

/-- The same simulator in related states. -/
def SimAlike (R : List Byte → ω × ι → ω' × κ → Prop) (sim : Simulator ω ι)
    (sim' : Simulator ω' κ) : Prop :=
  ∃ t, R [] (sim.machine.devices, sim.machine.deviceIo) t ∧ sim' = sim.withStates t

section Alike

variable {R : List Byte → ω × ι → ω' × κ → Prop} {env : Env ω ι} {env' : Env ω' κ}
  {m : Machine ω ι} {m' : Machine ω' κ}

theorem SimAlike.of_machine (h : MachineAlike R m m') (cpu : Cpu)
    (onInputDevices onTickDevices : Option (List DevicePtr)) :
    SimAlike R ⟨cpu, m, onInputDevices, onTickDevices⟩
      ⟨cpu, m', onInputDevices, onTickDevices⟩ := by
  obtain ⟨t, hR, rfl⟩ := h
  exact ⟨t, hR, rfl⟩

/-- What is left to print is handed to the terminal, one character after the other. -/
theorem hostCalls_alike (halike : env.Alike R env') (calls : List HostCall) {m : Machine ω ι}
    {t : ω' × κ} (hR : R (calls.filterMap HostCall.output) (m.devices, m.deviceIo) t) :
    Option.Rel (MachineAlike R) (calls.foldlM (hostCall env) m)
      (calls.foldlM (hostCall env') (m.withStates t)) := by
  induction calls generalizing m t with
  | nil => exact Option.Rel.some ⟨t, hR, rfl⟩
  | cons call calls ih =>
    rw [List.foldlM_cons, List.foldlM_cons]
    cases call with
    | writeOutput output =>
      exact ih (m := simulatorHostWriteOutput env m output) (halike.writeChar output _ _ _ hR)
    | alertInterrupt vec priority =>
      have halert : (m.withStates t).interCont = m.interCont := rfl
      rw [hostCall, hostCall, simulatorHostAlertInterrupt, simulatorHostAlertInterrupt, halert]
      cases interruptControllerAlert m.interCont vec priority with
      | none => exact Option.Rel.none
      | some interCont => exact ih (m := { m with interCont }) hR

/-- **A callback with its host calls.** -/
theorem runCallback_alike (halike : env.Alike R env') (device : DevicePtr)
    {callback : Callback ω α} {callback' : Callback ω' α}
    (hcallback : CallbackAlike R callback callback') (h : MachineAlike R m m') :
    AgreeUpTo (MachineAlike R) (runCallback env device callback m)
      (runCallback env' device callback' m') := by
  obtain ⟨t, hR, rfl⟩ := h
  refine rel_bind (hcallback _ t hR) ?_
  rintro ⟨a, devices, calls⟩ ⟨a', devices', calls'⟩ ⟨rfl, rfl, hafter⟩
  refine rel_bind_same _ fun _ => ?_
  refine rel_bind (R := MachineAlike R) ?_ fun m₁ m₂ h => Option.Rel.some ⟨rfl, h⟩
  exact hostCalls_alike halike calls (m := { m with devices }) hafter

theorem busSearch_alike (halike : env.Alike R env') (m : Machine ω ι) (t : ω' × κ)
    (address : Word) : busSearch env'.libc (m.withStates t).bus address =
      busSearch env.libc m.bus address := by
  rw [halike.libc]
  rfl

theorem busRead_alike (halike : env.Alike R env') (address : Word) (h : MachineAlike R m m') :
    AgreeUpTo (MachineAlike R) (busRead env m address) (busRead env' m' address) := by
  obtain ⟨t, hR, rfl⟩ := h
  simp only [busRead, busSearch_alike halike]
  by_cases hflag : (m.bus.memory address).attachmentFlag = true
  · rw [if_pos hflag]
    refine Eq.mpr (congrArg _ (if_pos hflag)) ?_
    exact rel_bind_same _ fun attachment =>
      runCallback_alike halike _ (halike.readRegister _ address) ⟨t, hR, rfl⟩
  · rw [if_neg hflag]
    refine Eq.mpr (congrArg _ (if_neg hflag)) ?_
    exact Option.Rel.some ⟨rfl, t, hR, rfl⟩

theorem busWrite_alike (halike : env.Alike R env') (address value : Word)
    (h : MachineAlike R m m') :
    Option.Rel (MachineAlike R) (busWrite env m address value)
      (busWrite env' m' address value) := by
  obtain ⟨t, hR, rfl⟩ := h
  simp only [busWrite, busSearch_alike halike]
  by_cases hflag : (m.bus.memory address).attachmentFlag = true
  · rw [if_pos hflag]
    refine Eq.mpr (congrArg _ (if_pos hflag)) ?_
    refine rel_bind_same _ fun attachment => ?_
    refine agree_bind
      (runCallback_alike halike _ (halike.writeRegister _ address value) ⟨t, hR, rfl⟩) ?_
    exact fun _ m₁ m₂ h => Option.Rel.some h
  · rw [if_neg hflag]
    refine Eq.mpr (congrArg _ (if_neg hflag)) ?_
    exact Option.Rel.some ⟨t, hR, rfl⟩

theorem handler_alike (halike : env.Alike R env') (q : BusRequest) (h : MachineAlike R m m') :
    AgreeUpTo (MachineAlike R) ((initBusAccessor env).handler q m)
      ((initBusAccessor env').handler q m') := by
  cases q with
  | read address => exact busRead_alike halike address h
  | write address value =>
    exact rel_map (busWrite_alike halike address value h) fun _ _ h => ⟨rfl, h⟩

/-- Every program of the CPU. -/
theorem runOnBus_alike (halike : env.Alike R env') (p : BusProg α) (h : MachineAlike R m m') :
    AgreeUpTo (MachineAlike R) (runOnBus env p m) (runOnBus env' p m') :=
  Prog.run_rel (fun q _ _ hm => handler_alike halike q hm) p h

end Alike

/-! ### Commands where all answers are alike -/

section AlikeCommands

variable {R : List Byte → ω × ι → ω' × κ → Prop} {env : Env ω ι} {env' : Env ω' κ}
  {m : Machine ω ι} {m' : Machine ω' κ} {sim : Simulator ω ι} {sim' : Simulator ω' κ}

theorem callOnInput_alike (halike : env.Alike R env') (input : Word) (device : DevicePtr)
    (h : MachineAlike R m m') :
    Option.Rel (MachineAlike R) (callOnInput env input m device)
      (callOnInput env' input m' device) := by
  refine rel_bind (halike.onInput device) fun onInput onInput' honInput => ?_
  exact agree_bind (runCallback_alike halike device (honInput input) h)
    fun _ m₁ m₂ h => Option.Rel.some h

theorem simulatorUpdateDevicesInput_alike (halike : env.Alike R env') (input : Word)
    (h : SimAlike R sim sim') :
    Option.Rel (SimAlike R) (simulatorUpdateDevicesInput env sim input)
      (simulatorUpdateDevicesInput env' sim' input) := by
  obtain ⟨t, hR, rfl⟩ := h
  refine rel_bind_same sim.onInputDevices fun devices => ?_
  refine rel_bind (R := MachineAlike R) ?_
    fun m₁ m₂ hm => Option.Rel.some (SimAlike.of_machine hm _ _ _)
  exact rel_foldlM (fun device m m' hm => callOnInput_alike halike input device hm) ⟨t, hR, rfl⟩

theorem simulatorCheckInput_alike (halike : env.Alike R env') (h : SimAlike R sim sim') :
    Option.Rel (SimAlike R) (simulatorCheckInput env sim)
      (simulatorCheckInput env' sim') := by
  obtain ⟨t, hR, rfl⟩ := h
  obtain ⟨hstatus, hinput, hafter⟩ := halike.getChar _ _ hR
  have hio : (env'.deviceIo.getChar t.2).1 =
      (env.deviceIo.getChar sim.machine.deviceIo).1 := hstatus.symm
  have hread : SimAlike R
      { sim with machine := { sim.machine with
          deviceIo := (env.deviceIo.getChar sim.machine.deviceIo).2.2 } }
      (sim.withStates (t.1, (env'.deviceIo.getChar t.2).2.2)) := ⟨_, hafter, rfl⟩
  simp only [simulatorCheckInput]
  by_cases hgot : (env.deviceIo.getChar sim.machine.deviceIo).1 ≠ 0
  · rw [if_pos hgot]
    refine Eq.mpr (congrArg _ (if_pos (hio ▸ hgot))) ?_
    rw [hinput]
    exact simulatorUpdateDevicesInput_alike halike _ hread
  · rw [if_neg hgot]
    refine Eq.mpr (congrArg _ (if_neg (hio ▸ hgot))) ?_
    exact Option.Rel.some hread

theorem simulatorUpdateDevicesOnTick_alike (h : SimAlike R sim sim') :
    Option.Rel (SimAlike R) (simulatorUpdateDevicesOnTick sim)
      (simulatorUpdateDevicesOnTick sim') := by
  obtain ⟨t, hR, rfl⟩ := h
  have hsame : (sim.withStates t).onTickDevices = sim.onTickDevices := rfl
  rw [simulatorUpdateDevicesOnTick, simulatorUpdateDevicesOnTick, hsame]
  split
  · exact Option.Rel.some ⟨t, hR, rfl⟩
  · exact Option.Rel.some ⟨t, hR, rfl⟩
  · exact Option.Rel.none

theorem simulatorCheckInterrupts_alike (halike : env.Alike R env')
    (h : SimAlike R sim sim') :
    Option.Rel (SimAlike R) (simulatorCheckInterrupts env sim)
      (simulatorCheckInterrupts env' sim') := by
  obtain ⟨t, hR, rfl⟩ := h
  refine rel_bind_same (interruptControllerPeek sim.machine.interCont) fun pending => ?_
  match pending with
  | none => exact Option.Rel.some ⟨t, hR, rfl⟩
  | some (vec, priority) =>
    refine agree_bind (runOnBus_alike halike (cpuSignalInterrupt sim.cpu vec priority)
      ⟨t, hR, rfl⟩) ?_
    rintro ⟨taken, cpu⟩ m₁ m₂ ⟨t', hR', rfl⟩
    cases taken with
    | true =>
      exact rel_bind_same (interruptControllerTake m₁.interCont) fun interCont =>
        Option.Rel.some ⟨t', hR', rfl⟩
    | false => exact Option.Rel.some ⟨t', hR', rfl⟩

theorem tick_alike (halike : env.Alike R env') (h : SimAlike R sim sim') :
    AgreeUpTo (SimAlike R) (tick env sim) (tick env' sim') := by
  obtain ⟨t, hR, rfl⟩ := h
  refine agree_bind (runOnBus_alike halike (cpuTick sim.cpu) ⟨t, hR, rfl⟩) ?_
  exact fun x m₁ m₂ hm => Option.Rel.some ⟨rfl, SimAlike.of_machine hm _ _ _⟩

theorem loopBody_alike (halike : env.Alike R env') (h : SimAlike R sim sim') :
    Option.Rel (SimAlike R) (loopBody env sim) (loopBody env' sim') := by
  refine rel_bind (simulatorCheckInput_alike halike h) fun _ _ h₁ => ?_
  refine rel_bind (simulatorUpdateDevicesOnTick_alike h₁) fun _ _ h₂ => ?_
  exact simulatorCheckInterrupts_alike halike h₂

theorem runLoop_alike (halike : env.Alike R env') (n : ℕ) (h : SimAlike R sim sim') :
    AgreeUpTo (SimAlike R) (runLoop env n sim) (runLoop env' n sim') := by
  induction n generalizing sim sim' with
  | zero => exact Option.Rel.some ⟨rfl, h⟩
  | succ n ih =>
    refine agree_bind (tick_alike halike h) fun running s t h₁ => ?_
    cases running with
    | true => exact rel_bind (loopBody_alike halike h₁) fun _ _ h₂ => ih h₂
    | false => exact Option.Rel.some ⟨rfl, h₁⟩

theorem stepLoop_alike (halike : env.Alike R env') (n : ℕ) (status : Option ℤ)
    (h : SimAlike R sim sim') :
    AgreeUpTo (SimAlike R) (stepLoop env n status sim)
      (stepLoop env' n status sim') := by
  induction n generalizing status sim sim' with
  | zero => exact Option.Rel.some ⟨rfl, h⟩
  | succ n ih =>
    refine agree_bind (tick_alike halike h) fun running s t h₁ => ?_
    cases running with
    | true => exact ih (some 1) h₁
    | false => exact Option.Rel.some ⟨rfl, h₁⟩

theorem startIo_alike (halike : env.Alike R env') (h : SimAlike R sim sim') :
    (startIo env sim).1 = (startIo env' sim').1 ∧
      SimAlike R (startIo env sim).2 (startIo env' sim').2 := by
  obtain ⟨t, hR, rfl⟩ := h
  exact ⟨(halike.ioStart _ _ hR).1, _, (halike.ioStart _ _ hR).2, rfl⟩

theorem endIo_alike (halike : env.Alike R env') (h : SimAlike R sim sim') :
    (endIo env sim).1 = (endIo env' sim').1 ∧
      SimAlike R (endIo env sim).2 (endIo env' sim').2 := by
  obtain ⟨t, hR, rfl⟩ := h
  exact ⟨(halike.ioEnd _ _ hR).1, _, (halike.ioEnd _ _ hR).2, rfl⟩

theorem simulatorStep_alike (halike : env.Alike R env') (amt : ℤ)
    (h : SimAlike R sim sim') :
    AgreeUpTo (SimAlike R) (simulatorStep env amt sim)
      (simulatorStep env' amt sim') := by
  obtain ⟨hstatus, hstart⟩ := startIo_alike halike h
  simp only [simulatorStep, ← hstatus]
  split
  · exact Option.Rel.some ⟨rfl, hstart⟩
  · refine agree_bind (stepLoop_alike halike amt.toNat none hstart) fun tickStatus s t h₁ => ?_
    obtain ⟨hend, h₂⟩ := endIo_alike halike h₁
    exact Option.Rel.some ⟨by rw [hend], h₂⟩

theorem simulatorRunUntilEnd_alike (halike : env.Alike R env') (n : ℕ)
    (h : SimAlike R sim sim') :
    AgreeUpTo (SimAlike R) (simulatorRunUntilEnd env n sim)
      (simulatorRunUntilEnd env' n sim') := by
  obtain ⟨hstatus, hstart⟩ := startIo_alike halike h
  simp only [simulatorRunUntilEnd, ← hstatus]
  split
  · exact Option.Rel.some ⟨rfl, hstart⟩
  · refine agree_bind (runLoop_alike halike n hstart) fun running s t h₁ => ?_
    obtain ⟨hend, h₂⟩ := endIo_alike halike h₁
    refine rel_bind_same (guard (!running)) fun _ => ?_
    exact Option.Rel.some ⟨by rw [hend], h₂⟩

theorem simulatorWriteAddress_alike (halike : env.Alike R env') (address value : Word)
    (h : SimAlike R sim sim') :
    Option.Rel (SimAlike R) (simulatorWriteAddress env sim address value)
      (simulatorWriteAddress env' sim' address value) := by
  obtain ⟨t, hR, rfl⟩ := h
  exact rel_bind (busWrite_alike halike address value ⟨t, hR, rfl⟩)
    fun m₁ m₂ hm => Option.Rel.some (SimAlike.of_machine hm _ _ _)

theorem loadWords_alike (halike : env.Alike R env') {words : List Word} {address : Word}
    (h : MachineAlike R m m') :
    Option.Rel (MachineAlike R) (loadWords env m address words)
      (loadWords env' m' address words) := by
  induction words generalizing m m' address with
  | nil => exact Option.Rel.some h
  | cons word rest ih =>
    exact rel_bind (busWrite_alike halike address word h) fun _ _ h₁ => ih h₁

theorem simulatorLoadProgram_alike (halike : env.Alike R env') (words : List Word)
    (last : ℤ) (h : SimAlike R sim sim') :
    AgreeUpTo (SimAlike R) (simulatorLoadProgram env sim words last)
      (simulatorLoadProgram env' sim' words last) := by
  cases words with
  | nil => exact Option.Rel.some ⟨rfl, h⟩
  | cons startingAddress rest =>
    obtain ⟨t, hR, rfl⟩ := h
    exact rel_bind (loadWords_alike halike ⟨t, hR, rfl⟩)
      fun m₁ m₂ hm => Option.Rel.some ⟨rfl, SimAlike.of_machine hm _ _ _⟩

theorem callStart_alike (halike : env.Alike R env') (device : DevicePtr) (h : MachineAlike R m m') :
    Option.Rel (MachineAlike R) (callStart env m device)
      (callStart env' m' device) := by
  obtain ⟨t, hR, rfl⟩ := h
  exact agree_bind (runCallback_alike halike device (halike.start device) ⟨t, hR, rfl⟩)
    fun _ m₁ m₂ hm => Option.Rel.some hm

theorem SimAlike.checkDeviceSubscriptions (halike : env.Alike R env') (h : SimAlike R sim sim')
    (device : DevicePtr) :
    SimAlike R (simulatorCheckDeviceSubscriptions env sim device)
      (simulatorCheckDeviceSubscriptions env' sim' device) := by
  obtain ⟨t, hR, rfl⟩ := h
  simp only [simulatorCheckDeviceSubscriptions, rel_isSome (halike.onInput device),
    halike.onTick]
  split_ifs <;> exact ⟨t, hR, rfl⟩

theorem simulatorAttachDevice_alike (halike : env.Alike R env') (device : DevicePtr)
    (h : SimAlike R sim sim') :
    AgreeUpTo (SimAlike R) (simulatorAttachDevice env sim device)
      (simulatorAttachDevice env' sim' device) := by
  obtain ⟨t, hR, rfl⟩ := h
  have hattach : busAttach env'.libc (env'.device device) (sim.withStates t).machine.bus device =
      busAttach env.libc (env.device device) sim.machine.bus device := by
    rw [busAttach, busAttach, halike.libc, halike.getAddresses, halike.getAddressMethod]
    rfl
  simp only [simulatorAttachDevice, hattach]
  refine rel_bind_same (busAttach env.libc (env.device device) sim.machine.bus device) ?_
  rintro ⟨status, bus⟩
  dsimp only
  split
  · exact Option.Rel.some ⟨rfl, t, hR, rfl⟩
  · refine rel_bind (callStart_alike halike device ⟨t, hR, rfl⟩) fun m₁ m₂ hm => ?_
    exact Option.Rel.some
      ⟨rfl, (SimAlike.of_machine hm _ _ _).checkDeviceSubscriptions halike device⟩

/-- **What answers alike makes no difference.** -/
theorem runCommand_alike (halike : env.Alike R env') (command : Command)
    (h : SimAlike R sim sim') :
    AgreeUpTo (SimAlike R) (runCommand env command sim)
      (runCommand env' command sim') := by
  cases command with
  | attachDevice device =>
    exact rel_map (simulatorAttachDevice_alike halike device h)
      fun x y hxy => ⟨congrArg some hxy.1, hxy.2⟩
  | writeAddress address value =>
    exact rel_map (simulatorWriteAddress_alike halike address value h) fun x y hxy => ⟨rfl, hxy⟩
  | writeRegister reg value =>
    obtain ⟨t, hR, rfl⟩ := h
    exact Option.Rel.some ⟨rfl, t, hR, rfl⟩
  | loadProgram words last =>
    exact rel_map (simulatorLoadProgram_alike halike words last h)
      fun x y hxy => ⟨congrArg some hxy.1, hxy.2⟩
  | updateDevicesInput input =>
    exact rel_map (simulatorUpdateDevicesInput_alike halike input h) fun x y hxy => ⟨rfl, hxy⟩
  | step amt => exact simulatorStep_alike halike amt h
  | runUntilEnd n =>
    exact rel_map (simulatorRunUntilEnd_alike halike n h)
      fun x y hxy => ⟨congrArg some hxy.1, hxy.2⟩

theorem runCommands_alike (halike : env.Alike R env') (commands : List Command)
    (h : SimAlike R sim sim') :
    AgreeUpTo (SimAlike R) (run (runCommand env) commands sim)
      (run (runCommand env') commands sim') :=
  run_agree (fun command _ _ h => runCommand_alike halike command h) h

end AlikeCommands

end Lc3Simulator
