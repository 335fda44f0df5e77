import Lc3Simulator.AddressOwners
import Lc3Simulator.Computer
import Lc3Simulator.PriorityMap
import Lc3Simulator.Subscriptions

/-!
# The simulator with its two plugins is a computer

Attach the keyboard and the display, in either order. From then on the simulator does what the
`Computer` does: every access ends at the register or the word it names, every callback comes back,
the queue of interrupts holds at most the one of the keyboard, and the list of devices that take
input is there. So every command has the result the computer gives, whatever the programs that run
do and whatever is typed; and since the computer never fails, neither does the simulator.

## Main definitions

* `PluginData`, `pluginEnv` — the two plugins and the states they keep
* `MachineShows`, `Shows` — a machine, and a simulator, that show a console and a computer

## Main results

* `handler_shows` — one access
* `tick_shows`, `loopBody_shows` — one round
* `runCommand_shows` — one command
* `shows_attached` — the simulator that the plugins are attached to
-/

namespace Lc3Simulator

open Interaction Transition

/-! ### The two plugins -/

/-- What the two `data` pointers lead to. -/
structure PluginData where
  keyboard : KeyboardData
  display : DisplayData

def pluginInit : PluginData := ⟨keyboardInit, displayInit⟩

def keyboardPtr : DevicePtr := 0

def displayPtr : DevicePtr := 1

/-- A callback of a device whose state is one part of the states of all devices. -/
def Callback.onPart {ω δ α : Type} (get : ω → δ) (set : ω → δ → ω) (callback : Callback δ α) :
    Callback ω α :=
  fun s => (callback (get s)).map fun x => (x.1, set s x.2.1, x.2.2)

/-- A device whose state is one part of the states of all devices. -/
def Device.onPart {ω δ : Type} (get : ω → δ) (set : ω → δ → ω) (device : Device δ) : Device ω where
  start := device.start.onPart get set
  readRegister address := (device.readRegister address).onPart get set
  writeRegister address value := (device.writeRegister address value).onPart get set
  onInput := device.onInput.map fun onInput input => (onInput input).onPart get set
  onTick := device.onTick.map fun onTick => onTick.onPart get set
  getAddresses := device.getAddresses
  getAddressMethod := device.getAddressMethod

/-- The devices behind the two pointers. No other pointer is used. -/
def pluginDevice (device : DevicePtr) : Device PluginData :=
  if device = displayPtr then
    displayDevice.onPart PluginData.display fun s display => { s with display }
  else
    keyboardDevice.onPart PluginData.keyboard fun s keyboard => { s with keyboard }

variable {ι : Type}

/-- The two plugins, with any C library and any terminal. -/
def pluginEnv (libc : SortSearch BusAttachment) (io : DeviceIo ι) : Env PluginData ι :=
  ⟨libc, pluginDevice, io⟩

/-- The owners of the four device registers. -/
def pluginOwner : Word → Option DevicePtr :=
  withOwner (withOwner (fun _ => none) keyboardPtr [kbsrAddress, kbdrAddress]) displayPtr
    [dsrAddress, ddrAddress]

theorem pluginOwner_eq_none {address : Word} : pluginOwner address = none ↔ Ordinary address := by
  simp only [pluginOwner, withOwner, List.mem_cons, List.not_mem_nil, or_false, Ordinary]
  split_ifs with hdisplay hkeyboard <;> simp only [true_iff, false_iff] <;> tauto

/-! ### What the machine shows -/

/-- The interrupt of the keyboard, as the queue has it. -/
def keyRequest : ℕ ×ₗ ℕ :=
  requestKey keyboardInterruptPriority.toNat keyboardInterruptVector.toNat

def keyRequests (waiting : Bool) : Requests := if waiting then {keyRequest} else ∅

/-- The machine is the console, behind an address map and a queue. -/
structure MachineShows (m : Machine PluginData ι) (c : Console ι) : Prop where
  owned : Owned pluginOwner m.bus
  memory : ∀ address, Ordinary address → (m.bus.memory address).value = c.memory address
  devices : m.devices = ⟨c.keyboard, c.display⟩
  started : keyboardPtr ∈ m.started ∧ displayPtr ∈ m.started
  queue : QueueInvariant m.interCont
  pending : pending m.interCont = keyRequests c.keyWaiting
  terminal : m.deviceIo = c.terminal

section Access

variable (libc : SortSearch BusAttachment) (io : DeviceIo ι) {m : Machine PluginData ι}
  {c : Console ι}

theorem MachineShows.withDevices (h : MachineShows m c) (keyboard : KeyboardData)
    (display : DisplayData) :
    MachineShows { m with devices := ⟨keyboard, display⟩ } { c with keyboard, display } :=
  ⟨h.owned, h.memory, rfl, h.started, h.queue, h.pending, h.terminal⟩

theorem MachineShows.withTerminal (h : MachineShows m c) (terminal : ι) :
    MachineShows { m with deviceIo := terminal } { c with terminal } :=
  ⟨h.owned, h.memory, h.devices, h.started, h.queue, h.pending, rfl⟩

/-- A callback that calls nothing. -/
theorem runCallback_silent {ω α : Type} {env : Env ω ι} {m : Machine ω ι} {device : DevicePtr}
    {callback : Callback ω α} {a : α} {devices : ω}
    (h : callback m.devices = some (a, devices, [])) :
    runCallback env device callback m = some (a, { m with devices }) := by
  rw [runCallback, h]
  simp

/-- A register that is read without a call of the host. -/
theorem busRead_register (h : MachineShows m c) (device : DevicePtr) {address value : Word}
    {devices : PluginData} (howner : pluginOwner address = some device)
    (hcallback : (pluginDevice device).readRegister address ⟨c.keyboard, c.display⟩ =
      some (value, devices, [])) :
    busRead (pluginEnv libc io) m address = some (value, { m with devices }) := by
  rw [(h.owned.reachesDevice howner).read]
  exact runCallback_silent (by rw [h.devices]; exact hcallback)

/-- A register that is written without a call of the host. -/
theorem busWrite_register (h : MachineShows m c) (device : DevicePtr) {address value : Word}
    {devices : PluginData} (howner : pluginOwner address = some device)
    (hcallback : (pluginDevice device).writeRegister address value ⟨c.keyboard, c.display⟩ =
      some ((), devices, [])) :
    busWrite (pluginEnv libc io) m address value = some { m with devices } := by
  rw [(h.owned.reachesDevice howner).write,
    runCallback_silent (show _ = some ((), devices, []) by rw [h.devices]; exact hcallback)]
  rfl

/-- Reading. -/
theorem busRead_shows (h : MachineShows m c) (address : Word) :
    ∃ m', busRead (pluginEnv libc io) m address = some ((c.read address).1, m') ∧
      MachineShows m' (c.read address).2 := by
  have hsame : MachineShows { m with devices := ⟨c.keyboard, c.display⟩ } c :=
    h.withDevices c.keyboard c.display
  rw [Console.read]
  split_ifs with hkbsr hkbdr hdsr hddr
  · subst hkbsr
    exact ⟨_, busRead_register libc io h keyboardPtr (by decide) rfl, hsame⟩
  · subst hkbdr
    exact ⟨_, busRead_register libc io h keyboardPtr (by decide) rfl, h.withDevices _ _⟩
  · subst hdsr
    exact ⟨_, busRead_register libc io h displayPtr (by decide) rfl, hsame⟩
  · subst hddr
    exact ⟨_, busRead_register libc io h displayPtr (by decide) rfl, hsame⟩
  · have hordinary : Ordinary address := ⟨hkbsr, hkbdr, hdsr, hddr⟩
    rw [(h.owned.reachesMemory (pluginOwner_eq_none.mpr hordinary)).read,
      h.memory address hordinary]
    exact ⟨m, rfl, h⟩

/-- Storing a word in ordinary memory. -/
theorem MachineShows.setValue (h : MachineShows m c) (address value : Word) :
    MachineShows { m with bus := m.bus.setValue address value }
      { c with memory := Function.update c.memory address value } := by
  refine ⟨h.owned.setValue address value, fun a ha => ?_, h.devices, h.started, h.queue,
    h.pending, h.terminal⟩
  rcases eq_or_ne a address with rfl | hne
  · simp [Bus.setValue]
  · simpa [Bus.setValue, hne] using h.memory a ha

/-- Printing a character. -/
theorem busWrite_ddr (h : MachineShows m c) (value : Word) :
    busWrite (pluginEnv libc io) m ddrAddress value = some { m with
      devices := ⟨c.keyboard, c.display⟩
      deviceIo := io.writeChar (value.setWidth 8) c.terminal } := by
  have howner : pluginOwner ddrAddress = some displayPtr := by decide
  rw [(h.owned.reachesDevice howner).write, runCallback, h.devices, ← h.terminal]
  simp [pluginEnv, pluginDevice, Device.onPart, Callback.onPart, displayDevice,
    displayWriteRegister, hostCall, simulatorHostWriteOutput, h.started.2, dsrAddress, ddrAddress]

/-- Writing. -/
theorem busWrite_shows (h : MachineShows m c) (address value : Word) :
    ∃ m', busWrite (pluginEnv libc io) m address value = some m' ∧
      MachineShows m' (c.write io address value) := by
  have hsame : MachineShows { m with devices := ⟨c.keyboard, c.display⟩ } c :=
    h.withDevices c.keyboard c.display
  rw [Console.write]
  split_ifs with hkbsr hkbdr hdsr hddr
  · subst hkbsr
    exact ⟨_, busWrite_register libc io h keyboardPtr (by decide) rfl, h.withDevices _ _⟩
  · subst hkbdr
    exact ⟨_, busWrite_register libc io h keyboardPtr (by decide) rfl, hsame⟩
  · subst hdsr
    exact ⟨_, busWrite_register libc io h displayPtr (by decide) rfl, h.withDevices _ _⟩
  · subst hddr
    exact ⟨_, busWrite_ddr libc io h value, hsame.withTerminal _⟩
  · have hordinary : Ordinary address := ⟨hkbsr, hkbdr, hdsr, hddr⟩
    rw [(h.owned.reachesMemory (pluginOwner_eq_none.mpr hordinary)).write]
    exact ⟨_, rfl, h.setValue address value⟩

/-- **One access.** -/
theorem handler_shows (q : BusRequest) (m : Machine PluginData ι) (c : Console ι)
    (h : MachineShows m c) :
    ∃ m', (initBusAccessor (pluginEnv libc io)).handler q m =
      some ((consoleResponder io q c).1, m') ∧ MachineShows m' (consoleResponder io q c).2 := by
  cases q with
  | read address => exact busRead_shows libc io h address
  | write address value =>
    obtain ⟨m', hwrite, hshows⟩ := busWrite_shows libc io h address value
    have hhandler : (initBusAccessor (pluginEnv libc io)).handler (.write address value) m =
        some ((), m') := Option.map_eq_some_iff.mpr ⟨m', hwrite, rfl⟩
    exact ⟨m', hhandler, hshows⟩

/-- **Every program of the CPU** does in the machine what it does in the console. -/
theorem runOnBus_shows {α : Type} (p : BusProg α) (h : MachineShows m c) :
    ∃ m', runOnBus (pluginEnv libc io) p m = some ((p.eval (consoleResponder io) c).1, m') ∧
      MachineShows m' (p.eval (consoleResponder io) c).2 :=
  p.run_eval (handler_shows libc io) h

end Access

/-! ### Input and interrupts -/

/-- The simulator is the computer: both plugins are attached, and the keyboard takes input. -/
structure Shows (sim : Simulator PluginData ι) (c : Computer ι) : Prop where
  cpu : sim.cpu = c.cpu
  machine : MachineShows sim.machine c.console
  onInput : sim.onInputDevices = some [keyboardPtr]
  onTick : sim.onTickDevices = none

theorem alert_keyRequests (waiting : Bool) : (keyRequests waiting).alert
    keyboardInterruptVector.toNat keyboardInterruptPriority.toNat = keyRequests true := by
  cases waiting <;> decide

theorem take_keyRequests (waiting : Bool) : (keyRequests waiting).take = keyRequests false := by
  cases waiting <;> decide

theorem peekResult_eq_bot {r : Option (Byte × Byte)} (h : peekResult r = ⊥) : r = none := by
  cases r with
  | none => rfl
  | some request => cases h

theorem peekResult_eq_keyRequest {r : Option (Byte × Byte)}
    (h : peekResult r = (keyRequest : ℕ ×ₗ ℕ)) :
    r = some (keyboardInterruptVector, keyboardInterruptPriority) := by
  cases r with
  | none => cases h
  | some request =>
    obtain ⟨vec, priority⟩ := request
    obtain ⟨hpriority, hvec⟩ := Prod.mk.inj (toLex.injective (WithBot.coe_injective h))
    rw [BitVec.eq_of_toNat_eq hpriority, BitVec.eq_of_toNat_eq hvec]

section Rounds

variable (libc : SortSearch BusAttachment) (io : DeviceIo ι) {m : Machine PluginData ι}
  {console : Console ι} {sim : Simulator PluginData ι} {c : Computer ι}

/-- The keyboard raises its interrupt. -/
theorem alert_shows (h : MachineShows m console) :
    ∃ m', simulatorHostAlertInterrupt m keyboardInterruptVector keyboardInterruptPriority =
      some m' ∧ MachineShows m' { console with keyWaiting := true } := by
  obtain ⟨interCont, halert, hqueue, hpending⟩ := interruptControllerAlert_refines h.queue
    (show keyboardInterruptVector.toNat < 255 by decide)
    (show keyboardInterruptPriority.toNat < 255 by decide)
  refine ⟨{ m with interCont }, by rw [simulatorHostAlertInterrupt, halert]; rfl, ?_⟩
  refine ⟨h.owned, h.memory, h.devices, h.started, hqueue, ?_, h.terminal⟩
  rw [hpending, h.pending]
  exact alert_keyRequests _

theorem callOnInput_keyboard (m : Machine PluginData ι) (input : Word) :
    callOnInput (pluginEnv libc io) input m keyboardPtr =
      (runCallback (pluginEnv libc io) keyboardPtr ((keyboardOnInput input).onPart
        PluginData.keyboard fun s keyboard => { s with keyboard }) m).map Prod.snd := by
  rw [Option.map_eq_bind]
  rfl

/-- **A character for the keyboard.** -/
theorem callOnInput_shows (h : MachineShows m console) (input : Word) :
    ∃ m', callOnInput (pluginEnv libc io) input m keyboardPtr = some m' ∧
      MachineShows m' (console.input input) := by
  obtain ⟨keyboard, hkeyboard⟩ : ∃ keyboard : KeyboardData,
      keyboard = ⟨console.keyboard.kbsr ||| readyBitSetOn, input⟩ := ⟨_, rfl⟩
  have hdata : MachineShows { m with devices := ⟨keyboard, console.display⟩ }
      { console with keyboard } := h.withDevices keyboard console.display
  have hinput : console.input input = { console with
      keyboard, keyWaiting := console.keyWaiting || interruptEnableBitOn keyboard.kbsr } := by
    rw [hkeyboard]
    rfl
  rw [hinput]
  cases henable : interruptEnableBitOn keyboard.kbsr with
  | false =>
    have hcallback : ((keyboardOnInput input).onPart PluginData.keyboard
        fun s keyboard => { s with keyboard }) m.devices =
        some ((), ⟨keyboard, console.display⟩, []) := by
      rw [h.devices, Callback.onPart, keyboardOnInput, ← hkeyboard, henable]
      rfl
    refine ⟨_, ?_, by rw [Bool.or_false]; exact hdata⟩
    rw [callOnInput_keyboard libc io, runCallback_silent hcallback]
    rfl
  | true =>
    obtain ⟨m', halert, hm'⟩ := alert_shows hdata
    have hcallback : ((keyboardOnInput input).onPart PluginData.keyboard
        fun s keyboard => { s with keyboard }) m.devices = some ((), ⟨keyboard, console.display⟩,
          [.alertInterrupt keyboardInterruptVector keyboardInterruptPriority]) := by
      rw [h.devices, Callback.onPart, keyboardOnInput, ← hkeyboard, henable]
      rfl
    have hrun : runCallback (pluginEnv libc io) keyboardPtr ((keyboardOnInput input).onPart
        PluginData.keyboard fun s keyboard => { s with keyboard }) m = some ((), m') := by
      rw [runCallback, hcallback]
      simp [h.started.1, hostCall, halert]
    refine ⟨m', ?_, by rw [Bool.or_true]; exact hm'⟩
    rw [callOnInput_keyboard libc io, hrun]
    rfl

theorem simulatorUpdateDevicesInput_shows (h : Shows sim c) (input : Word) :
    ∃ sim', simulatorUpdateDevicesInput (pluginEnv libc io) sim input = some sim' ∧
      Shows sim' { c with console := c.console.input input } := by
  obtain ⟨m', hcall, hm'⟩ := callOnInput_shows libc io h.machine input
  refine ⟨{ sim with machine := m' }, ?_, h.cpu, hm', h.onInput, h.onTick⟩
  rw [simulatorUpdateDevicesInput, h.onInput]
  simp [hcall]

theorem simulatorCheckInput_shows (h : Shows sim c) :
    ∃ sim', simulatorCheckInput (pluginEnv libc io) sim = some sim' ∧
      Shows sim' (c.checkInput io) := by
  have hio : (pluginEnv libc io).deviceIo = io := rfl
  rw [simulatorCheckInput, hio, h.machine.terminal, Computer.checkInput, Console.checkInput]
  dsimp only
  have hread : Shows
      { sim with machine := { sim.machine with deviceIo := (io.getChar c.console.terminal).2.2 } }
      { c with console := { c.console with terminal := (io.getChar c.console.terminal).2.2 } } :=
    ⟨h.cpu, h.machine.withTerminal _, h.onInput, h.onTick⟩
  by_cases hstatus : (io.getChar c.console.terminal).1 ≠ 0
  · rw [if_pos hstatus, if_pos hstatus]
    exact simulatorUpdateDevicesInput_shows libc io hread _
  · rw [if_neg hstatus, if_neg hstatus]
    exact ⟨_, rfl, hread⟩

/-- **The interrupt of the keyboard** is the only one there is. -/
theorem simulatorCheckInterrupts_shows (h : Shows sim c) :
    ∃ sim', simulatorCheckInterrupts (pluginEnv libc io) sim = some sim' ∧
      Shows sim' (c.checkInterrupts io) := by
  obtain ⟨r, hpeek, hgreatest⟩ := interruptControllerPeek_refines h.machine.queue
  rw [h.machine.pending] at hgreatest
  rw [simulatorCheckInterrupts, hpeek, Computer.checkInterrupts]
  cases hwaiting : c.console.keyWaiting with
  | false =>
    rw [hwaiting] at hgreatest
    obtain rfl := peekResult_eq_bot hgreatest
    exact ⟨sim, rfl, h⟩
  | true =>
    rw [hwaiting] at hgreatest
    obtain rfl := peekResult_eq_keyRequest hgreatest
    obtain ⟨m', hsignal, hm'⟩ := runOnBus_shows libc io
      (cpuSignalInterrupt c.cpu keyboardInterruptVector keyboardInterruptPriority) h.machine
    rw [← h.cpu] at hsignal hm' ⊢
    obtain ⟨⟨⟨taken, cpu⟩, console⟩, hr⟩ : ∃ r, r = (cpuSignalInterrupt sim.cpu
      keyboardInterruptVector keyboardInterruptPriority).eval (consoleResponder io) c.console :=
      ⟨_, rfl⟩
    rw [← hr] at hsignal hm' ⊢
    simp only [Option.bind_eq_bind, Option.bind_some, hsignal, if_true]
    cases taken with
    | false => exact ⟨_, rfl, rfl, hm', h.onInput, h.onTick⟩
    | true =>
      obtain ⟨interCont, htake, hqueue, hpending⟩ := interruptControllerTake_refines hm'.queue
      simp only [if_true, htake]
      refine ⟨_, rfl, rfl, ?_, h.onInput, h.onTick⟩
      refine ⟨hm'.owned, hm'.memory, hm'.devices, hm'.started, hqueue, ?_, hm'.terminal⟩
      rw [hpending, hm'.pending]
      exact take_keyRequests _

/-- **One tick.** -/
theorem tick_shows (h : Shows sim c) :
    ∃ sim', tick (pluginEnv libc io) sim = some ((c.tick io).1, sim') ∧
      Shows sim' (c.tick io).2 := by
  obtain ⟨m', hrun, hm'⟩ := runOnBus_shows libc io (cpuTick c.cpu) h.machine
  rw [← h.cpu] at hrun
  refine ⟨{ sim with cpu := (c.tick io).2.cpu, machine := m' }, ?_, rfl, hm', h.onInput, h.onTick⟩
  rw [tick, hrun, Computer.tick, ← h.cpu]
  rfl

/-- **What a round does after its tick.** -/
theorem loopBody_shows (h : Shows sim c) :
    ∃ sim', loopBody (pluginEnv libc io) sim = some sim' ∧ Shows sim' (c.afterTick io) := by
  obtain ⟨sim₁, hinput, h₁⟩ := simulatorCheckInput_shows libc io h
  obtain ⟨sim₂, hinterrupts, h₂⟩ := simulatorCheckInterrupts_shows libc io h₁
  refine ⟨sim₂, ?_, h₂⟩
  rw [loopBody, hinput]
  simp [simulatorUpdateDevicesOnTick, h₁.onTick, hinterrupts]

theorem runLoop_shows (n : ℕ) (h : Shows sim c) :
    ∃ sim', runLoop (pluginEnv libc io) n sim = some ((c.runLoop io n).1, sim') ∧
      Shows sim' (c.runLoop io n).2 := by
  induction n generalizing sim c with
  | zero => exact ⟨sim, rfl, h⟩
  | succ n ih =>
    obtain ⟨sim₁, htick, h₁⟩ := tick_shows libc io h
    rw [Lc3Simulator.runLoop, htick, Computer.runLoop]
    cases hrunning : (c.tick io).1 with
    | false => exact ⟨sim₁, rfl, h₁⟩
    | true =>
      obtain ⟨sim₂, hbody, h₂⟩ := loopBody_shows libc io h₁
      simpa [hbody] using ih h₂

theorem stepLoop_shows (n : ℕ) (status : Option ℤ) (h : Shows sim c) :
    ∃ sim', stepLoop (pluginEnv libc io) n status sim =
      some ((c.stepLoop io n status).1, sim') ∧ Shows sim' (c.stepLoop io n status).2 := by
  induction n generalizing sim c status with
  | zero => exact ⟨sim, rfl, h⟩
  | succ n ih =>
    obtain ⟨sim₁, htick, h₁⟩ := tick_shows libc io h
    rw [Lc3Simulator.stepLoop, htick, Computer.stepLoop]
    cases hrunning : (c.tick io).1 with
    | false => exact ⟨sim₁, rfl, h₁⟩
    | true => simpa using ih (some 1) h₁

end Rounds

/-! ### Commands -/

section Commands

variable (libc : SortSearch BusAttachment) (io : DeviceIo ι) {sim : Simulator PluginData ι}
  {c : Computer ι}

theorem simulatorWriteAddress_shows (h : Shows sim c) (address value : Word) :
    ∃ sim', simulatorWriteAddress (pluginEnv libc io) sim address value = some sim' ∧
      Shows sim' (c.writeAddress io address value) := by
  obtain ⟨m', hwrite, hm'⟩ := busWrite_shows libc io h.machine address value
  refine ⟨{ sim with machine := m' }, ?_, h.cpu, hm', h.onInput, h.onTick⟩
  rw [simulatorWriteAddress, hwrite]
  rfl

theorem loadWords_shows (h : Shows sim c) (address : Word) (words : List Word) :
    ∃ m, loadWords (pluginEnv libc io) sim.machine address words = some m ∧
      Shows { sim with machine := m } (c.load io address words) := by
  induction words generalizing sim c address with
  | nil => exact ⟨sim.machine, rfl, h⟩
  | cons word rest ih =>
    obtain ⟨m₁, hwrite, hm₁⟩ := busWrite_shows libc io h.machine address word
    have h₁ : Shows { sim with machine := m₁ } (c.writeAddress io address word) :=
      ⟨h.cpu, hm₁, h.onInput, h.onTick⟩
    obtain ⟨m, hload, hm⟩ := ih h₁ (address + 1)
    refine ⟨m, ?_, hm⟩
    rw [loadWords, hwrite]
    exact hload

theorem startIo_shows (h : Shows sim c) :
    (startIo (pluginEnv libc io) sim).1 = (c.startIo io).1 ∧
      Shows (startIo (pluginEnv libc io) sim).2 (c.startIo io).2 := by
  rw [startIo, Computer.startIo, h.machine.terminal]
  exact ⟨rfl, h.cpu, h.machine.withTerminal _, h.onInput, h.onTick⟩

theorem endIo_shows (h : Shows sim c) :
    (endIo (pluginEnv libc io) sim).1 = (c.endIo io).1 ∧
      Shows (endIo (pluginEnv libc io) sim).2 (c.endIo io).2 := by
  rw [endIo, Computer.endIo, h.machine.terminal]
  exact ⟨rfl, h.cpu, h.machine.withTerminal _, h.onInput, h.onTick⟩

/-- Every device asks for the registers of a plugin, and those are taken. -/
theorem simulatorAttachDevice_shows (h : Shows sim c) (device : DevicePtr) :
    simulatorAttachDevice (pluginEnv libc io) sim device = some (-1, sim) := by
  have hrefused : ∀ address rest, (pluginDevice device).getAddresses = address :: rest →
      (pluginDevice device).getAddressMethod = .seperate →
      (pluginOwner address).isSome = true →
      busAttach libc (pluginDevice device) sim.machine.bus device =
        some (-1, sim.machine.bus) := by
    intro address rest haddresses hmethod howner
    rw [busAttach_seperate hmethod, haddresses, addAttachments]
    rcases busAddAttachment_point libc device address h.machine.owned.invariant.mapInvariant with
      ⟨-, heq⟩ | ⟨hfree, -⟩
    · rw [heq]
      rfl
    · rw [h.machine.owned.flag_eq, howner] at hfree
      cases hfree
  have hattach : busAttach libc (pluginDevice device) sim.machine.bus device =
      some (-1, sim.machine.bus) := by
    by_cases hdisplay : device = displayPtr
    · exact hrefused dsrAddress [ddrAddress] (by rw [pluginDevice, if_pos hdisplay]; rfl)
        (by rw [pluginDevice, if_pos hdisplay]; rfl) (by decide)
    · exact hrefused kbsrAddress [kbdrAddress] (by rw [pluginDevice, if_neg hdisplay]; rfl)
        (by rw [pluginDevice, if_neg hdisplay]; rfl) (by decide)
  rw [simulatorAttachDevice]
  simp [pluginEnv, hattach]

/-- **One command** has the result that the computer gives. -/
theorem runCommand_shows (command : Command) (h : Shows sim c) :
    AgreeUpTo Shows (runCommand (pluginEnv libc io) command sim) (c.command io command) := by
  cases command with
  | attachDevice device =>
    rw [runCommand, simulatorAttachDevice_shows libc io h]
    exact Option.Rel.some ⟨rfl, h⟩
  | writeAddress address value =>
    obtain ⟨sim', hwrite, h'⟩ := simulatorWriteAddress_shows libc io h address
      value
    rw [runCommand, hwrite]
    exact Option.Rel.some ⟨rfl, h'⟩
  | writeRegister reg value =>
    have hcpu : (simulatorWriteRegister sim reg value).cpu = cpuWriteRegister c.cpu reg value := by
      rw [simulatorWriteRegister, h.cpu]
    exact Option.Rel.some ⟨rfl, hcpu, h.machine, h.onInput, h.onTick⟩
  | loadProgram words last =>
    cases words with
    | nil => exact Option.Rel.some ⟨rfl, h⟩
    | cons start rest =>
      obtain ⟨m, hload, hm⟩ := loadWords_shows libc io h start rest
      rw [runCommand, simulatorLoadProgram, hload]
      have hcpu : cpuWriteRegister sim.cpu .pc start =
          cpuWriteRegister (c.load io start rest).cpu .pc start := by rw [← hm.cpu]
      exact Option.Rel.some ⟨rfl, hcpu, hm.machine, hm.onInput, hm.onTick⟩
  | updateDevicesInput input =>
    obtain ⟨sim', hinput, h'⟩ := simulatorUpdateDevicesInput_shows libc io h input
    rw [runCommand, hinput]
    exact Option.Rel.some ⟨rfl, h'⟩
  | step amt =>
    obtain ⟨hstatus, hstart⟩ := startIo_shows libc io h
    rw [runCommand, simulatorStep, Computer.command]
    dsimp only
    rw [hstatus]
    by_cases hfail : (c.startIo io).1 < 0
    · rw [if_pos hfail, if_pos hfail]
      exact Option.Rel.some ⟨rfl, hstart⟩
    · obtain ⟨sim₁, hloop, h₁⟩ := stepLoop_shows libc io amt.toNat none hstart
      obtain ⟨hend, h₂⟩ := endIo_shows libc io h₁
      rw [if_neg hfail, if_neg hfail, hloop]
      exact Option.Rel.some ⟨by rw [← hend], h₂⟩
  | runUntilEnd n =>
    obtain ⟨hstatus, hstart⟩ := startIo_shows libc io h
    rw [runCommand, simulatorRunUntilEnd, Computer.command]
    dsimp only
    rw [hstatus]
    by_cases hfail : (c.startIo io).1 < 0
    · rw [if_pos hfail, if_pos hfail]
      exact Option.Rel.some ⟨rfl, hstart⟩
    · obtain ⟨sim₁, hloop, h₁⟩ := runLoop_shows libc io n hstart
      obtain ⟨hend, h₂⟩ := endIo_shows libc io h₁
      rw [if_neg hfail, if_neg hfail, hloop]
      cases hrunning : ((c.startIo io).2.runLoop io n).1 with
      | true => exact Option.Rel.none
      | false => exact Option.Rel.some ⟨by rw [← hend], h₂⟩

/-- **Commands** have the results that the computer gives. -/
theorem runCommands_shows (commands : List Command) (h : Shows sim c) :
    AgreeUpTo Shows (run (runCommand (pluginEnv libc io)) commands sim)
      (run (fun command c => c.command io command) commands c) :=
  run_agree (fun command _ _ h => runCommand_shows libc io command h) h

end Commands

/-! ### Attaching the plugins -/

section Attach

variable {ω : Type} {sim : Simulator ω ι} {owner : Word → Option DevicePtr}

/-- A device with separate, free addresses whose `start` calls nothing. -/
theorem simulatorAttachDevice_owned (env : Env ω ι) (device : DevicePtr)
    (h : Owned owner sim.machine.bus)
    (hmethod : (env.device device).getAddressMethod = .seperate)
    (hfree : ∀ a ∈ (env.device device).getAddresses, owner a = none)
    (hnodup : (env.device device).getAddresses.Nodup)
    (hstart : (env.device device).start sim.machine.devices =
      some ((), sim.machine.devices, [])) :
    ∃ bus, simulatorAttachDevice env sim device = some (0, simulatorCheckDeviceSubscriptions env
        { sim with machine :=
          { sim.machine with bus, started := device :: sim.machine.started } } device) ∧
      Owned (withOwner owner device (env.device device).getAddresses) bus ∧
      ∀ a, (bus.memory a).value = (sim.machine.bus.memory a).value := by
  obtain ⟨bus, hattach, howned, hvalue⟩ :=
    h.busAttach env.libc device hmethod hfree hnodup
  have hsilent : runCallback env device (env.device device).start
      { sim.machine with bus, started := device :: sim.machine.started } =
        some ((), { sim.machine with bus, started := device :: sim.machine.started }) :=
    runCallback_silent hstart
  have hcall : callStart env { sim.machine with bus } device =
      some { sim.machine with bus, started := device :: sim.machine.started } :=
    Option.bind_eq_some_iff.mpr ⟨_, hsilent, rfl⟩
  refine ⟨bus, ?_, howned, hvalue⟩
  rw [simulatorAttachDevice, hattach]
  simp only [Option.bind_eq_bind, Option.bind_some, hcall, if_neg (lt_irrefl (0 : ℤ))]
  rfl

end Attach

section Attached

variable (libc : SortSearch BusAttachment) (io : DeviceIo ι)

/-- The owners are the same in either order. -/
theorem pluginOwner_swap : withOwner (withOwner (fun _ => none) displayPtr [dsrAddress, ddrAddress])
    keyboardPtr [kbsrAddress, kbdrAddress] = pluginOwner := by
  funext address
  simp only [pluginOwner, withOwner, List.mem_cons, List.not_mem_nil, or_false]
  split_ifs with hkeyboard hdisplay
  · rcases hkeyboard with rfl | rfl <;> revert hdisplay <;> decide
  all_goals rfl

theorem forall_mem_pair {P : Word → Prop} {a b : Word} (ha : P a) (hb : P b) :
    ∀ x ∈ [a, b], P x := by
  intro x hx
  rcases List.mem_pair.mp hx with rfl | rfl
  · exact ha
  · exact hb

theorem attach_keyboard {sim : Simulator PluginData ι} {owner : Word → Option DevicePtr}
    (h : Owned owner sim.machine.bus) (hfree : ∀ a ∈ [kbsrAddress, kbdrAddress], owner a = none) :
    ∃ sim', simulatorAttachDevice (pluginEnv libc io) sim keyboardPtr = some (0, sim') ∧
      Owned (withOwner owner keyboardPtr [kbsrAddress, kbdrAddress]) sim'.machine.bus ∧
      (∀ a, (sim'.machine.bus.memory a).value = (sim.machine.bus.memory a).value) ∧
      ∃ bus, sim' = { sim with
        machine := { sim.machine with bus, started := keyboardPtr :: sim.machine.started }
        onInputDevices := some (sim.onInputDevices.getD [] ++ [keyboardPtr]) } := by
  obtain ⟨bus, hattach, howned, hvalue⟩ :=
    simulatorAttachDevice_owned (pluginEnv libc io) keyboardPtr h rfl hfree
      (show [kbsrAddress, kbdrAddress].Nodup by decide) rfl
  exact ⟨_, hattach, howned, hvalue, bus, rfl⟩

theorem attach_display {sim : Simulator PluginData ι} {owner : Word → Option DevicePtr}
    (h : Owned owner sim.machine.bus) (hfree : ∀ a ∈ [dsrAddress, ddrAddress], owner a = none) :
    ∃ sim', simulatorAttachDevice (pluginEnv libc io) sim displayPtr = some (0, sim') ∧
      Owned (withOwner owner displayPtr [dsrAddress, ddrAddress]) sim'.machine.bus ∧
      (∀ a, (sim'.machine.bus.memory a).value = (sim.machine.bus.memory a).value) ∧
      ∃ bus, sim' = { sim with
        machine := { sim.machine with bus, started := displayPtr :: sim.machine.started } } := by
  obtain ⟨bus, hattach, howned, hvalue⟩ :=
    simulatorAttachDevice_owned (pluginEnv libc io) displayPtr h rfl hfree
      (show [dsrAddress, ddrAddress].Nodup by decide) rfl
  exact ⟨_, hattach, howned, hvalue, bus, rfl⟩

/-- What is left to check once both plugins are attached. -/
theorem shows_new {bus : Bus} {started : List DevicePtr} (terminal : ι)
    (howned : Owned pluginOwner bus)
    (hvalue : ∀ a, (bus.memory a).value = ((busNew.setValue mcrAddr 0x8000).memory a).value)
    (hstarted : keyboardPtr ∈ started ∧ displayPtr ∈ started) :
    Shows ⟨(Computer.new terminal).cpu, ⟨bus, interruptControllerNew, pluginInit, terminal,
      started⟩, some [keyboardPtr], none⟩ (Computer.new terminal) := by
  refine ⟨rfl, ⟨howned, fun a _ => ?_, rfl, hstarted, queueInvariant_new,
    pending_eq_empty rfl, rfl⟩, rfl, rfl⟩
  rw [hvalue]
  rcases eq_or_ne a mcrAddr with rfl | hne
  · simp [Bus.setValue, Computer.new]
  · simp [Bus.setValue, Computer.new, busNew, hne]

/-- **The plugins are attached**, in either order, and the simulator is a new computer. -/
theorem shows_attached (terminal : ι) {devices : List DevicePtr}
    (hdevices : devices = [keyboardPtr, displayPtr] ∨ devices = [displayPtr, keyboardPtr]) :
    ∃ sim₀ sim, simulatorNew (pluginEnv libc io) pluginInit terminal = some sim₀ ∧
      run (runCommand (pluginEnv libc io)) (devices.map .attachDevice) sim₀ =
        some ([some 0, some 0], sim) ∧ Shows sim (Computer.new terminal) := by
  obtain ⟨sim₀, hsim₀⟩ : ∃ sim₀ : Simulator PluginData ι, sim₀ = ⟨(Computer.new terminal).cpu,
      ⟨busNew.setValue mcrAddr 0x8000, interruptControllerNew, pluginInit, terminal, []⟩,
      none, none⟩ := ⟨_, rfl⟩
  have hnew : simulatorNew (pluginEnv libc io) pluginInit terminal = some sim₀ := by
    rw [hsim₀]
    rfl
  have howned₀ : Owned (fun _ => none) sim₀.machine.bus := by
    rw [hsim₀]
    exact owned_new.setValue mcrAddr 0x8000
  rcases hdevices with rfl | rfl
  · obtain ⟨sim₁, hattach₁, howned₁, hvalue₁, bus₁, hsim₁⟩ :=
      attach_keyboard libc io howned₀ fun _ _ => rfl
    obtain ⟨sim₂, hattach₂, howned₂, hvalue₂, bus₂, hsim₂⟩ :=
      attach_display libc io howned₁ (forall_mem_pair rfl rfl)
    refine ⟨sim₀, sim₂, hnew, by simp [run_cons, runCommand, hattach₁, hattach₂], ?_⟩
    subst hsim₂ hsim₁ hsim₀
    exact shows_new terminal howned₂ (fun a => (hvalue₂ a).trans (hvalue₁ a))
      ⟨List.mem_cons_of_mem _ List.mem_cons_self, List.mem_cons_self⟩
  · obtain ⟨sim₁, hattach₁, howned₁, hvalue₁, bus₁, hsim₁⟩ :=
      attach_display libc io howned₀ fun _ _ => rfl
    obtain ⟨sim₂, hattach₂, howned₂, hvalue₂, bus₂, hsim₂⟩ :=
      attach_keyboard libc io howned₁ (forall_mem_pair rfl rfl)
    refine ⟨sim₀, sim₂, hnew, by simp [run_cons, runCommand, hattach₁, hattach₂], ?_⟩
    subst hsim₂ hsim₁ hsim₀
    exact shows_new terminal (pluginOwner_swap ▸ howned₂)
      (fun a => (hvalue₂ a).trans (hvalue₁ a))
      ⟨List.mem_cons_self, List.mem_cons_of_mem _ List.mem_cons_self⟩

end Attached

/-! ### Every run -/

/-- **The simulator with its two plugins is a computer.** Attach them to a new simulator, in either
order. Then any commands, with any programs and any input, have the results that they have on a new
computer, and leave the computer's registers, memory, device registers and terminal. -/
theorem plugins_refine (libc : SortSearch BusAttachment) (io : DeviceIo ι) (terminal : ι)
    {devices : List DevicePtr}
    (hdevices : devices = [keyboardPtr, displayPtr] ∨ devices = [displayPtr, keyboardPtr]) :
    ∃ sim₀ sim, simulatorNew (pluginEnv libc io) pluginInit terminal = some sim₀ ∧
      run (runCommand (pluginEnv libc io)) (devices.map .attachDevice) sim₀ =
        some ([some 0, some 0], sim) ∧
      ∀ commands, AgreeUpTo Shows (run (runCommand (pluginEnv libc io)) commands sim)
        (run (fun command c => c.command io command) commands (Computer.new terminal)) := by
  obtain ⟨sim₀, sim, hnew, hattach, hshows⟩ := shows_attached libc io terminal hdevices
  exact ⟨sim₀, sim, hnew, hattach, fun commands => runCommands_shows libc io commands hshows⟩

theorem plugins_refine_silent :
    ∃ sim₀ sim, simulatorNew (pluginEnv (SortSearch.bisecting _) silentIo) pluginInit () =
        some sim₀ ∧
      run (runCommand (pluginEnv (SortSearch.bisecting _) silentIo))
        [.attachDevice keyboardPtr, .attachDevice displayPtr] sim₀ = some ([some 0, some 0], sim) ∧
      ∀ commands, AgreeUpTo Shows
        (run (runCommand (pluginEnv (SortSearch.bisecting _) silentIo)) commands sim)
        (run (fun command c => c.command silentIo command) commands (Computer.new ())) :=
  plugins_refine _ _ _ (Or.inl rfl)

/-- The only command without a result is a run that is still going. -/
theorem command_stuck {io : DeviceIo ι} {c : Computer ι} {command : Command}
    (h : c.command io command = none) : ∃ n, command = .runUntilEnd n ∧
      ((c.startIo io).2.runLoop io n).1 = true := by
  cases command with
  | runUntilEnd n =>
    refine ⟨n, rfl, ?_⟩
    rw [Computer.command] at h
    dsimp only at h
    split_ifs at h with hfail hrunning
    exact hrunning
  | loadProgram words last => cases words <;> cases h
  | step amt =>
    rw [Computer.command] at h
    dsimp only at h
    split_ifs at h
  | attachDevice | writeAddress | writeRegister | updateDevicesInput => cases h

/-- **The simulator with its two plugins never breaks down.** Whatever commands were carried out
since the plugins were attached, with whatever programs and input, every command comes back, but for
a run of a machine that goes on for ever; and every round of that run comes back as well. -/
theorem plugins_never_stuck (libc : SortSearch BusAttachment) (io : DeviceIo ι) (terminal : ι)
    {devices : List DevicePtr}
    (hdevices : devices = [keyboardPtr, displayPtr] ∨ devices = [displayPtr, keyboardPtr]) :
    ∃ sim₀ sim, simulatorNew (pluginEnv libc io) pluginInit terminal = some sim₀ ∧
      run (runCommand (pluginEnv libc io)) (devices.map .attachDevice) sim₀ =
        some ([some 0, some 0], sim) ∧
      ∀ commands outs sim', run (runCommand (pluginEnv libc io)) commands sim = some (outs, sim') →
        ∀ command, runCommand (pluginEnv libc io) command sim' = none →
          ∃ n sim'', command = .runUntilEnd n ∧
            runLoop (pluginEnv libc io) n (startIo (pluginEnv libc io) sim').2 =
              some (true, sim'') := by
  obtain ⟨sim₀, sim, hnew, hattach, hshows⟩ := shows_attached libc io terminal hdevices
  refine ⟨sim₀, sim, hnew, hattach, fun commands outs sim' hrun command hstuck => ?_⟩
  have hagree := runCommands_shows libc io commands hshows
  rw [hrun] at hagree
  obtain ⟨c, -, hshows'⟩ := agree_some_left hagree
  have hcommand := runCommand_shows libc io command hshows'
  rw [hstuck] at hcommand
  obtain ⟨n, rfl, hrunning⟩ := command_stuck (agree_none_left hcommand)
  obtain ⟨-, hstart⟩ := startIo_shows libc io hshows'
  obtain ⟨sim'', hloop, -⟩ := runLoop_shows libc io n hstart
  rw [hrunning] at hloop
  exact ⟨n, sim'', rfl, hloop⟩

theorem plugins_never_stuck_silent :
    ∃ sim₀ sim, simulatorNew (pluginEnv (SortSearch.bisecting _) silentIo) pluginInit () =
        some sim₀ ∧
      run (runCommand (pluginEnv (SortSearch.bisecting _) silentIo))
        [.attachDevice displayPtr, .attachDevice keyboardPtr] sim₀ = some ([some 0, some 0], sim) ∧
      ∀ command, runCommand (pluginEnv (SortSearch.bisecting _) silentIo) command sim = none →
        ∃ n sim'', command = .runUntilEnd n ∧
          runLoop (pluginEnv (SortSearch.bisecting _) silentIo) n
            (startIo (pluginEnv (SortSearch.bisecting _) silentIo) sim).2 = some (true, sim'') := by
  obtain ⟨sim₀, sim, hnew, hattach, hstuck⟩ :=
    plugins_never_stuck (SortSearch.bisecting _) silentIo () (Or.inr rfl)
  exact ⟨sim₀, sim, hnew, hattach, hstuck [] [] sim rfl⟩

end Lc3Simulator
