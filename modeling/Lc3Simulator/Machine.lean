import Lc3Simulator.Bus
import Lc3Simulator.Cpu
import Lc3Simulator.InterruptController
import Lc3Simulator.Library.Transition

/-!
# What a bus access reaches

An access to a device register runs a callback of the device, and a callback may call back through
the host: it may raise an interrupt or print a character. So what a bus access can change is the
bus, the interrupt controller, the devices and the terminal together; this is a `Machine`. The
functions here are `bus_read` and `bus_write` of `bus.c`, and the host and bus accessor of
`simulator.c`.

A device calls the host through the pointer that `start` hands it. A device that was never started
has none, and a host call by such a device does not come back.

## Main definitions

* `Env` — the devices, the terminal and the C library
* `Machine` — the state behind the bus
* `busRead`, `busWrite` — an access, wherever the address leads
* `initBusAccessor` — the bus of a CPU in this machine
-/

namespace Lc3Simulator

/-- What the simulator is linked with: the C library, the device behind every pointer, and the
terminal. -/
structure Env (ω ι : Type) where
  libc : SortSearch BusAttachment
  device : DevicePtr → Device ω
  deviceIo : DeviceIo ι

/-- Everything that a bus access may change. -/
structure Machine (ω ι : Type) where
  bus : Bus
  interCont : InterruptController
  /-- The states of the devices. -/
  devices : ω
  /-- The state of the terminal. -/
  deviceIo : ι
  /-- The devices that `start` has handed the host to. -/
  started : List DevicePtr

variable {ω ι α : Type} (env : Env ω ι)

/-! ### The host -/

/-- `simulator_host_write_output`. -/
def simulatorHostWriteOutput (m : Machine ω ι) (output : Byte) : Machine ω ι :=
  { m with deviceIo := env.deviceIo.writeChar output m.deviceIo }

/-- `simulator_host_alert_interrupt`. -/
def simulatorHostAlertInterrupt (m : Machine ω ι) (vec priority : Byte) : Option (Machine ω ι) := do
  let interCont ← interruptControllerAlert m.interCont vec priority
  return { m with interCont }

/-- One call through the host. -/
def hostCall (m : Machine ω ι) : HostCall → Option (Machine ω ι)
  | .writeOutput output => some (simulatorHostWriteOutput env m output)
  | .alertInterrupt vec priority => simulatorHostAlertInterrupt m vec priority

/-- Run a callback of `device`, with the host calls it makes. -/
def runCallback (device : DevicePtr) (callback : Callback ω α) (m : Machine ω ι) :
    Option (α × Machine ω ι) := do
  let (value, devices, calls) ← callback m.devices
  guard (calls = [] ∨ device ∈ m.started)
  let m ← calls.foldlM (hostCall env) { m with devices }
  return (value, m)

/-! ### The bus -/

/-- `bus_read`. An address that is flagged and has no attachment dereferences a null pointer. -/
def busRead (m : Machine ω ι) (address : Word) : Option (Word × Machine ω ι) :=
  if (m.bus.memory address).attachmentFlag then do
    let attachment ← busSearch env.libc m.bus address
    runCallback env attachment.device ((env.device attachment.device).readRegister address) m
  else
    some ((m.bus.memory address).value, m)

/-- `mem_val->value = value`. -/
def Bus.setValue (bus : Bus) (address value : Word) : Bus :=
  { bus with
    memory := Function.update bus.memory address { bus.memory address with value := value } }

/-- `bus_write`. -/
def busWrite (m : Machine ω ι) (address value : Word) : Option (Machine ω ι) :=
  if (m.bus.memory address).attachmentFlag then do
    let attachment ← busSearch env.libc m.bus address
    let result ← runCallback env attachment.device
      ((env.device attachment.device).writeRegister address value) m
    return result.2
  else
    some { m with bus := m.bus.setValue address value }

/-- `init_bus_accessor`. -/
def initBusAccessor : BusAccessor (Machine ω ι) where
  read := busRead env
  write := busWrite env

/-! ### A machine without devices -/

/-- A device that declares no address. -/
def inertDevice : Device Unit where
  start _ := some ((), (), [])
  readRegister _ _ := none
  writeRegister _ _ _ := none
  onInput := none
  onTick := none
  getAddresses := []
  getAddressMethod := .seperate

/-- A terminal that never has a character. -/
def silentIo : DeviceIo Unit where
  getChar _ := (0, 0, ())
  writeChar _ _ := ()
  ioStart _ := (0, ())
  ioEnd _ := (0, ())

def bareEnv : Env Unit Unit := ⟨SortSearch.bisecting _, fun _ => inertDevice, silentIo⟩

/-- Nothing but memory. -/
def bareMachine (contents : Word → Word) : Machine Unit Unit :=
  ⟨⟨[], fun address => ⟨contents address, false⟩⟩, interruptControllerNew, (), (), []⟩

/-! ### What an access leaves alone -/

variable {env} {m m' : Machine ω ι} {address value : Word}

theorem hostCall_eq_some {call : HostCall} (h : hostCall env m call = some m') :
    m'.bus = m.bus ∧ m'.started = m.started := by
  cases call with
  | writeOutput output =>
    obtain rfl := Option.some.inj h
    exact ⟨rfl, rfl⟩
  | alertInterrupt vec priority =>
    obtain ⟨_, -, h⟩ := Option.bind_eq_some_iff.mp h
    obtain rfl := Option.some.inj h
    exact ⟨rfl, rfl⟩

/-- Host calls change neither the bus nor the list of started devices. -/
theorem foldlM_hostCall_eq_some {calls : List HostCall}
    (h : calls.foldlM (hostCall env) m = some m') : m'.bus = m.bus ∧ m'.started = m.started := by
  refine Transition.foldlM_invariant (I := fun m₁ => m₁.bus = m.bus ∧ m₁.started = m.started)
    (fun call m₁ m₂ hm₁ hcall => ?_) ⟨rfl, rfl⟩ h
  obtain ⟨hbus, hstarted⟩ := hostCall_eq_some hcall
  exact ⟨hbus.trans hm₁.1, hstarted.trans hm₁.2⟩

/-- A callback changes neither the bus nor the list of started devices. -/
theorem runCallback_eq_some {device : DevicePtr} {callback : Callback ω α} {a : α}
    (h : runCallback env device callback m = some (a, m')) :
    m'.bus = m.bus ∧ m'.started = m.started := by
  obtain ⟨⟨b, devices, calls⟩, -, h⟩ := Option.bind_eq_some_iff.mp h
  obtain ⟨-, -, h⟩ := Option.bind_eq_some_iff.mp h
  obtain ⟨m₁, hcalls, h⟩ := Option.bind_eq_some_iff.mp h
  obtain ⟨rfl, rfl⟩ := Prod.mk.inj (Option.some.inj h)
  obtain ⟨hbus, hstarted⟩ := foldlM_hostCall_eq_some hcalls
  exact ⟨hbus, hstarted⟩

/-- Reading ordinary memory. -/
theorem busRead_ordinary (h : (m.bus.memory address).attachmentFlag = false) :
    busRead env m address = some ((m.bus.memory address).value, m) := by
  rw [busRead, if_neg (by rw [h]; exact Bool.false_ne_true)]

/-- Reading changes no memory. -/
theorem busRead_eq_some (h : busRead env m address = some (value, m')) :
    m'.bus = m.bus ∧ m'.started = m.started := by
  rw [busRead] at h
  cases hflag : (m.bus.memory address).attachmentFlag with
  | false =>
    rw [hflag] at h
    obtain ⟨-, rfl⟩ := Prod.mk.inj (Option.some.inj h)
    exact ⟨rfl, rfl⟩
  | true =>
    rw [hflag] at h
    obtain ⟨attachment, -, h⟩ := Option.bind_eq_some_iff.mp h
    exact runCallback_eq_some h

/-- Writing changes at most the memory cell of its address, and never the address map. -/
theorem busWrite_eq_some (h : busWrite env m address value = some m') :
    (m'.bus = if (m.bus.memory address).attachmentFlag then m.bus
      else m.bus.setValue address value) ∧ m'.started = m.started := by
  rw [busWrite] at h
  cases hflag : (m.bus.memory address).attachmentFlag with
  | false =>
    rw [hflag] at h
    obtain rfl := Option.some.inj h
    exact ⟨rfl, rfl⟩
  | true =>
    rw [hflag] at h
    obtain ⟨attachment, -, h⟩ := Option.bind_eq_some_iff.mp h
    obtain ⟨⟨_, m₁⟩, hcallback, h⟩ := Option.bind_eq_some_iff.mp h
    obtain rfl := Option.some.inj h
    exact runCallback_eq_some hcallback

theorem Bus.setValue_value_self (bus : Bus) (address value : Word) :
    ((bus.setValue address value).memory address).value = value := by
  simp [Bus.setValue]

theorem Bus.setValue_value_of_ne (bus : Bus) {address a : Word} (value : Word) (h : a ≠ address) :
    ((bus.setValue address value).memory a).value = (bus.memory a).value := by
  simp [Bus.setValue, h]

@[simp] theorem Bus.setValue_attachmentFlag (bus : Bus) (address value a : Word) :
    ((bus.setValue address value).memory a).attachmentFlag = (bus.memory a).attachmentFlag := by
  rcases eq_or_ne a address with rfl | hne
  · simp [Bus.setValue]
  · simp [Bus.setValue, hne]

/-- The same address map, and the same devices started. -/
structure SameMap (m m' : Machine ω ι) : Prop where
  attachments : m'.bus.attachments = m.bus.attachments
  flag : ∀ a, (m'.bus.memory a).attachmentFlag = (m.bus.memory a).attachmentFlag
  started : m'.started = m.started

theorem SameMap.refl (m : Machine ω ι) : SameMap m m := ⟨rfl, fun _ => rfl, rfl⟩

theorem SameMap.trans {m₁ m₂ m₃ : Machine ω ι} (h : SameMap m₁ m₂) (h' : SameMap m₂ m₃) :
    SameMap m₁ m₃ :=
  ⟨h'.attachments.trans h.attachments, fun a => (h'.flag a).trans (h.flag a),
    h'.started.trans h.started⟩

theorem sameMap_of_bus (hbus : m'.bus = m.bus) (hstarted : m'.started = m.started) :
    SameMap m m' :=
  ⟨congrArg Bus.attachments hbus, fun a => by rw [hbus], hstarted⟩

theorem runCallback_sameMap {device : DevicePtr} {callback : Callback ω α} {a : α}
    (h : runCallback env device callback m = some (a, m')) : SameMap m m' :=
  sameMap_of_bus (runCallback_eq_some h).1 (runCallback_eq_some h).2

theorem busWrite_sameMap (h : busWrite env m address value = some m') : SameMap m m' := by
  obtain ⟨hbus, hstarted⟩ := busWrite_eq_some h
  by_cases hflag : (m.bus.memory address).attachmentFlag = true
  · rw [if_pos hflag] at hbus
    exact sameMap_of_bus hbus hstarted
  · rw [if_neg hflag] at hbus
    exact ⟨by rw [hbus]; rfl, fun a => by rw [hbus, Bus.setValue_attachmentFlag], hstarted⟩

/-- One access of a CPU. -/
theorem handler_sameMap {q : BusRequest} {x : BusResponse q × Machine ω ι}
    (h : (initBusAccessor env).handler q m = some x) : SameMap m x.2 := by
  cases q with
  | read address => exact sameMap_of_bus (busRead_eq_some h).1 (busRead_eq_some h).2
  | write address value =>
    obtain ⟨m', hwrite, rfl⟩ := Option.map_eq_some_iff.mp h
    exact busWrite_sameMap hwrite

/-- **No program of the CPU changes the address map.** -/
theorem run_sameMap {p : BusProg α} {a : α}
    (h : p.run (initBusAccessor env).handler m = some (a, m')) : SameMap m m' :=
  Interaction.Prog.run_invariant (I := SameMap m)
    (fun _ _ _ hsame hq => hsame.trans (handler_sameMap hq)) p (SameMap.refl m) h

end Lc3Simulator
