import Lc3Simulator.Machine
import Lc3Simulator.Library.Transition

/-!
# The simulator

The functions of `simulator.c`, in the order of the source, without the host and the bus accessor,
which come with the machine. `none` is a call that does not come back.

A loop that may run forever is cut after a number of iterations. `runLoop n` is the first `n`
iterations of the loop of `simulator_run_until_end`, and says whether the machine was still going
after them; the command comes back exactly when some number of iterations is enough.

## Main definitions

* `Simulator` — `struct simulator`
* `simulatorStep`, `simulatorRunUntilEnd` — the two drivers
* `simulatorAttachDevice` — adding a device
* `Command`, `runCommand` — what the user interface does with a simulator
-/

namespace Lc3Simulator

open Interaction

/-- `struct simulator`. A list that was never created is a null pointer. -/
structure Simulator (ω ι : Type) where
  cpu : Cpu
  machine : Machine ω ι
  onInputDevices : Option (List DevicePtr)
  onTickDevices : Option (List DevicePtr)

variable {ω ι α : Type} (env : Env ω ι)

/-- Run a program of the CPU in the machine of the simulator. -/
def runOnBus (p : BusProg α) (m : Machine ω ι) : Option (α × Machine ω ι) :=
  p.run (initBusAccessor env).handler m

/-! ### Between two ticks -/

/-- `cur_device->on_input(cur_device, input)`. -/
def callOnInput (input : Word) (m : Machine ω ι) (device : DevicePtr) : Option (Machine ω ι) := do
  let onInput ← (env.device device).onInput
  let result ← runCallback env device (onInput input) m
  return result.2

/-- `simulator_update_devices_input`. With no subscription so far the list is a null pointer, whose
elements are counted all the same. -/
def simulatorUpdateDevicesInput (sim : Simulator ω ι) (input : Word) :
    Option (Simulator ω ι) := do
  let onInputDevices ← sim.onInputDevices
  let machine ← onInputDevices.foldlM (callOnInput env input) sim.machine
  return { sim with machine }

/-- `simulator_check_input`. The character is widened as a signed one. -/
def simulatorCheckInput (sim : Simulator ω ι) : Option (Simulator ω ι) :=
  let result := env.deviceIo.getChar sim.machine.deviceIo
  let sim := { sim with machine := { sim.machine with deviceIo := result.2.2 } }
  if result.1 ≠ 0 then simulatorUpdateDevicesInput env sim (result.2.1.signExtend 16) else some sim

/-- `simulator_update_devices_on_tick`. What `list_get` returns is a place in the list and not the
pointer stored there, so that the call through it leads nowhere. -/
def simulatorUpdateDevicesOnTick (sim : Simulator ω ι) : Option (Simulator ω ι) :=
  match sim.onTickDevices with
  | none => some sim
  | some [] => some sim
  | some (_ :: _) => none

/-- `simulator_check_interrupts`. -/
def simulatorCheckInterrupts (sim : Simulator ω ι) : Option (Simulator ω ι) := do
  match ← interruptControllerPeek sim.machine.interCont with
  | none => return sim
  | some (vec, priority) =>
    let ((taken, cpu), machine) ← runOnBus env (cpuSignalInterrupt sim.cpu vec priority) sim.machine
    if taken then do
      let interCont ← interruptControllerTake machine.interCont
      return { sim with cpu, machine := { machine with interCont } }
    else
      return { sim with cpu, machine }

/-! ### Looking at the state -/

/-- `enum simulator_address_status`. -/
inductive SimulatorAddressStatus
  | outOfBounds | deviceRegister | value
  deriving DecidableEq, Repr

/-- `simulator_read_address`. A `uint16_t` is never outside the bounds. The word is meaningful with
the status `VALUE` only. -/
def simulatorReadAddress (sim : Simulator ω ι) (address : Word) : SimulatorAddressStatus × Word :=
  if busIsDeviceRegister sim.machine.bus address then (.deviceRegister, 0)
  else (.value, busReadMemory sim.machine.bus address)

/-- `simulator_read_register`. -/
def simulatorReadRegister (sim : Simulator ω ι) (reg : Lc3Reg) : Word := cpuReadRegister sim.cpu reg

/-- `simulator_write_register`. -/
def simulatorWriteRegister (sim : Simulator ω ι) (reg : Lc3Reg) (value : Word) : Simulator ω ι :=
  { sim with cpu := cpuWriteRegister sim.cpu reg value }

/-! ### The two drivers -/

/-- `device_io->start(device_io)` and `device_io->end(device_io)`. -/
def startIo (sim : Simulator ω ι) : ℤ × Simulator ω ι :=
  let result := env.deviceIo.ioStart sim.machine.deviceIo
  (result.1, { sim with machine := { sim.machine with deviceIo := result.2 } })

def endIo (sim : Simulator ω ι) : ℤ × Simulator ω ι :=
  let result := env.deviceIo.ioEnd sim.machine.deviceIo
  (result.1, { sim with machine := { sim.machine with deviceIo := result.2 } })

/-- `cpu_tick(simulator->cpu)`. -/
def tick (sim : Simulator ω ι) : Option (Bool × Simulator ω ι) := do
  let ((running, cpu), machine) ← runOnBus env (cpuTick sim.cpu) sim.machine
  return (running, { sim with cpu, machine })

variable {env} in
theorem tick_eq_some {sim sim' : Simulator ω ι} {running : Bool}
    (h : tick env sim = some (running, sim')) :
    ∃ cpu m, (cpuTick sim.cpu).run (initBusAccessor env).handler sim.machine =
      some ((running, cpu), m) ∧ sim' = { sim with cpu, machine := m } := by
  obtain ⟨⟨⟨b, cpu⟩, m⟩, hrun, h⟩ := Option.bind_eq_some_iff.mp h
  obtain ⟨rfl, rfl⟩ := Prod.mk.inj (Option.some.inj h)
  exact ⟨cpu, m, hrun, rfl⟩

/-- The body of the loop of `simulator_run_until_end`. -/
def loopBody (sim : Simulator ω ι) : Option (Simulator ω ι) := do
  let sim ← simulatorCheckInput env sim
  let sim ← simulatorUpdateDevicesOnTick sim
  simulatorCheckInterrupts env sim

/-- The first `n` iterations of the loop of `simulator_run_until_end`. The result says whether the
machine was still going. -/
def runLoop : ℕ → Simulator ω ι → Option (Bool × Simulator ω ι)
  | 0, sim => some (true, sim)
  | n + 1, sim => do
    let (running, sim) ← tick env sim
    if running then do
      let sim ← loopBody env sim
      runLoop n sim
    else
      return (false, sim)

/-- `simulator_run_until_end`, if `n` iterations are enough. -/
def simulatorRunUntilEnd (n : ℕ) (sim : Simulator ω ι) : Option (ℤ × Simulator ω ι) :=
  let (status, sim) := startIo env sim
  if status < 0 then some (-1, sim)
  else do
    let (running, sim) ← runLoop env n sim
    guard !running
    let (status, sim) := endIo env sim
    return (if status < 0 then -1 else 0, sim)

/-- The loop of `simulator_step`, with `n` rounds to go. It does nothing between two ticks. -/
def stepLoop : ℕ → Option ℤ → Simulator ω ι → Option (Option ℤ × Simulator ω ι)
  | 0, tickStatus, sim => some (tickStatus, sim)
  | n + 1, _, sim => do
    let (running, sim) ← tick env sim
    if running then stepLoop n (some 1) sim else return (some 0, sim)

/-- `simulator_step`. Without a tick there is no status to return, and what the function returns
then is not determined. -/
def simulatorStep (amt : ℤ) (sim : Simulator ω ι) : Option (Option ℤ × Simulator ω ι) :=
  let (status, sim) := startIo env sim
  if status < 0 then some (some (-1), sim)
  else do
    let (tickStatus, sim) ← stepLoop env amt.toNat none sim
    let (status, sim) := endIo env sim
    return (if status < 0 then some (-1) else tickStatus, sim)

/-! ### Memory -/

/-- `simulator_write_address`. -/
def simulatorWriteAddress (sim : Simulator ω ι) (address value : Word) :
    Option (Simulator ω ι) := do
  let machine ← busWrite env sim.machine address value
  return { sim with machine }

/-- The loop of `simulator_load_program`. -/
def loadWords (m : Machine ω ι) (curAddress : Word) : List Word → Option (Machine ω ι)
  | [] => some m
  | curWord :: rest => do
    let m ← busWrite env m curAddress curWord
    loadWords m (curAddress + 1) rest

/-- `simulator_load_program`, for a callback that delivers `words` and then the result `last`, which
is not positive. The first word is the address of the others. -/
def simulatorLoadProgram (sim : Simulator ω ι) (words : List Word) (last : ℤ) :
    Option (ℤ × Simulator ω ι) :=
  match words with
  | [] => some (last, sim)
  | startingAddress :: rest => do
    let machine ← loadWords env sim.machine startingAddress rest
    return (last, { sim with cpu := cpuWriteRegister sim.cpu .pc startingAddress, machine })

/-! ### Devices -/

/-- `simulator_add_on_input_subscription`. -/
def simulatorAddOnInputSubscription (sim : Simulator ω ι) (device : DevicePtr) : Simulator ω ι :=
  { sim with onInputDevices := some (sim.onInputDevices.getD [] ++ [device]) }

/-- `simulator_add_on_tick_subscription`. -/
def simulatorAddOnTickSubscription (sim : Simulator ω ι) (device : DevicePtr) : Simulator ω ι :=
  { sim with onTickDevices := some (sim.onTickDevices.getD [] ++ [device]) }

/-- `simulator_check_device_subscriptions`. -/
def simulatorCheckDeviceSubscriptions (sim : Simulator ω ι) (device : DevicePtr) :
    Simulator ω ι :=
  let sim := if (env.device device).onInput.isSome then simulatorAddOnInputSubscription sim device
    else sim
  if (env.device device).onTick.isSome then simulatorAddOnTickSubscription sim device else sim

/-- `device->start(device, &simulator->host)`. -/
def callStart (m : Machine ω ι) (device : DevicePtr) : Option (Machine ω ι) := do
  let result ← runCallback env device (env.device device).start
    { m with started := device :: m.started }
  return result.2

/-- `simulator_attach_device`. -/
def simulatorAttachDevice (sim : Simulator ω ι) (device : DevicePtr) :
    Option (ℤ × Simulator ω ι) := do
  let (status, bus) ← busAttach env.libc (env.device device) sim.machine.bus device
  if status < 0 then
    return (-1, { sim with machine := { sim.machine with bus } })
  else do
    let machine ← callStart env { sim.machine with bus } device
    return (0, simulatorCheckDeviceSubscriptions env { sim with machine } device)

/-- `simulator_new`, with the devices in the states `devices` and the terminal in `deviceIo`. -/
def simulatorNew (devices : ω) (deviceIo : ι) : Option (Simulator ω ι) := do
  let (cpu, machine) ← runOnBus env newCpu ⟨busNew, interruptControllerNew, devices, deviceIo, []⟩
  return ⟨cpu, machine, none, none⟩

/-! ### Commands -/

/-- What the user interface asks of a simulator. The commands that only look at it are left out,
and a command that writes a range of addresses is a sequence of writes. -/
inductive Command
  | attachDevice (device : DevicePtr)
  | writeAddress (address value : Word)
  | writeRegister (reg : Lc3Reg) (value : Word)
  | loadProgram (words : List Word) (last : ℤ)
  | updateDevicesInput (input : Word)
  | step (amt : ℤ)
  | runUntilEnd (n : ℕ)

/-- Carry a command out. The status is the one the function returns, where it returns one. -/
def runCommand : Command → Simulator ω ι → Option (Option ℤ × Simulator ω ι)
  | .attachDevice device, sim =>
    (simulatorAttachDevice env sim device).map fun r => (some r.1, r.2)
  | .writeAddress address value, sim =>
    (simulatorWriteAddress env sim address value).map fun sim => (none, sim)
  | .writeRegister reg value, sim => some (none, simulatorWriteRegister sim reg value)
  | .loadProgram words last, sim =>
    (simulatorLoadProgram env sim words last).map fun r => (some r.1, r.2)
  | .updateDevicesInput input, sim =>
    (simulatorUpdateDevicesInput env sim input).map fun sim => (none, sim)
  | .step amt, sim => simulatorStep env amt sim
  | .runUntilEnd n, sim => (simulatorRunUntilEnd env n sim).map fun r => (some r.1, r.2)

/-- The simulator after some commands, on devices and a terminal in any states. -/
def Reachable (sim : Simulator ω ι) : Prop :=
  ∃ devices deviceIo sim₀ commands outs, simulatorNew env devices deviceIo = some sim₀ ∧
    Transition.run (runCommand env) commands sim₀ = some (outs, sim)

end Lc3Simulator
