import Lc3Simulator.Register

/-!
# Devices and the terminal

The interfaces of `device.h` and `device_io.h`. The simulator calls devices and the terminal
through tables of function pointers, so that the model leaves open what the functions do: a device
is a value of `Device` over whatever states the devices have, and the terminal is a value of
`DeviceIo` over whatever states it has.

A device reaches the simulator only through the two functions of `struct host`. Neither returns
anything, so a callback can be taken as a function that lists the host calls it makes; the
simulator carries them out when the callback is over.

## Main definitions

* `HostCall`, `Callback` — what a callback of a device does
* `Device` — `struct device`
* `DeviceIo` — `struct device_io`
-/

namespace Lc3Simulator

/-- `struct device *`. -/
abbrev DevicePtr := ℕ

/-- `enum address_method`. -/
inductive AddressMethod
  | range | seperate
  deriving DecidableEq, Repr

/-- A call through `struct host`. -/
inductive HostCall
  | writeOutput (output : Byte)
  | alertInterrupt (vec priority : Byte)
  deriving DecidableEq, Repr

/-- A callback that returns an `α`, over the states `ω` of the devices. `none` is a callback that
does not come back. -/
abbrev Callback (ω α : Type) := ω → Option (α × ω × List HostCall)

/-- `struct device`, without `free`. A null function pointer is `none`, for the two callbacks that
the simulator tests. -/
structure Device (ω : Type) where
  start : Callback ω Unit
  readRegister : Word → Callback ω Word
  writeRegister : Word → Word → Callback ω Unit
  onInput : Option (Word → Callback ω Unit)
  onTick : Option (Callback ω Unit)
  getAddresses : List Word
  getAddressMethod : AddressMethod

/-- `struct device_io`, over the states `ι` of the terminal. `getChar` returns its status and what
it leaves in the character it was handed; nothing looks at the status of `write_char`. -/
structure DeviceIo (ι : Type) where
  getChar : ι → ℤ × Byte × ι
  writeChar : Byte → ι → ι
  ioStart : ι → ℤ × ι
  ioEnd : ι → ℤ × ι

end Lc3Simulator
