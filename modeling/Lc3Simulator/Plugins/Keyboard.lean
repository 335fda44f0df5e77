import Lc3Simulator.Device

/-!
# The keyboard

The functions of `plugins/keyboard.c`. The host pointer that `keyboard_start` stores is kept by the
machine, which knows the devices that were started.

## Main definitions

* `KeyboardData` — `struct keyboard_data`
* `keyboardDevice` — what `init_keyboard_device` fills in
-/

namespace Lc3Simulator

def keyboardInterruptVector : Byte := 0x80
def keyboardInterruptPriority : Byte := 4

def kbsrAddress : Word := 0xFE00
def kbdrAddress : Word := 0xFE02

/-- `INTERRUPT_ENABLE_BIT_ON`. -/
def interruptEnableBitOn (reg : Word) : Bool := 0x4000 &&& reg ≠ 0

def readyBitSetOn : Word := 0x8000
def readyBitSetOff : Word := 0x7FFF

/-- `struct keyboard_data`. -/
structure KeyboardData where
  kbsr : Word
  kbdr : Word
  deriving DecidableEq, Repr

/-- The registers as `init_keyboard_device` leaves them. -/
def keyboardInit : KeyboardData := ⟨0, 0⟩

/-- `keyboard_read_register`. At any other address the value it returns is not initialised. -/
def keyboardReadRegister (address : Word) : Callback KeyboardData Word := fun data =>
  if address = kbdrAddress then
    let data := { data with kbsr := data.kbsr &&& readyBitSetOff }
    some (data.kbdr, data, [])
  else if address = kbsrAddress then
    some (data.kbsr, data, [])
  else
    none

/-- `keyboard_write_register`. The ready bit stays as it is. -/
def keyboardWriteRegister (address value : Word) : Callback KeyboardData Unit := fun data =>
  if address = kbsrAddress then
    let kbsrReadyBit := data.kbsr &&& readyBitSetOn
    some ((), { data with kbsr := value ||| kbsrReadyBit }, [])
  else
    some ((), data, [])

/-- `keyboard_on_input`. -/
def keyboardOnInput (input : Word) : Callback KeyboardData Unit := fun data =>
  let data : KeyboardData := { kbdr := input, kbsr := data.kbsr ||| readyBitSetOn }
  if interruptEnableBitOn data.kbsr then
    some ((), data, [.alertInterrupt keyboardInterruptVector keyboardInterruptPriority])
  else
    some ((), data, [])

/-- `init_keyboard_device`. -/
def keyboardDevice : Device KeyboardData where
  start data := some ((), data, [])
  readRegister := keyboardReadRegister
  writeRegister := keyboardWriteRegister
  onInput := some keyboardOnInput
  onTick := none
  getAddresses := [kbsrAddress, kbdrAddress]
  getAddressMethod := .seperate

end Lc3Simulator
