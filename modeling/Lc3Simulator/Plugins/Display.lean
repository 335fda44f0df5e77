import Lc3Simulator.Plugins.Keyboard

/-!
# The display

The functions of `plugins/display.c`. Its two masks are those of the keyboard. The data register is
never written: a value for it goes to the host at once.

## Main definitions

* `DisplayData` — `struct display_data`
* `displayDevice` — what `init_display_device` fills in
-/

namespace Lc3Simulator

def dsrAddress : Word := 0xFE04
def ddrAddress : Word := 0xFE06

/-- `struct display_data`. -/
structure DisplayData where
  dsr : Word
  ddr : Word
  deriving DecidableEq, Repr

/-- `INIT_DSR` and `INIT_DDR`. -/
def displayInit : DisplayData := ⟨0x8000, 0⟩

/-- `display_read_register`. At any other address the value it returns is not initialised. -/
def displayReadRegister (address : Word) : Callback DisplayData Word := fun data =>
  if address = dsrAddress then
    some (data.dsr, data, [])
  else if address = ddrAddress then
    some (data.ddr, data, [])
  else
    none

/-- `display_write_register`. The ready bit stays as it is, and the host is handed a `char`. -/
def displayWriteRegister (address value : Word) : Callback DisplayData Unit := fun data =>
  if address = dsrAddress then
    let dsrReadyBit := data.dsr &&& readyBitSetOn
    some ((), { data with dsr := value ||| dsrReadyBit }, [])
  else if address = ddrAddress then
    some ((), data, [.writeOutput (value.setWidth 8)])
  else
    some ((), data, [])

/-- `init_display_device`. -/
def displayDevice : Device DisplayData where
  start data := some ((), data, [])
  readRegister := displayReadRegister
  writeRegister := displayWriteRegister
  onInput := none
  onTick := none
  getAddresses := [dsrAddress, ddrAddress]
  getAddressMethod := .seperate

end Lc3Simulator
