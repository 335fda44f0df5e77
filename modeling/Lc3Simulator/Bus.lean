import Lc3Simulator.Device
import Lc3Simulator.Library.SortSearch

/-!
# The address map

The functions of `bus.c` that keep and search the address map, in the order of the source. The two
that call into a device, `bus_read` and `bus_write`, follow with the machine.

The C library's sort and search are a parameter. A function that indexes the array of addresses
that a device hands out returns `none` where it reads past its end.

## Main definitions

* `Bus` — `struct bus_impl`
* `busAttach` — recording the addresses of a device
* `busSearch` — finding the attachment of an address
-/

namespace Lc3Simulator

/-- `struct interval`. -/
structure Interval where
  low : Word
  high : Word
  deriving DecidableEq, Repr

/-- `struct bus_attachment`. -/
structure BusAttachment where
  device : DevicePtr
  range : Interval
  deriving DecidableEq, Repr

/-- `struct mem`. -/
structure Mem where
  value : Word
  attachmentFlag : Bool
  deriving DecidableEq, Repr

/-- `struct bus_impl`. -/
structure Bus where
  attachments : List BusAttachment
  memory : Word → Mem

/-- `bus_new`. -/
def busNew : Bus := ⟨[], fun _ => ⟨0, false⟩⟩

/-- `attachment_comparator`. -/
def attachmentComparator (first second : BusAttachment) : ℤ :=
  first.range.low.toNat - second.range.low.toNat

/-- `bsearch_attachment_comparator`. -/
def bsearchAttachmentComparator (point : Word) (attachment : BusAttachment) : ℤ :=
  if point < attachment.range.low then -1
  else if point > attachment.range.high then 1
  else 0

/-- `intervals_overlap`. -/
def intervalsOverlap (interval1 interval2 : Interval) : Bool :=
  interval2.low ≤ interval1.high && interval2.high ≥ interval1.low

/-- The loop of `bus_contains_interval`. It stops at the first attachment that starts beyond the
interval. -/
def containsInterval (interval : Interval) : List BusAttachment → Bool
  | [] => false
  | cur :: rest =>
    if cur.range.low > interval.high then false
    else if intervalsOverlap cur.range interval then true
    else containsInterval interval rest

/-- `bus_contains_interval`. -/
def busContainsInterval (bus : Bus) (interval : Interval) : Bool :=
  containsInterval interval bus.attachments

/-- `bus->memory[i].attachment_flag = 1`. -/
def setAttachmentFlag (memory : Word → Mem) (i : ℕ) : Word → Mem :=
  Function.update memory (BitVec.ofNat 16 i)
    { memory (BitVec.ofNat 16 i) with attachmentFlag := true }

/-- The loop of `bus_add_attachment` over the addresses of the interval. Its counter is an `int`,
which does not wrap around at `0xFFFF`. -/
def setAttachmentFlags (memory : Word → Mem) (interval : Interval) : Word → Mem :=
  (List.range' interval.low.toNat (interval.high.toNat + 1 - interval.low.toNat)).foldl
    setAttachmentFlag memory

section

variable (libc : SortSearch BusAttachment)

/-- `bus_add_attachment`. -/
def busAddAttachment (bus : Bus) (device : DevicePtr) (interval : Interval) : ℤ × Bus :=
  if busContainsInterval bus interval then (-1, bus)
  else
    (0, { attachments := libc.qsort attachmentComparator (bus.attachments ++ [⟨device, interval⟩])
          memory := setAttachmentFlags bus.memory interval })

/-- The loop of `bus_add_attachment_seperate`. It returns at the first address that is taken, and
what it added before stays. -/
def addAttachments (bus : Bus) (device : DevicePtr) : List Word → ℤ × Bus
  | [] => (0, bus)
  | address :: rest =>
    let result := busAddAttachment libc bus device ⟨address, address⟩
    if result.1 < 0 then (-1, result.2) else addAttachments result.2 device rest

/-- `bus_add_attachment_seperate`. -/
def busAddAttachmentSeperate (bus : Bus) (device : DevicePtr) (addresses : List Word) : ℤ × Bus :=
  addAttachments libc bus device addresses

/-- `bus_add_attachment_range`. It reads two addresses, whatever their number is. -/
def busAddAttachmentRange (bus : Bus) (device : DevicePtr) (addresses : List Word) :
    Option (ℤ × Bus) :=
  match addresses with
  | low :: high :: _ => some (busAddAttachment libc bus device ⟨low, high⟩)
  | _ => none

/-- `bus_attach`, for the device `vtable` behind the pointer `device`. -/
def busAttach {ω : Type} (vtable : Device ω) (bus : Bus) (device : DevicePtr) :
    Option (ℤ × Bus) :=
  match vtable.getAddressMethod with
  | .range => busAddAttachmentRange libc bus device vtable.getAddresses
  | .seperate => some (busAddAttachmentSeperate libc bus device vtable.getAddresses)

/-- `bus_search`. -/
def busSearch (bus : Bus) (address : Word) : Option BusAttachment :=
  libc.bsearch (bsearchAttachmentComparator address) bus.attachments

end

/-- `bus_is_device_register`. -/
def busIsDeviceRegister (bus : Bus) (address : Word) : Bool := (bus.memory address).attachmentFlag

/-- `bus_read_memory`. -/
def busReadMemory (bus : Bus) (address : Word) : Word := (bus.memory address).value

end Lc3Simulator
