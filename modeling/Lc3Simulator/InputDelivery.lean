import Lc3Simulator.Plugins.Keyboard
import Lc3Simulator.Subscriptions

/-!
# From the terminal to the devices

A byte passes `read`, `io_impl_get_char`, `simulator_check_input` and
`simulator_update_devices_input` on its way to a device. On this way it is a signed character for a
while, so that a byte from 128 on arrives with its upper half filled. An error passes as well: its
status is negative, and the status is only compared with zero. And without a subscription there is
no list, although its elements are counted.

The rest is right: a byte below 128 reaches every subscribed device once, in the order of the
attachments, and nothing reaches them at the end of the file or while there is nothing to read.

## Main definitions

* `ReadResult`, `ioImplGetChar` — what `read` returns, and what becomes of it
* `Descriptors`, `ioImpl` — the terminal of `device_io_impl.c`
* `inputCalls` — the calls of `on_input` that `simulator_check_input` makes
* `InputDelivered` — they are the calls that the result of the read asks for
* `PlainRead` — a byte below 128 while some device takes input, the end of the file, or nothing

## Main results

* `simulatorCheckInput_eq` — the calls are what `simulator_check_input` carries out
* `inputDelivered_iff` — input is delivered in every round exactly when every read is plain
* `inputDelivered_broken` — a byte that KBDR shows with its upper half filled
-/

namespace Lc3Simulator

open Transition

/-! ### The terminal -/

/-- `errno`, as far as `io_impl_get_char` tells its values apart. -/
inductive Errno
  | eagain | ewouldblock | other
  deriving DecidableEq, Repr

/-- What `read(infd, c, 1)` does: it stores a byte, or meets the end of the file, or fails. -/
inductive ReadResult
  | byte (b : Byte)
  | endOfFile
  | failed (errno : Errno)
  deriving DecidableEq, Repr

/-- The value that `read` returns. -/
def ReadResult.value : ReadResult → ℤ
  | .byte _ => 1
  | .endOfFile => 0
  | .failed _ => -1

/-- What is in the character after `read`, which has `c` in it before. -/
def ReadResult.stored (c : Byte) : ReadResult → Byte
  | .byte b => b
  | .endOfFile | .failed _ => c

/-- `errno == EAGAIN || errno == EWOULDBLOCK`, after a failure. -/
def ReadResult.again : ReadResult → Bool
  | .failed errno => errno = .eagain ∨ errno = .ewouldblock
  | .byte _ | .endOfFile => false

/-- `io_impl_get_char`: its status, and what it leaves in the character. -/
def ioImplGetChar (result : ReadResult) (c : Byte) : ℤ × Byte :=
  (if result.value < 0 ∧ result.again then 0 else result.value, result.stored c)

/-- The two descriptors, over whatever states they have: `read` on the one, `io_impl_write_char` on
the other, and what `io_impl_start` and `io_impl_end` do to both. -/
structure Descriptors (ι : Type) where
  read : ι → ReadResult × ι
  writeChar : Byte → ι → ι
  ioStart : ι → ℤ × ι
  ioEnd : ι → ℤ × ι

/-- `create_device_io_impl`. The character that `simulator_check_input` hands over is a variable
that is not initialised; `c` is what it holds. -/
def ioImpl {ι : Type} (fds : Descriptors ι) (c : Byte) : DeviceIo ι where
  getChar s :=
    let (result, s) := fds.read s
    let (status, c) := ioImplGetChar result c
    (status, c, s)
  writeChar := fds.writeChar
  ioStart := fds.ioStart
  ioEnd := fds.ioEnd

/-! ### The calls -/

section Calls

variable {ω ι : Type} (env : Env ω ι)

/-- The calls of `on_input` that `simulator_check_input` makes: of which device, and with which
input. With no subscription the list whose elements are counted is a null pointer. -/
def inputCalls (sim : Simulator ω ι) : Option (List (DevicePtr × Word)) :=
  let result := env.deviceIo.getChar sim.machine.deviceIo
  if result.1 ≠ 0 then do
    let onInputDevices ← sim.onInputDevices
    let targets ← inputTargets onInputDevices
    return targets.map fun device => (device, result.2.1.signExtend 16)
  else
    some []

/-- The terminal after a read. -/
def afterRead (sim : Simulator ω ι) : Machine ω ι :=
  { sim.machine with deviceIo := (env.deviceIo.getChar sim.machine.deviceIo).2.2 }

/-- Carry out some calls, after the read. -/
def performInputs (sim : Simulator ω ι) (calls : List (DevicePtr × Word)) :
    Option (Simulator ω ι) :=
  (calls.foldlM (fun m call => callOnInput env call.2 m call.1) (afterRead env sim)).map
    fun machine => { sim with machine }

/-- **The calls are what `simulator_check_input` carries out.** -/
theorem simulatorCheckInput_eq (sim : Simulator ω ι) :
    simulatorCheckInput env sim = (inputCalls env sim).bind (performInputs env sim) := by
  rw [simulatorCheckInput, inputCalls]
  by_cases hstatus : (env.deviceIo.getChar sim.machine.deviceIo).1 ≠ 0
  · simp only [if_pos hstatus]
    rw [simulatorUpdateDevicesInput]
    cases hlist : sim.onInputDevices with
    | none => simp
    | some devices =>
      simp only [inputTargets_eq, List.foldlM_map, Option.bind_eq_bind, Option.bind_some,
        Option.pure_def, Option.map_eq_bind, Function.comp_def, performInputs, afterRead,
        hlist]
  · simp only [if_neg hstatus]
    rfl

end Calls

/-! ### What a read asks for -/

section Delivery

variable {ω ι : Type} (env : Env ω ι) (fds : Descriptors ι) (attached : List DevicePtr)

/-- The calls that a read asks for: of each attached device that takes input, with the byte. -/
def ReadResult.calls : ReadResult → List (DevicePtr × Word)
  | .byte b => (attached.filter (takesInput env)).map fun device => (device, b.setWidth 16)
  | .endOfFile | .failed _ => []

/-- The calls of a round are those that its read asks for. -/
def InputDelivered (sim : Simulator ω ι) : Prop :=
  inputCalls env sim = some ((fds.read sim.machine.deviceIo).1.calls env attached)

/-- The read stores a byte below 128 while some attached device takes input, or meets the end of the
file, or finds nothing. -/
def PlainRead (sim : Simulator ω ι) : Prop :=
  (∃ b, (fds.read sim.machine.deviceIo).1 = .byte b ∧ b.toNat < 128 ∧
    ∃ device ∈ attached, takesInput env device = true) ∨
  (fds.read sim.machine.deviceIo).1 = .endOfFile ∨
    (fds.read sim.machine.deviceIo).1.again = true

variable {env fds attached} {c : Byte} {sim : Simulator ω ι}

/-- A signed character is widened to its value if and only if it is not negative. -/
theorem signExtend_eq_setWidth_iff (b : Byte) :
    b.signExtend 16 = b.setWidth 16 ↔ b.toNat < 128 := by
  have hmsb : b.msb = decide (128 ≤ b.toNat) := BitVec.msb_eq_decide b
  cases h : b.msb with
  | false =>
    rw [h] at hmsb
    refine iff_of_true (BitVec.signExtend_eq_setWidth_of_msb_false h) ?_
    exact not_le.mp (of_decide_eq_false hmsb.symm)
  | true =>
    rw [h] at hmsb
    refine iff_of_false (fun heq => ?_) (not_lt.mpr (of_decide_eq_true hmsb.symm))
    have hbit : (b.signExtend 16).getLsbD 15 = (b.setWidth 16).getLsbD 15 := by rw [heq]
    rw [BitVec.getLsbD_signExtend, BitVec.getLsbD_setWidth, h] at hbit
    simp at hbit

theorem createdList_eq_some {devices : List DevicePtr} (h : devices ≠ []) :
    createdList devices = some devices := by
  cases devices with
  | nil => exact absurd rfl h
  | cons device devices => rfl

/-- The calls, by the result of the read. -/
theorem inputCalls_of_subscribed (hio : env.deviceIo = ioImpl fds c)
    (hsubscribed : Subscribed env attached sim) {result : ReadResult}
    (hread : (fds.read sim.machine.deviceIo).1 = result) :
    inputCalls env sim =
      if (ioImplGetChar result c).1 = 0 then some []
      else if attached.filter (takesInput env) = [] then none
      else some ((attached.filter (takesInput env)).map fun device =>
        (device, (result.stored c).signExtend 16)) := by
  subst hread
  rw [inputCalls, hsubscribed.input, hio]
  simp only [ioImpl]
  by_cases hstatus : (ioImplGetChar (fds.read sim.machine.deviceIo).1 c).1 = 0
  · simp only [hstatus, ne_eq, not_true_eq_false, if_true, if_false]
  · simp only [hstatus, ne_eq, not_false_eq_true, if_true, if_false]
    by_cases hnone : attached.filter (takesInput env) = []
    · rw [if_pos hnone, hnone]
      rfl
    · rw [if_neg hnone, createdList_eq_some hnone]
      simp [inputTargets_eq, ioImplGetChar]

/-- The calls of a byte have its value if and only if it is below 128, or there are no calls. -/
theorem map_signExtend_iff {devices : List DevicePtr} (hsome : devices ≠ []) (b : Byte) :
    (devices.map fun device => (device, b.signExtend 16)) =
      (devices.map fun device => (device, b.setWidth 16)) ↔ b.toNat < 128 := by
  rw [← signExtend_eq_setWidth_iff]
  obtain ⟨device, hdevice⟩ := List.exists_mem_of_ne_nil devices hsome
  constructor
  · intro h
    exact (Prod.mk.inj (List.map_inj_left.mp h device hdevice)).2
  · intro h
    rw [h]

/-- **One round.** -/
theorem inputDelivered_round (hio : env.deviceIo = ioImpl fds c)
    (hsubscribed : Subscribed env attached sim) :
    InputDelivered env fds attached sim ↔ PlainRead env fds attached sim := by
  have hexists : (∃ device ∈ attached, takesInput env device = true) ↔
      attached.filter (takesInput env) ≠ [] := by
    simp only [ne_eq, List.filter_eq_nil_iff, not_forall, not_not, exists_prop]
  rw [InputDelivered, PlainRead, hexists]
  generalize hread : (fds.read sim.machine.deviceIo).1 = result
  rw [inputCalls_of_subscribed hio hsubscribed hread]
  cases result with
  | byte b =>
    by_cases hnone : attached.filter (takesInput env) = []
    · simp [ioImplGetChar, ReadResult.value, ReadResult.again, hnone]
    · simp [ioImplGetChar, ReadResult.value, ReadResult.stored, ReadResult.again, ReadResult.calls,
        hnone, map_signExtend_iff hnone]
  | endOfFile => simp [ioImplGetChar, ReadResult.value, ReadResult.calls]
  | failed errno =>
    cases errno with
    | eagain | ewouldblock =>
      simp [ioImplGetChar, ReadResult.value, ReadResult.again, ReadResult.calls]
    | other =>
      by_cases hnone : attached.filter (takesInput env) = [] <;>
        simp [ioImplGetChar, ReadResult.value, ReadResult.again, ReadResult.calls, hnone]

/-! ### Every round of every run -/

/-- Every round of a run, in a simulator whose lists hold what they should. -/
theorem inputDelivered_rounds (hio : env.deviceIo = ioImpl fds c)
    (hsubscribed : Subscribed env attached sim) (n : ℕ) :
    EachRound env (InputDelivered env fds attached) n sim ↔
      EachRound env (PlainRead env fds attached) n sim :=
  eachRound_iff_of_subscribed (fun _ h => inputDelivered_round hio h) n hsubscribed

/-- A keyboard that is given an input shows it in KBDR. -/
theorem keyboardOnInput_read (input : Word) (data : KeyboardData) :
    ∃ data' calls data'', keyboardOnInput input data = some ((), data', calls) ∧
      keyboardReadRegister kbdrAddress data' = some (input, data'', []) := by
  rw [keyboardOnInput]
  dsimp only
  split_ifs
  · exact ⟨_, _, _, rfl, rfl⟩
  · exact ⟨_, _, _, rfl, rfl⟩

/-- A simulator with the terminal of `device_io_impl.c`. -/
def terminalEnv (libc : SortSearch BusAttachment) (device : DevicePtr → Device ω)
    (fds : Descriptors ι) (c : Byte) : Env ω ι :=
  ⟨libc, device, ioImpl fds c⟩

/-- **Input is delivered exactly when it is plain.** After any commands, in each round of a run, the
attached devices that take input are called once each with the byte that was read, in the order in
which they were attached, and with nothing otherwise, if and only if every read of these rounds
stores a byte below 128 while such a device is attached, or meets the end of the file, or finds
nothing to read. These calls are what `simulator_check_input` carries out, and what a keyboard is
called with, it shows in KBDR. -/
theorem inputDelivered_iff (libc : SortSearch BusAttachment) (device : DevicePtr → Device ω)
    (fds : Descriptors ι) (c : Byte) {devices : ω} {deviceIo : ι} {sim₀ sim : Simulator ω ι}
    {commands : List Command} {outs : List (Option ℤ)}
    (hnew : simulatorNew (terminalEnv libc device fds c) devices deviceIo = some sim₀)
    (hrun : run (runCommand (terminalEnv libc device fds c)) commands sim₀ = some (outs, sim))
    (n : ℕ) :
    let env := terminalEnv libc device fds c
    let attached := attachedDevices commands outs
    (EachRound env (InputDelivered env fds attached) n (startIo env sim).2 ↔
      EachRound env (PlainRead env fds attached) n (startIo env sim).2) ∧
    (∀ sim, simulatorCheckInput env sim = (inputCalls env sim).bind (performInputs env sim)) ∧
    ∀ (input : Word) (data : KeyboardData), ∃ data' calls data'',
      keyboardOnInput input data = some ((), data', calls) ∧
      keyboardReadRegister kbdrAddress data' = some (input, data'', []) := by
  have hstart : Subscribed (terminalEnv libc device fds c) (attachedDevices commands outs)
      (startIo (terminalEnv libc device fds c) sim).2 :=
    (run_subscribed hnew hrun).of_sameLists ⟨rfl, rfl⟩
  exact ⟨inputDelivered_rounds rfl hstart n, simulatorCheckInput_eq _, keyboardOnInput_read⟩

end Delivery

/-! ### Bytes that a keyboard is given -/

/-- Reads with given results, and nothing to read after them. -/
def typedInput : Descriptors (List ReadResult) where
  read results := (results.headD (.failed .eagain), results.tail)
  writeChar _ results := results
  ioStart results := (0, results)
  ioEnd results := (0, results)

/-- Every device is a keyboard. -/
def keyboardTerminal : Env KeyboardData (List ReadResult) :=
  terminalEnv (SortSearch.bisecting _) (fun _ => keyboardDevice) typedInput 0

/-- A new simulator after some commands, at the beginning of a run. -/
def beforeRun (results : List ReadResult) (commands : List Command) :
    Option (List (Option ℤ) × Simulator KeyboardData (List ReadResult)) := do
  let sim ← simulatorNew keyboardTerminal keyboardInit results
  let (outs, sim) ← run (runCommand keyboardTerminal) commands sim
  return (outs, (startIo keyboardTerminal sim).2)

/-- What the commands and the first tick of the run return, and the reads to come then. -/
def firstRead (results : List ReadResult) (commands : List Command) :
    Option (List (Option ℤ) × Bool × List ReadResult) := do
  let (outs, sim) ← beforeRun results commands
  let (running, sim) ← tick keyboardTerminal sim
  return (outs, running, sim.machine.deviceIo)

/-- The keyboard after the first round of the run. -/
def firstRound (results : List ReadResult) (commands : List Command) : Option KeyboardData := do
  let (_, sim) ← beforeRun results commands
  let (_, sim) ← runLoop keyboardTerminal 1 sim
  return sim.machine.devices

theorem firstRead_eq_some {results reads : List ReadResult} {commands : List Command}
    {outs : List (Option ℤ)} {running : Bool}
    (h : firstRead results commands = some (outs, running, reads)) :
    ∃ sim₀ sim sim₁, simulatorNew keyboardTerminal keyboardInit results = some sim₀ ∧
      run (runCommand keyboardTerminal) commands sim₀ = some (outs, sim) ∧
      tick keyboardTerminal (startIo keyboardTerminal sim).2 = some (running, sim₁) ∧
      sim₁.machine.deviceIo = reads := by
  obtain ⟨⟨outs₁, sim₁⟩, hbefore, h⟩ := Option.bind_eq_some_iff.mp h
  obtain ⟨⟨running₁, sim₂⟩, htick, h⟩ := Option.bind_eq_some_iff.mp h
  obtain ⟨rfl, hrest⟩ := Prod.mk.inj (Option.some.inj h)
  obtain ⟨rfl, rfl⟩ := Prod.mk.inj hrest
  rw [beforeRun] at hbefore
  obtain ⟨sim₀, hnew, hbefore⟩ := Option.bind_eq_some_iff.mp hbefore
  obtain ⟨⟨outs₂, sim₃⟩, hrun, hbefore⟩ := Option.bind_eq_some_iff.mp hbefore
  obtain ⟨rfl, rfl⟩ := Prod.mk.inj (Option.some.inj hbefore)
  exact ⟨sim₀, sim₃, sim₂, hnew, hrun, htick, rfl⟩

theorem inputDelivered_iff_typed :
    ∃ sim₀ outs sim,
      simulatorNew keyboardTerminal keyboardInit [.byte 0x41] = some sim₀ ∧
      run (runCommand keyboardTerminal) [.attachDevice 0] sim₀ = some (outs, sim) ∧
      EachRound keyboardTerminal
        (InputDelivered keyboardTerminal typedInput (attachedDevices [.attachDevice 0] outs)) 1
        (startIo keyboardTerminal sim).2 := by
  have hread : firstRead [.byte 0x41] [.attachDevice 0] = some ([some 0], true, [.byte 0x41]) := by
    decide +kernel
  obtain ⟨sim₀, sim, sim₁, hnew, hrun, htick, hreads⟩ := firstRead_eq_some hread
  refine ⟨sim₀, _, sim, hnew, hrun,
    (inputDelivered_iff _ _ typedInput 0 hnew hrun 1).1.mpr fun sim₂ htick' => ⟨?_, ?_⟩⟩
  · obtain ⟨-, rfl⟩ := Prod.mk.inj (Option.some.inj (htick.symm.trans htick'))
    refine Or.inl ⟨0x41, ?_, by decide, 0, by decide, rfl⟩
    rw [hreads]
    rfl
  · exact fun _ _ => trivial

/-- **Input that does not reach the keyboard as it was typed.** A byte above 127 arrives, and is
read from KBDR, with its upper half filled. An error is delivered as if it were a byte. And without
a device a byte brings the simulator down. -/
theorem inputDelivered_broken :
    (∃ sim₀ outs sim,
      simulatorNew keyboardTerminal keyboardInit [.byte 0xE9] = some sim₀ ∧
      run (runCommand keyboardTerminal) [.attachDevice 0] sim₀ = some (outs, sim) ∧
      ¬ EachRound keyboardTerminal
        (InputDelivered keyboardTerminal typedInput (attachedDevices [.attachDevice 0] outs)) 1
        (startIo keyboardTerminal sim).2) ∧
    firstRound [.byte 0xE9] [.attachDevice 0] = some ⟨0x8000, 0xFFE9⟩ ∧
    firstRound [.failed .other] [.attachDevice 0] = some ⟨0x8000, 0⟩ ∧
    firstRound [.byte 0x41] [] = none := by
  refine ⟨?_, by decide +kernel, by decide +kernel, by decide +kernel⟩
  have hread : firstRead [.byte 0xE9] [.attachDevice 0] = some ([some 0], true, [.byte 0xE9]) := by
    decide +kernel
  obtain ⟨sim₀, sim, sim₁, hnew, hrun, htick, hreads⟩ := firstRead_eq_some hread
  refine ⟨sim₀, _, sim, hnew, hrun, fun hrounds => ?_⟩
  have hstart : Subscribed keyboardTerminal (attachedDevices [.attachDevice 0] [some 0])
      (startIo keyboardTerminal sim).2 := (run_subscribed hnew hrun).of_sameLists ⟨rfl, rfl⟩
  have hplain := ((inputDelivered_rounds rfl hstart 1).mp hrounds sim₁ htick).1
  rw [PlainRead, hreads] at hplain
  rcases hplain with ⟨b, hb, hlt, -⟩ | hend | hagain
  · obtain rfl := ReadResult.byte.inj hb
    exact absurd hlt (by decide)
  · cases hend
  · cases hagain

end Lc3Simulator
