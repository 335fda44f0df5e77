import Lc3Simulator.Terminal
import Lc3Simulator.TerminalCalls

/-!
# From the devices to the terminal

A character that a device prints passes `simulator_write_output` and `io_impl_write_char` on its way
to the output descriptor. The descriptor does not block while a program runs, so `write` may have to
be called again, and `io_impl_write_char` does so until the character is written or the call fails
for good. So no character is written twice, none overtakes another, and one that is not written is
one whose call failed for good.

What the devices print is written down by the devices: `Device.recorded` does what the device does
and keeps a list of the characters that its callbacks hand to the host.

## Main definitions

* `Wire` — what has been written to the output descriptor, and what the system calls do to it
* `IoEvent.arrived` — the character that a call has written
* `Device.recorded`, `Env.recorded` — devices that write down what they print

## Main results

* `ioImplWriteChar_sent` — one character
* `exists_record` — what the devices print is what the terminal is handed
* `output_delivered` — any commands
-/

namespace Lc3Simulator

open Transition

variable {τ κ ω ι α : Type}

/-- What has been written to the output descriptor, with what the system calls are documented to do
to it: only a `write` that returns 1 writes, and it is not put off for ever. -/
structure Wire (k : Kernel τ κ) (data : DeviceIoImplData) where
  sent : κ → List Byte
  getfl_sent : ∀ {fd s flags s'}, k.getfl fd s = (flags, s') → sent s' = sent s
  setfl_sent : ∀ {fd flags s done s'}, k.setfl fd flags s = (done, s') → sent s' = sent s
  tcgetattr_sent : ∀ {s t s'}, k.tcgetattr s = (t, s') → sent s' = sent s
  tcsetattr_sent : ∀ {t s done s'}, k.tcsetattr t s = (done, s') → sent s' = sent s
  read_sent : ∀ {fd s result s'}, k.read fd s = (result, s') → sent s' = sent s
  write_one : ∀ {c s s'}, k.write data.outfd c s = (.one, s') → sent s' = sent s ++ [c]
  write_other : ∀ {c s result s'}, k.write data.outfd c s = (result, s') → result ≠ .one →
    sent s' = sent s
  patient : ∀ c s, ioImplWriteChar k data c (k.patience s + 1) s ≠ none

section Wire

variable {k : Kernel τ κ} {data : DeviceIoImplData} (wire : Wire k data)

/-! ### One character -/

/-- **A character is written once**, or its call has failed for good and it is not written. -/
theorem ioImplWriteChar_sent {c : Byte} {n : ℕ} {s s' : κ} {status : ℤ}
    (h : ioImplWriteChar k data c n s = some (status, s')) :
    status = 1 ∧ wire.sent s' = wire.sent s ++ [c] ∨
      status = -1 ∧ wire.sent s' = wire.sent s := by
  induction n generalizing s with
  | zero => cases h
  | succ n ih =>
    rw [ioImplWriteChar] at h
    rcases hwrite : k.write data.outfd c s with ⟨result, s₁⟩
    rw [hwrite] at h
    cases result with
    | one =>
      obtain ⟨rfl, rfl⟩ := Prod.mk.inj (Option.some.inj h)
      exact Or.inl ⟨rfl, wire.write_one hwrite⟩
    | zero =>
      have hsame := wire.write_other hwrite (by decide)
      rw [← hsame]
      exact ih h
    | failed errno =>
      have hsame := wire.write_other hwrite (by simp)
      rw [← hsame]
      dsimp only at h
      split_ifs at h
      · exact ih h
      · obtain ⟨rfl, rfl⟩ := Prod.mk.inj (Option.some.inj h)
        exact Or.inr ⟨rfl, rfl⟩

/-- If no `write` fails for good, every character is written. -/
theorem ioImplWriteChar_status (hsound : ∀ c s, (k.write data.outfd c s).1 ≠ .failed .other)
    {c : Byte} {n : ℕ} {s s' : κ} {status : ℤ}
    (h : ioImplWriteChar k data c n s = some (status, s')) : status = 1 := by
  induction n generalizing s with
  | zero => cases h
  | succ n ih =>
    rw [ioImplWriteChar] at h
    have hnot := hsound c s
    rcases hwrite : k.write data.outfd c s with ⟨result, s₁⟩
    rw [hwrite] at h hnot
    cases result with
    | one => exact (Prod.mk.inj (Option.some.inj h)).1.symm
    | zero => exact ih h
    | failed errno =>
      cases errno with
      | eagain => exact ih h
      | ewouldblock => exact ih h
      | other => exact absurd rfl hnot

/-! ### The other calls -/

theorem changeStatus_sent (change : BitVec 32 → BitVec 32) {fd : Fd} {s s' : κ}
    {status : Option (BitVec 32)} (h : changeStatus k change fd s = (status, s')) :
    wire.sent s' = wire.sent s := by
  rw [changeStatus] at h
  rcases hget : k.getfl fd s with ⟨_ | oldStatus, s₁⟩
  · simp only [hget] at h
    obtain ⟨-, rfl⟩ := Prod.mk.inj h
    exact wire.getfl_sent hget
  · simp only [hget] at h
    rcases hset : k.setfl fd (change oldStatus) s₁ with ⟨_ | _, s₂⟩ <;>
    · simp only [hset] at h
      obtain ⟨-, rfl⟩ := Prod.mk.inj h
      exact (wire.setfl_sent hset).trans (wire.getfl_sent hget)

theorem putStatus_sent (fd : Fd) (status : BitVec 32) (s : Terminal τ κ) :
    wire.sent (putStatus k fd status s).kernel = wire.sent s.kernel :=
  wire.setfl_sent rfl

theorem resetTerminal_sent (s : Terminal τ κ) :
    wire.sent (resetTerminal k s).kernel = wire.sent s.kernel :=
  wire.tcsetattr_sent rfl

theorem atexitTermios_kernel (s : Terminal τ κ) : (atexitTermios k s).kernel = s.kernel := by
  rw [atexitTermios]
  split_ifs <;> rfl

theorem initSaved_sent (buf : Termios τ) {s s' : Terminal τ κ} {status : ℤ}
    (h : initSaved k buf s = (status, s')) : wire.sent s'.kernel = wire.sent s.kernel := by
  rw [initSaved] at h
  rcases hset : k.tcsetattr (k.platform.raw buf) s.kernel with ⟨_ | _, s₁⟩
  · simp only [hset] at h
    obtain ⟨-, rfl⟩ := Prod.mk.inj h
    exact wire.tcsetattr_sent hset
  · simp only [hset] at h
    have hkept := wire.tcsetattr_sent hset
    rcases hget : k.tcgetattr s₁ with ⟨_ | new, s₂⟩
    · simp only [hget] at h
      obtain ⟨-, rfl⟩ := Prod.mk.inj h
      exact (resetTerminal_sent wire _).trans ((wire.tcgetattr_sent hget).trans hkept)
    · simp only [hget] at h
      split_ifs at h
      · obtain ⟨-, rfl⟩ := Prod.mk.inj h
        exact (resetTerminal_sent wire _).trans ((wire.tcgetattr_sent hget).trans hkept)
      · obtain ⟨-, rfl⟩ := Prod.mk.inj h
        rw [atexitTermios_kernel]
        exact (wire.tcgetattr_sent hget).trans hkept

theorem initTerminal_sent {s s' : Terminal τ κ} {status : ℤ}
    (h : initTerminal k s = (status, s')) : wire.sent s'.kernel = wire.sent s.kernel := by
  rw [initTerminal] at h
  split_ifs at h
  · rcases hget : k.tcgetattr s.kernel with ⟨_ | buf, s₁⟩
    · simp only [hget] at h
      obtain ⟨-, rfl⟩ := Prod.mk.inj h
      exact wire.tcgetattr_sent hget
    · simp only [hget] at h
      exact (initSaved_sent wire buf h).trans (wire.tcgetattr_sent hget)
  · obtain ⟨-, rfl⟩ := Prod.mk.inj h
    rfl

theorem ioImplStart_sent {s s' : Terminal τ κ} {status : ℤ}
    (h : ioImplStart k data s = (status, s')) : wire.sent s'.kernel = wire.sent s.kernel := by
  rw [ioImplStart] at h
  rcases hin : setNonblock k data.infd s.kernel with ⟨_ | infdOldStatus, s₁⟩
  · simp only [hin] at h
    obtain ⟨-, rfl⟩ := Prod.mk.inj h
    exact changeStatus_sent wire _ hin
  simp only [hin] at h
  have hfirst := changeStatus_sent wire _ hin
  rcases hout : setNonblock k data.outfd s₁ with ⟨_ | outfdOldStatus, s₂⟩
  · simp only [hout] at h
    obtain ⟨-, rfl⟩ := Prod.mk.inj h
    exact (putStatus_sent wire _ _ _).trans ((changeStatus_sent wire _ hout).trans hfirst)
  simp only [hout] at h
  have hboth := (changeStatus_sent wire _ hout).trans hfirst
  rcases hinit : initTerminal k { s with kernel := s₂ } with ⟨started, s₃⟩
  simp only [hinit] at h
  have hall := (initTerminal_sent wire hinit).trans hboth
  split_ifs at h
  · obtain ⟨-, rfl⟩ := Prod.mk.inj h
    rw [putStatus_sent, putStatus_sent]
    exact hall
  · obtain ⟨-, rfl⟩ := Prod.mk.inj h
    exact hall

theorem ioImplEnd_sent {s s' : Terminal τ κ} {status : ℤ}
    (h : ioImplEnd k data s = (status, s')) : wire.sent s'.kernel = wire.sent s.kernel := by
  rw [ioImplEnd] at h
  rcases hin : setBlocking k data.infd s.kernel with ⟨_ | infdOldStatus, s₁⟩
  · simp only [hin] at h
    obtain ⟨-, rfl⟩ := Prod.mk.inj h
    exact changeStatus_sent wire _ hin
  simp only [hin] at h
  have hfirst := changeStatus_sent wire _ hin
  rcases hout : setBlocking k data.outfd s₁ with ⟨_ | outfdOldStatus, s₂⟩
  · simp only [hout] at h
    obtain ⟨-, rfl⟩ := Prod.mk.inj h
    exact (putStatus_sent wire _ _ _).trans ((changeStatus_sent wire _ hout).trans hfirst)
  · simp only [hout] at h
    obtain ⟨-, rfl⟩ := Prod.mk.inj h
    exact (resetTerminal_sent wire _).trans ((changeStatus_sent wire _ hout).trans hfirst)

/-! ### Events -/

/-- The character that a call asks for. -/
def IoCall.printed : IoCall → Option Byte
  | .writeChar output => some output
  | _ => none

/-- The character that is written by a call, which is the one it asks for or none. -/
def IoEvent.arrived (k : Kernel τ κ) (data : DeviceIoImplData) (e : IoEvent (Terminal τ κ)) :
    Option Byte :=
  e.call.printed.filter fun output =>
    (ioImplWriteChar k data output (k.patience e.before.kernel + 1) e.before.kernel).map Prod.fst =
      some 1

/-- **One call.** -/
theorem IoEvent.Made.sent {c : Byte} {e : IoEvent (Terminal τ κ)}
    (h : e.Made (createDeviceIoImpl k data c)) :
    wire.sent e.after.kernel = wire.sent e.before.kernel ++ (e.arrived k data).toList := by
  obtain ⟨call, s, s'⟩ := e
  cases call with
  | getChar =>
    have hread : s'.kernel = (k.read data.infd s.kernel).2 :=
      congrArg Terminal.kernel (show s' = _ from h)
    dsimp only
    rw [hread]
    exact (wire.read_sent rfl).trans (List.append_nil _).symm
  | start status =>
    have hstart : ioImplStart k data s = (status, s') := Eq.symm h
    exact (ioImplStart_sent wire hstart).trans (List.append_nil _).symm
  | stop status =>
    have hend : ioImplEnd k data s = (status, s') := Eq.symm h
    exact (ioImplEnd_sent wire hend).trans (List.append_nil _).symm
  | writeChar output =>
    obtain rfl : s' = (implDescriptors k data).writeChar output s := h
    obtain ⟨⟨status, s₁⟩, hwrite⟩ := Option.ne_none_iff_exists'.mp (wire.patient output s.kernel)
    have hkernel : ((implDescriptors k data).writeChar output s).kernel = s₁ := by
      simp only [implDescriptors, hwrite]
    rw [hkernel, IoEvent.arrived, IoCall.printed]
    rcases ioImplWriteChar_sent wire hwrite with ⟨rfl, hsent⟩ | ⟨rfl, hsent⟩
    · simp [Option.filter_some, hwrite, hsent]
    · simp [Option.filter_some, hwrite, hsent]

/-- Some calls, one after the other. -/
theorem Genuine.sent {c : Byte} {log : List (IoEvent (Terminal τ κ))} {s s' : Terminal τ κ}
    (h : Genuine (createDeviceIoImpl k data c) s log s') :
    wire.sent s'.kernel = wire.sent s.kernel ++ log.filterMap (IoEvent.arrived k data) := by
  induction log generalizing s with
  | nil =>
    obtain rfl : s' = s := h
    exact (List.append_nil _).symm
  | cons e log ih =>
    obtain ⟨rfl, hmade, hrest⟩ := h
    rw [ih hrest, hmade.sent wire, List.append_assoc, List.filterMap_cons]
    cases e.arrived k data <;> rfl

/-- Without a call that fails for good, what is asked for is what is written. -/
theorem Wire.arrived_eq (wire : Wire k data)
    (hsound : ∀ c s, (k.write data.outfd c s).1 ≠ .failed .other)
    (e : IoEvent (Terminal τ κ)) : e.arrived k data = e.call.printed := by
  rw [IoEvent.arrived]
  cases hprinted : e.call.printed with
  | none => rfl
  | some output =>
    obtain ⟨⟨status, s₁⟩, hwrite⟩ :=
      Option.ne_none_iff_exists'.mp (wire.patient output e.before.kernel)
    obtain rfl := ioImplWriteChar_status hsound hwrite
    simp [Option.filter_some, hwrite]

end Wire

/-! ### What the devices print -/

/-- A callback that writes down the characters it prints. -/
def recorded (callback : Callback ω α) : Callback (ω × List Byte) α := fun s =>
  (callback s.1).map fun x => (x.1, (x.2.1, s.2 ++ x.2.2.filterMap HostCall.output), x.2.2)

/-- A device whose callbacks write down what they print. -/
def Device.recorded (device : Device ω) : Device (ω × List Byte) where
  start := Lc3Simulator.recorded device.start
  readRegister address := Lc3Simulator.recorded (device.readRegister address)
  writeRegister address value := Lc3Simulator.recorded (device.writeRegister address value)
  onInput := device.onInput.map fun onInput input => Lc3Simulator.recorded (onInput input)
  onTick := device.onTick.map Lc3Simulator.recorded
  getAddresses := device.getAddresses
  getAddressMethod := device.getAddressMethod

/-- The devices write down what they print, and the terminal what it is asked. -/
def Env.recorded (env : Env ω ι) : Env (ω × List Byte) (ι × List (IoEvent ι)) :=
  ⟨env.libc, fun d => (env.device d).recorded, env.deviceIo.logged⟩

/-- The list of the devices are the characters that the terminal was handed, and those that are
left. -/
def HandedOver (env : Env ω ι) (s₀ : ι) (left : List Byte) (s : ω × ι)
    (t : (ω × List Byte) × (ι × List (IoEvent ι))) : Prop :=
  t.1.1 = s.1 ∧ Records env.deviceIo s₀ s.2 t.2 ∧
    t.1.2 = (t.2.2.map IoEvent.call).filterMap IoCall.printed ++ left

theorem HandedOver.callback {env : Env ω ι} {s₀ : ι} (callback : Callback ω α) :
    CallbackAlike (HandedOver env s₀) callback (recorded callback) := by
  rintro ⟨devices, s⟩ ⟨⟨devices', asked⟩, t⟩ ⟨hdevices, hrecords, hasked⟩
  obtain rfl : devices' = devices := hdevices
  simp only [recorded]
  cases callback devices' with
  | none => exact Option.Rel.none
  | some x =>
    refine Option.Rel.some ⟨rfl, rfl, rfl, hrecords, ?_⟩
    rw [List.append_nil] at hasked
    exact congrArg (· ++ _) hasked

/-- Devices that write down what they print do what the plain ones do. -/
theorem recorded_alike (env : Env ω ι) (s₀ : ι) : env.Alike (HandedOver env s₀) env.recorded where
  libc := rfl
  start _ := HandedOver.callback _
  readRegister _ _ := HandedOver.callback _
  writeRegister _ _ _ := HandedOver.callback _
  onInput d := by
    simp only [Env.recorded, Device.recorded]
    cases (env.device d).onInput with
    | none => exact Option.Rel.none
    | some onInput => exact Option.Rel.some fun _ => HandedOver.callback _
  onTick d := by
    simp only [Env.recorded, Device.recorded]
    cases (env.device d).onTick <;> rfl
  getAddresses _ := rfl
  getAddressMethod _ := rfl
  getChar s t h := by
    obtain ⟨hdevices, hrecords, hasked⟩ := h
    refine ⟨hrecords.getChar.1, hrecords.getChar.2.1, hdevices, hrecords.getChar.2.2, ?_⟩
    rw [hasked]
    simp [Env.recorded, DeviceIo.logged, IoCall.printed]
  writeChar output left s t h := by
    obtain ⟨hdevices, hrecords, hasked⟩ := h
    refine ⟨hdevices, hrecords.writeChar output, ?_⟩
    rw [hasked]
    simp [Env.recorded, DeviceIo.logged, IoCall.printed]
  ioStart s t h := by
    obtain ⟨hdevices, hrecords, hasked⟩ := h
    refine ⟨hrecords.ioStart.1, hdevices, hrecords.ioStart.2, ?_⟩
    rw [hasked]
    simp [Env.recorded, DeviceIo.logged, IoCall.printed]
  ioEnd s t h := by
    obtain ⟨hdevices, hrecords, hasked⟩ := h
    refine ⟨hrecords.ioEnd.1, hdevices, hrecords.ioEnd.2, ?_⟩
    rw [hasked]
    simp [Env.recorded, DeviceIo.logged, IoCall.printed]

/-- **What the devices print is what the terminal is handed.** Writing both down changes nothing,
and the two lists have the same characters. -/
theorem exists_record {env : Env ω ι} {commands : List Command} {outs : List (Option ℤ)}
    {sim sim' : Simulator ω ι} (h : run (runCommand env) commands sim = some (outs, sim')) :
    ∃ asked log, run (runCommand env.recorded) commands
          (sim.withStates ((sim.machine.devices, []), (sim.machine.deviceIo, []))) =
        some (outs, sim'.withStates ((sim'.machine.devices, asked), (sim'.machine.deviceIo, log))) ∧
      Genuine env.deviceIo sim.machine.deviceIo log sim'.machine.deviceIo ∧
      asked = (log.map IoEvent.call).filterMap IoCall.printed := by
  have hstart : SimAlike (HandedOver env sim.machine.deviceIo) sim
      (sim.withStates ((sim.machine.devices, []), (sim.machine.deviceIo, []))) :=
    ⟨((_, []), (_, [])), ⟨rfl, ⟨rfl, rfl⟩, rfl⟩, rfl⟩
  have halike := runCommands_alike (recorded_alike env sim.machine.deviceIo) commands hstart
  rw [h] at halike
  obtain ⟨simRecorded, hrecorded, ⟨⟨devices, asked⟩, ⟨deviceIo, log⟩⟩,
    ⟨hdevices, ⟨rfl, hgenuine⟩, hasked⟩, rfl⟩ := agree_some_left halike
  obtain rfl : devices = sim'.machine.devices := hdevices
  rw [List.append_nil] at hasked
  exact ⟨asked, log, hrecorded, hgenuine, hasked⟩

/-! ### Any commands -/

/-- **Output is delivered as it is printed.** Whatever commands are carried out, with any devices,
the terminal is handed the characters that the callbacks of the devices print, once each and in
their order, and what is written to the output descriptor are these, but for those whose `write` has
failed for good; and if none has, these are all of them. How often `write` must be called for a
character makes no difference, nor do the settings that `start` and `end` change. -/
theorem output_delivered {env : Env ω (Terminal τ κ)} {k : Kernel τ κ} {data : DeviceIoImplData}
    {c : Byte} (wire : Wire k data) (hio : env.deviceIo = createDeviceIoImpl k data c)
    {commands : List Command} {outs : List (Option ℤ)} {sim sim' : Simulator ω (Terminal τ κ)}
    (hrun : run (runCommand env) commands sim = some (outs, sim')) :
    ∃ asked log, run (runCommand env.recorded) commands
          (sim.withStates ((sim.machine.devices, []), (sim.machine.deviceIo, []))) =
        some (outs, sim'.withStates ((sim'.machine.devices, asked), (sim'.machine.deviceIo, log))) ∧
      asked = (log.map IoEvent.call).filterMap IoCall.printed ∧
      wire.sent sim'.machine.deviceIo.kernel =
        wire.sent sim.machine.deviceIo.kernel ++ log.filterMap (IoEvent.arrived k data) ∧
      ((∀ c s, (k.write data.outfd c s).1 ≠ .failed .other) →
        log.filterMap (IoEvent.arrived k data) = asked) := by
  obtain ⟨asked, log, hrecorded, hgenuine, hasked⟩ := exists_record hrun
  rw [hio] at hgenuine
  refine ⟨asked, log, hrecorded, hasked, hgenuine.sent wire, fun hsound => ?_⟩
  rw [hasked, List.filterMap_map]
  exact List.filterMap_congr fun e _ => wire.arrived_eq hsound e

/-- A kernel that keeps what is written, and puts every other `write` off. -/
def hesitantKernel : Kernel Unit (List Byte × Bool) where
  platform := ⟨0x800, 0x8, 0x2, 6, 5, 32⟩
  isatty := false
  getfl _ s := (some 0, s)
  setfl _ _ s := (true, s)
  tcgetattr s := (none, s)
  tcsetattr _ s := (false, s)
  read _ s := (.failed .eagain, s)
  write _ c s := if s.2 then (.one, s.1 ++ [c], false) else (.failed .eagain, s.1, true)
  patience _ := 1

def hesitantWire : Wire hesitantKernel ⟨0, 1⟩ where
  sent := Prod.fst
  getfl_sent h := by
    obtain ⟨-, rfl⟩ := Prod.mk.inj h
    rfl
  setfl_sent h := by
    obtain ⟨-, rfl⟩ := Prod.mk.inj h
    rfl
  tcgetattr_sent h := by
    obtain ⟨-, rfl⟩ := Prod.mk.inj h
    rfl
  tcsetattr_sent h := by
    obtain ⟨-, rfl⟩ := Prod.mk.inj h
    rfl
  read_sent h := by
    obtain ⟨-, rfl⟩ := Prod.mk.inj h
    rfl
  write_one {c s s'} h := by
    dsimp only [hesitantKernel] at h
    split_ifs at h
    · obtain ⟨-, rfl⟩ := Prod.mk.inj h
      rfl
    · cases (Prod.mk.inj h).1
  write_other {c s result s'} h hne := by
    dsimp only [hesitantKernel] at h
    split_ifs at h
    · obtain ⟨rfl, -⟩ := Prod.mk.inj h
      exact absurd rfl hne
    · obtain ⟨-, rfl⟩ := Prod.mk.inj h
      rfl
  patient c s := by
    obtain ⟨sent, ready⟩ := s
    cases ready <;> simp [ioImplWriteChar, hesitantKernel, WriteResult.again]

/-- A device that prints what is typed. -/
def echoDevice : Device Unit :=
  { inertDevice with
    onInput := some fun input _ => some ((), (), [.writeOutput (input.setWidth 8)]) }

def hesitantEnv : Env Unit (Terminal Unit (List Byte × Bool)) :=
  ⟨SortSearch.bisecting _, fun _ => echoDevice, createDeviceIoImpl hesitantKernel ⟨0, 1⟩ 0⟩

/-- Two characters are typed, the device asks for each of them to be printed, and both arrive. -/
theorem output_delivered_echo : ∃ sim sim' asked,
    ∃ log : List (IoEvent (Terminal Unit (List Byte × Bool))),
    simulatorNew hesitantEnv () ⟨([], false), ⟨0, fun _ => 0, ()⟩, 0⟩ = some sim ∧
    run (runCommand hesitantEnv)
      [.attachDevice 0, .updateDevicesInput 0x48, .updateDevicesInput 0x69] sim =
        some ([some 0, none, none], sim') ∧
    asked = [0x48, 0x69] ∧ log.filterMap (IoEvent.arrived hesitantKernel ⟨0, 1⟩) = asked ∧
    sim'.machine.deviceIo.kernel.1 = asked := by
  obtain ⟨sim, hnew, hsent⟩ : ∃ sim,
      simulatorNew hesitantEnv () ⟨([], false), ⟨0, fun _ => 0, ()⟩, 0⟩ = some sim ∧
        sim.machine.deviceIo.kernel.1 = [] := ⟨_, rfl, rfl⟩
  obtain ⟨⟨outs, sim'⟩, hrun, houts, harrived⟩ : ∃ x,
      run (runCommand hesitantEnv)
        [.attachDevice 0, .updateDevicesInput 0x48, .updateDevicesInput 0x69] sim = some x ∧
          x.1 = [some 0, none, none] ∧ x.2.machine.deviceIo.kernel.1 = [0x48, 0x69] := by
    obtain rfl := Option.some.inj hnew
    exact ⟨_, rfl, by decide +kernel, by decide +kernel⟩
  dsimp only at houts harrived
  subst houts
  obtain ⟨asked, log, -, -, hdelivered, hall⟩ := output_delivered (c := 0) hesitantWire rfl hrun
  have hsound : ∀ c s, (hesitantKernel.write 1 c s).1 ≠ .failed .other := by
    rintro c ⟨sent, ready⟩
    cases ready <;> simp [hesitantKernel]
  have hsame := hall hsound
  have hkernel : sim'.machine.deviceIo.kernel.1 = sim.machine.deviceIo.kernel.1 ++ _ := hdelivered
  rw [hsent, List.nil_append, hsame] at hkernel
  exact ⟨sim, sim', asked, log, hnew, hrun, hkernel.symm.trans harrived, hsame, hkernel⟩

end Lc3Simulator
