import Lc3Simulator.KeyboardInterrupts

/-!
# The registers of the keyboard

The status register belongs to the device and to the program: bit 15 says that an input has not
been read yet, and the other bits are the program's. Each call changes its own part, with one
exception: a write of a value that has bit 15 on sets the ready bit itself, since the value is
taken as it is and only a ready bit that is on already is put back.

What the registers should be is read off the calls so far. They are that, in every state of a
sequence of calls, exactly when no such value is written while everything has been read.

## Main definitions

* `KeyboardCall`, `keyboardStep` — calls of the three functions, recorded
* `inputWaits`, `mostRecentInput`, `lastControl` — what the calls so far say about the registers
* `KeyboardProtocol` — the law of the registers
* `LeavesReady` — a call does not write a ready bit that is off

## Main results

* `keyboardProtocol_iff` — the law holds along a sequence of calls if and only if every call leaves
  the ready bit
* `keyboardProtocol_broken` — a write that makes the keyboard ready without an input
-/

namespace Lc3Simulator

open Transition

/-! ### Calls -/

/-- The registers that the keyboard declares. -/
inductive KeyboardRegister
  | kbsr | kbdr
  deriving DecidableEq, Repr

def KeyboardRegister.address : KeyboardRegister → Word
  | .kbsr => kbsrAddress
  | .kbdr => kbdrAddress

/-- A call of `keyboard_on_input`, `keyboard_write_register` or `keyboard_read_register`. -/
inductive KeyboardCall
  | input (input : Word)
  | write (register : KeyboardRegister) (value : Word)
  | read (register : KeyboardRegister)
  deriving DecidableEq, Repr

/-- What a call returns, and the calls of the host that it makes. -/
def keyboardCall :
    KeyboardCall → KeyboardData → Option ((Option Word × List HostCall) × KeyboardData)
  | .input input, data =>
    (keyboardOnInput input data).map fun r => ((none, r.2.2), r.2.1)
  | .write register value, data =>
    (keyboardWriteRegister register.address value data).map fun r => ((none, r.2.2), r.2.1)
  | .read register, data =>
    (keyboardReadRegister register.address data).map fun r => ((some r.1, r.2.2), r.2.1)

/-- A call, recorded before the earlier ones. -/
def keyboardStep (call : KeyboardCall) (s : KeyboardData × List KeyboardCall) :
    Option ((Option Word × List HostCall) × KeyboardData × List KeyboardCall) :=
  (keyboardCall call s.1).map fun r => (r.1, r.2, call :: s.2)

/-! ### What the calls so far say -/

/-- Some input has arrived since the last read of KBDR. -/
def inputWaits : List KeyboardCall → Bool
  | [] => false
  | .input _ :: _ => true
  | .read .kbdr :: _ => false
  | .read .kbsr :: earlier => inputWaits earlier
  | .write _ _ :: earlier => inputWaits earlier

/-- The most recent input, and zero if there is none. -/
def mostRecentInput : List KeyboardCall → Word
  | [] => 0
  | .input input :: _ => input
  | .read _ :: earlier => mostRecentInput earlier
  | .write _ _ :: earlier => mostRecentInput earlier

/-- The last value that was written to KBSR, and zero if there is none. -/
def lastControl : List KeyboardCall → Word
  | [] => 0
  | .write .kbsr value :: _ => value
  | .write .kbdr _ :: earlier => lastControl earlier
  | .input _ :: earlier => lastControl earlier
  | .read _ :: earlier => lastControl earlier

/-- The alert that the keyboard raises. -/
def keyboardAlert : HostCall :=
  .alertInterrupt keyboardInterruptVector keyboardInterruptPriority

/-- The law of the registers. Bit 15 of KBSR is on if and only if an input waits, and the other bits
are those last written; a read of KBDR returns the most recent input; and an alert is raised by
inputs only, and by those that arrive while bit 14 is on. -/
structure KeyboardProtocol (s : KeyboardData × List KeyboardCall) : Prop where
  ready : s.1.kbsr.getLsbD 15 = inputWaits s.2
  control : ∀ i < 15, s.1.kbsr.getLsbD i = (lastControl s.2).getLsbD i
  data : ∃ data', keyboardCall (.read .kbdr) s.1 = some ((some (mostRecentInput s.2), []), data')
  alerts : ∀ call r, keyboardCall call s.1 = some r → r.1.2 =
    if (∃ input, call = .input input) ∧ s.1.kbsr.getLsbD 14 = true then [keyboardAlert] else []

/-- A call does not write a value with bit 15 on to KBSR while no input waits. -/
def LeavesReady (call : KeyboardCall) (s : KeyboardData × List KeyboardCall) : Prop :=
  ∀ value, call = .write .kbsr value → value.getLsbD 15 = true → inputWaits s.2 = true

/-! ### The bits of the status register -/

theorem readyBitSetOn_low : ∀ i < 15, readyBitSetOn.getLsbD i = false := by decide

theorem readyBitSetOff_low : ∀ i < 15, readyBitSetOff.getLsbD i = true := by decide

/-- An input sets the ready bit and no other. -/
theorem kbsr_input_bits (kbsr : Word) : (kbsr ||| readyBitSetOn).getLsbD 15 = true ∧
    ∀ i < 15, (kbsr ||| readyBitSetOn).getLsbD i = kbsr.getLsbD i := by
  refine ⟨?_, fun i hi => ?_⟩
  · rw [BitVec.getLsbD_or, show readyBitSetOn.getLsbD 15 = true by decide, Bool.or_true]
  · rw [BitVec.getLsbD_or, readyBitSetOn_low i hi, Bool.or_false]

/-- A write takes over the other bits, and adds its own bit 15 to the ready bit. -/
theorem kbsr_write_bits (kbsr value : Word) :
    (value ||| kbsr &&& readyBitSetOn).getLsbD 15 = (value.getLsbD 15 || kbsr.getLsbD 15) ∧
      ∀ i < 15, (value ||| kbsr &&& readyBitSetOn).getLsbD i = value.getLsbD i := by
  refine ⟨?_, fun i hi => ?_⟩
  · rw [BitVec.getLsbD_or, BitVec.getLsbD_and, show readyBitSetOn.getLsbD 15 = true by decide,
      Bool.and_true]
  · rw [BitVec.getLsbD_or, BitVec.getLsbD_and, readyBitSetOn_low i hi, Bool.and_false,
      Bool.or_false]

/-- A read of KBDR clears the ready bit and no other. -/
theorem kbsr_read_bits (kbsr : Word) : (kbsr &&& readyBitSetOff).getLsbD 15 = false ∧
    ∀ i < 15, (kbsr &&& readyBitSetOff).getLsbD i = kbsr.getLsbD i := by
  refine ⟨?_, fun i hi => ?_⟩
  · rw [BitVec.getLsbD_and, show readyBitSetOff.getLsbD 15 = false by decide, Bool.and_false]
  · rw [BitVec.getLsbD_and, readyBitSetOff_low i hi, Bool.and_true]

/-! ### One call -/

theorem keyboardCall_input (input : Word) (data : KeyboardData) :
    keyboardCall (.input input) data = some ((none,
      if data.kbsr.getLsbD 14 then [keyboardAlert] else []),
      ⟨data.kbsr ||| readyBitSetOn, input⟩) := by
  have henable : interruptEnableBitOn (data.kbsr ||| readyBitSetOn) = data.kbsr.getLsbD 14 := by
    rw [(kbsr_input data.kbsr).2, interruptEnableBitOn_eq]
  rw [keyboardCall, keyboardOnInput]
  dsimp only
  rw [henable]
  cases data.kbsr.getLsbD 14 <;> rfl

theorem keyboardCall_readData (data : KeyboardData) :
    keyboardCall (.read .kbdr) data =
      some ((some data.kbdr, []), { data with kbsr := data.kbsr &&& readyBitSetOff }) := rfl

/-- Whatever the registers are, alerts are raised by inputs only, while bit 14 is on. -/
theorem keyboardCall_alerts {call : KeyboardCall} {data : KeyboardData}
    {r : (Option Word × List HostCall) × KeyboardData} (h : keyboardCall call data = some r) :
    r.1.2 = if (∃ input, call = .input input) ∧ data.kbsr.getLsbD 14 = true then [keyboardAlert]
      else [] := by
  cases call with
  | input input =>
    rw [keyboardCall_input] at h
    obtain rfl := Option.some.inj h
    cases data.kbsr.getLsbD 14 <;> simp
  | write register value =>
    cases register <;> obtain rfl := Option.some.inj h <;> simp
  | read register =>
    cases register <;> obtain rfl := Option.some.inj h <;> simp

/-- The law, for registers that are what the calls say. -/
theorem KeyboardProtocol.of_registers {data : KeyboardData} {calls : List KeyboardCall}
    (hready : data.kbsr.getLsbD 15 = inputWaits calls)
    (hcontrol : ∀ i < 15, data.kbsr.getLsbD i = (lastControl calls).getLsbD i)
    (hdata : data.kbdr = mostRecentInput calls) : KeyboardProtocol (data, calls) :=
  ⟨hready, hcontrol, ⟨_, hdata ▸ keyboardCall_readData data⟩, fun _ _ => keyboardCall_alerts⟩

theorem KeyboardProtocol.kbdr {s : KeyboardData × List KeyboardCall} (h : KeyboardProtocol s) :
    s.1.kbdr = mostRecentInput s.2 := by
  obtain ⟨data', hread⟩ := h.data
  rw [keyboardCall_readData] at hread
  exact Option.some.inj (Prod.mk.inj (Prod.mk.inj (Option.some.inj hread)).1).1

/-- **A call that leaves the ready bit keeps the law.** -/
theorem keyboardProtocol_step {call : KeyboardCall} {s : KeyboardData × List KeyboardCall}
    (h : KeyboardProtocol s) (hleaves : LeavesReady call s) :
    ∃ out s', keyboardStep call s = some (out, s') ∧ KeyboardProtocol s' := by
  obtain ⟨data, calls⟩ := s
  have hdata : data.kbdr = mostRecentInput calls := h.kbdr
  cases call with
  | input input =>
    obtain ⟨hready, hlow⟩ := kbsr_input_bits data.kbsr
    refine ⟨_, _, by rw [keyboardStep, keyboardCall_input]; rfl, ?_⟩
    exact KeyboardProtocol.of_registers hready (fun i hi => (hlow i hi).trans (h.control i hi)) rfl
  | write register value =>
    cases register with
    | kbsr =>
      obtain ⟨hready, hlow⟩ := kbsr_write_bits data.kbsr value
      refine ⟨_, _, rfl, KeyboardProtocol.of_registers (hready.trans ?_) hlow hdata⟩
      rw [show data.kbsr.getLsbD 15 = inputWaits calls from h.ready]
      cases hbit : value.getLsbD 15 with
      | false => rfl
      | true => exact (hleaves value rfl hbit).symm
    | kbdr => exact ⟨_, _, rfl, KeyboardProtocol.of_registers h.ready h.control hdata⟩
  | read register =>
    cases register with
    | kbsr => exact ⟨_, _, rfl, KeyboardProtocol.of_registers h.ready h.control hdata⟩
    | kbdr =>
      obtain ⟨hready, hlow⟩ := kbsr_read_bits data.kbsr
      exact ⟨_, _, rfl, KeyboardProtocol.of_registers hready
        (fun i hi => (hlow i hi).trans (h.control i hi)) hdata⟩

/-- A call that does not leave the ready bit breaks the law at once. -/
theorem not_keyboardProtocol_step {call : KeyboardCall} {s s' : KeyboardData × List KeyboardCall}
    {out : Option Word × List HostCall} (hleaves : ¬ LeavesReady call s)
    (hstep : keyboardStep call s = some (out, s')) : ¬ KeyboardProtocol s' := by
  intro h
  refine hleaves fun value hcall hbit => ?_
  subst hcall
  obtain ⟨-, rfl⟩ := Prod.mk.inj (Option.some.inj hstep)
  have hready := (kbsr_write_bits s.1.kbsr value).1
  rw [hbit, Bool.true_or] at hready
  exact h.ready.symm.trans hready

/-! ### Every sequence of calls -/

theorem keyboardProtocol_init : KeyboardProtocol (keyboardInit, []) :=
  KeyboardProtocol.of_registers rfl (fun _ _ => rfl) rfl

/-- **The register protocol.** Along a sequence of calls on a new keyboard, in every state of it,
the law of the registers holds if and only if no call writes a value with bit 15 on to KBSR while
no input waits. -/
theorem keyboardProtocol_iff (calls : List KeyboardCall) :
    Safe keyboardStep KeyboardProtocol calls (keyboardInit, []) ↔
      Along keyboardStep LeavesReady calls (keyboardInit, []) :=
  safe_iff_along (I := KeyboardProtocol) (fun _ h => h)
    (fun _ _ h hleaves => keyboardProtocol_step h hleaves)
    (fun _ _ _ _ _ hleaves hstep => not_keyboardProtocol_step hleaves hstep) keyboardProtocol_init

/-- **A program makes the keyboard ready** by writing bit 15 to KBSR, although nothing was typed. -/
theorem keyboardProtocol_broken :
    ¬ Safe keyboardStep KeyboardProtocol [.write .kbsr 0x8000] (keyboardInit, []) := by
  rintro ⟨-, out, s', hstep, hlast⟩
  obtain ⟨-, rfl⟩ := Prod.mk.inj (Option.some.inj hstep)
  exact absurd hlast.ready (by decide)

end Lc3Simulator
