import Lc3Simulator.Simulator
import Lc3Simulator.Plugins.Display

/-!
# The computer that the two plugins make

With the keyboard and the display attached, the simulator is to be a computer: 65536 words of which
four are registers of its devices, one interrupt that may be waiting, and a terminal. `Computer`
says this outright. There is no address map in it, no queue of interrupts, no pointer, and nothing
that could fail: every function is total, and the only loop that may go on for ever is cut after a
number of rounds, as in the simulator.

The CPU is that of `cpu.c`. Whether the simulator is this computer is another matter.

## Main definitions

* `Console` — what a program sees beyond its registers, with `Console.read` and `Console.write`
* `Ordinary` — addresses of memory
* `Computer` — a CPU and a console
* `Computer.tick`, `Computer.runLoop` — ticks, and the rounds of a run
* `Computer.command` — the commands of the user interface
-/

namespace Lc3Simulator

open Interaction

variable {ι : Type}

/-! ### The console -/

/-- Memory, the two devices, the terminal, and whether an interrupt of the keyboard is waiting. -/
structure Console (ι : Type) where
  memory : Word → Word
  keyboard : KeyboardData
  display : DisplayData
  keyWaiting : Bool
  terminal : ι

/-- The address of a word in memory, and not of a register. -/
def Ordinary (address : Word) : Prop :=
  address ≠ kbsrAddress ∧ address ≠ kbdrAddress ∧ address ≠ dsrAddress ∧ address ≠ ddrAddress

instance (address : Word) : Decidable (Ordinary address) :=
  inferInstanceAs (Decidable (_ ∧ _ ∧ _ ∧ _))

namespace Console

/-- Looking at an address. -/
def read (c : Console ι) (address : Word) : Word × Console ι :=
  if address = kbsrAddress then
    (c.keyboard.kbsr, c)
  else if address = kbdrAddress then
    (c.keyboard.kbdr,
      { c with keyboard := { c.keyboard with kbsr := c.keyboard.kbsr &&& readyBitSetOff } })
  else if address = dsrAddress then
    (c.display.dsr, c)
  else if address = ddrAddress then
    (c.display.ddr, c)
  else
    (c.memory address, c)

/-- Storing a word at an address. -/
def write (io : DeviceIo ι) (c : Console ι) (address value : Word) : Console ι :=
  if address = kbsrAddress then
    { c with
      keyboard := { c.keyboard with kbsr := value ||| (c.keyboard.kbsr &&& readyBitSetOn) } }
  else if address = kbdrAddress then
    c
  else if address = dsrAddress then
    { c with display := { c.display with dsr := value ||| (c.display.dsr &&& readyBitSetOn) } }
  else if address = ddrAddress then
    { c with terminal := io.writeChar (value.setWidth 8) c.terminal }
  else
    { c with memory := Function.update c.memory address value }

theorem read_ordinary {c : Console ι} {address : Word} (h : Ordinary address) :
    c.read address = (c.memory address, c) := by
  obtain ⟨hkbsr, hkbdr, hdsr, hddr⟩ := h
  rw [read, if_neg hkbsr, if_neg hkbdr, if_neg hdsr, if_neg hddr]

theorem write_ordinary {io : DeviceIo ι} {c : Console ι} {address : Word} (h : Ordinary address)
    (value : Word) : c.write io address value =
      { c with memory := Function.update c.memory address value } := by
  obtain ⟨hkbsr, hkbdr, hdsr, hddr⟩ := h
  rw [write, if_neg hkbsr, if_neg hkbdr, if_neg hdsr, if_neg hddr]

/-- A character reaches the keyboard. -/
def input (character : Word) (c : Console ι) : Console ι :=
  let keyboard : KeyboardData := ⟨c.keyboard.kbsr ||| readyBitSetOn, character⟩
  { c with keyboard, keyWaiting := c.keyWaiting || interruptEnableBitOn keyboard.kbsr }

/-- The terminal is asked for a character. -/
def checkInput (io : DeviceIo ι) (c : Console ι) : Console ι :=
  let result := io.getChar c.terminal
  let c := { c with terminal := result.2.2 }
  if result.1 ≠ 0 then c.input (result.2.1.signExtend 16) else c

end Console

/-- The console as the environment of a CPU. -/
def consoleResponder (io : DeviceIo ι) : Responder BusRequest BusResponse (Console ι)
  | .read address, c => c.read address
  | .write address value, c => ((), c.write io address value)

/-! ### The computer -/

structure Computer (ι : Type) where
  cpu : Cpu
  console : Console ι

namespace Computer

variable (io : DeviceIo ι)

/-- One tick. The result says whether the computer goes on. -/
def tick (c : Computer ι) : Bool × Computer ι :=
  let r := (cpuTick c.cpu).eval (consoleResponder io) c.console
  (r.1.1, ⟨r.1.2, r.2⟩)

def checkInput (c : Computer ι) : Computer ι := { c with console := c.console.checkInput io }

/-- The interrupt of the keyboard is offered if it is waiting, and waits no longer if it is
taken. -/
def checkInterrupts (c : Computer ι) : Computer ι :=
  if c.console.keyWaiting then
    let r := (cpuSignalInterrupt c.cpu keyboardInterruptVector keyboardInterruptPriority).eval
      (consoleResponder io) c.console
    ⟨r.1.2, { r.2 with keyWaiting := !r.1.1 && r.2.keyWaiting }⟩
  else
    c

def startIo (c : Computer ι) : ℤ × Computer ι :=
  let r := io.ioStart c.console.terminal
  (r.1, { c with console := { c.console with terminal := r.2 } })

def endIo (c : Computer ι) : ℤ × Computer ι :=
  let r := io.ioEnd c.console.terminal
  (r.1, { c with console := { c.console with terminal := r.2 } })

def writeAddress (c : Computer ι) (address value : Word) : Computer ι :=
  { c with console := c.console.write io address value }

def writeRegister (c : Computer ι) (reg : Lc3Reg) (value : Word) : Computer ι :=
  { c with cpu := cpuWriteRegister c.cpu reg value }

/-- A new computer: the clock is on, and everything else is off. -/
def new (terminal : ι) : Computer ι where
  cpu := setupExceptions ⟨⟨false, 0⟩, ⟨false, 0⟩, fun _ => 0⟩
  console :=
    { memory := Function.update (fun _ => 0) mcrAddr 0x8000
      keyboard := keyboardInit
      display := displayInit
      keyWaiting := false
      terminal }

/-! ### Running -/

/-- What a round does after its tick. -/
def afterTick (c : Computer ι) : Computer ι := (c.checkInput io).checkInterrupts io

/-- The first `n` rounds of a run. The result says whether the computer was still going. -/
def runLoop : ℕ → Computer ι → Bool × Computer ι
  | 0, c => (true, c)
  | n + 1, c =>
    let r := c.tick io
    if r.1 then runLoop n (r.2.afterTick io) else (false, r.2)

/-- The first `n` steps. There is no status before the first one. -/
def stepLoop : ℕ → Option ℤ → Computer ι → Option ℤ × Computer ι
  | 0, status, c => (status, c)
  | n + 1, _, c =>
    let r := c.tick io
    if r.1 then stepLoop n (some 1) r.2 else (some 0, r.2)

/-- Words go to memory from an address on. -/
def load (c : Computer ι) (address : Word) : List Word → Computer ι
  | [] => c
  | word :: rest => load (c.writeAddress io address word) (address + 1) rest

/-- The commands. Only a run that `n` rounds do not end has no result. -/
def command : Command → Computer ι → Option (Option ℤ × Computer ι)
  | .attachDevice _, c => some (some (-1), c)
  | .writeAddress address value, c => some (none, c.writeAddress io address value)
  | .writeRegister reg value, c => some (none, c.writeRegister reg value)
  | .loadProgram [] last, c => some (some last, c)
  | .loadProgram (start :: rest) last, c =>
    some (some last, (c.load io start rest).writeRegister .pc start)
  | .updateDevicesInput input, c => some (none, { c with console := c.console.input input })
  | .step amt, c =>
    let (status, c) := c.startIo io
    if status < 0 then some (some (-1), c)
    else
      let (tickStatus, c) := c.stepLoop io amt.toNat none
      let (status, c) := c.endIo io
      some (if status < 0 then some (-1) else tickStatus, c)
  | .runUntilEnd n, c =>
    let (status, c) := c.startIo io
    if status < 0 then some (some (-1), c)
    else
      let (running, c) := c.runLoop io n
      if running then none
      else
        let (status, c) := c.endIo io
        some (some (if status < 0 then -1 else 0), c)

end Computer

end Lc3Simulator
