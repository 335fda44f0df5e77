import Lc3Simulator.Os
import Lc3Simulator.ProgramLoad
import Lc3Simulator.Undisturbed

/-!
# Booting

The plugins are attached, `os.obj` is loaded, and then a program. With the words of both in memory,
the program has the routines of the operating system to call.

## Main definitions

* `fileBytes` — the file that has given words, `osObj` — the file `os.obj`
* `booted` — the computer after booting, and `bootedTask` — the task it runs

## Main results

* `programWords_fileBytes` — words survive being written to a file and read from it
* `Computer.load_ordinary` — words in ordinary memory
* `boot_shows`, `booted_ready` — booting, and the routines after it
-/

namespace Lc3Simulator

open Interaction Isa Progress Transition

/-! ### Files -/

/-- Two bytes for a word, the high one first. -/
def fileBytes (words : List Word) : List Byte :=
  words.flatMap fun word => [word.extractLsb' 8 8, word.extractLsb' 0 8]

/-- What was written is read. -/
theorem programWords_fileBytes (words : List Word) : programWords (fileBytes words) = words := by
  induction words with
  | nil => rfl
  | cons word rest ih =>
    have hword : (word.extractLsb' 8 8 ++ word.extractLsb' 0 8 : Word) = word := by
      rw [BitVec.extractLsb'_append_extractLsb'_eq_extractLsb' (by rfl)]
      exact BitVec.extractLsb'_eq_self
    show (word.extractLsb' 8 8 ++ word.extractLsb' 0 8) :: programWords (fileBytes rest) = _
    rw [ih, hword]

/-- The file `os.obj`. -/
def osObj : List Byte := fileBytes (0 :: osWords)

/-! ### Memory after loading -/

section Load

variable {ι : Type} {io : DeviceIo ι}

@[simp] theorem Computer.writeRegister_console (c : Computer ι) (reg : Lc3Reg) (value : Word) :
    (c.writeRegister reg value).console = c.console := rfl

theorem Computer.writeRegister_self (c : Computer ι) (reg : Lc3Reg) (value : Word) :
    (c.writeRegister reg value).cpu.registers reg = value := by
  simp [Computer.writeRegister, cpuWriteRegister, Cpu.setReg]

/-- Words in ordinary memory: the last word for an address stays. -/
theorem Computer.load_ordinary {words : List Word} {start : Word} (c : Computer ι)
    (hordinary : ∀ i < words.length, Ordinary (start + BitVec.ofNat 16 i)) :
    c.load io start words = { c with console := { c.console with
      memory := fun a => (lastWord a start words).getD (c.console.memory a) } } := by
  induction words generalizing start c with
  | nil => rfl
  | cons word rest ih =>
    have hstart : Ordinary start := by
      have hzero := hordinary 0 (Nat.zero_lt_succ _)
      rwa [BitVec.add_zero] at hzero
    have hrest : ∀ i < rest.length, Ordinary (start + 1 + BitVec.ofNat 16 i) := fun i hi => by
      have hnext := hordinary (i + 1) (Nat.succ_lt_succ hi)
      rwa [Nat.add_comm, BitVec.ofNat_add, ← BitVec.add_assoc] at hnext
    rw [Computer.load, ih _ hrest, Computer.writeAddress, Console.write_ordinary hstart]
    have hmemory : (fun a => (lastWord a (start + 1) rest).getD
        (Function.update c.console.memory start word a)) =
        fun a => (lastWord a start (word :: rest)).getD (c.console.memory a) := by
      funext a
      rw [lastWord]
      cases lastWord a (start + 1) rest with
      | some later => rfl
      | none =>
        by_cases ha : start = a
        · subst ha
          simp
        · simp [ha, Function.update_of_ne (Ne.symm ha)]
    rw [hmemory]

theorem Computer.load_cpu (c : Computer ι) (start : Word) (words : List Word) :
    (c.load io start words).cpu = c.cpu := by
  induction words generalizing c start with
  | nil => rfl
  | cons word rest ih => exact ih _ _

/-- A word that was loaded. -/
theorem Computer.load_word {words : List Word} {start : Word} (c : Computer ι)
    (hordinary : ∀ i < words.length, Ordinary (start + BitVec.ofNat 16 i))
    (hfit : start.toNat + words.length ≤ 2 ^ 16) {i : ℕ} {word : Word}
    (hword : words[i]? = some word) :
    (c.load io start words).console.memory (start + BitVec.ofNat 16 i) = word := by
  obtain ⟨hi, hget⟩ := List.getElem?_eq_some_iff.mp hword
  have haddress : start + BitVec.ofNat 16 i = BitVec.ofNat 16 (start.toNat + i) := by
    rw [BitVec.ofNat_add, BitVec.ofNat_toNat, BitVec.setWidth_eq]
  rw [c.load_ordinary hordinary, haddress]
  show (lastWord _ start words).getD _ = word
  rw [lastWord_of_fits hfit hi, hget]
  rfl

/-- A word that nothing was loaded over. -/
theorem Computer.load_other {words : List Word} {start a : Word} (c : Computer ι)
    (hordinary : ∀ i < words.length, Ordinary (start + BitVec.ofNat 16 i))
    (hother : ∀ i < words.length, start + BitVec.ofNat 16 i ≠ a) :
    (c.load io start words).console.memory a = c.console.memory a := by
  rw [c.load_ordinary hordinary]
  show (lastWord a start words).getD _ = _
  rw [lastWord_eq_none hother]
  rfl

end Load

/-! ### Booting -/

section Booted

variable {ι : Type} {io : DeviceIo ι}

/-- A computer with the operating system and then a program in memory. -/
def booted (io : DeviceIo ι) (terminal : ι) (origin : Word) (words : List Word) : Computer ι :=
  ((((Computer.new terminal).load io 0 osWords).writeRegister .pc 0).load io origin
    words).writeRegister .pc origin

/-- Words that lie above the operating system and below the device registers. -/
structure InUserSpace (origin : Word) (words : List Word) : Prop where
  low : 0x22B ≤ origin.toNat
  high : origin.toNat + words.length ≤ 0xFE00

theorem InUserSpace.toNat_add {origin : Word} {words : List Word} (h : InUserSpace origin words)
    {i : ℕ} (hi : i < words.length) : (origin + BitVec.ofNat 16 i).toNat = origin.toNat + i := by
  have hhigh := h.high
  rw [BitVec.toNat_add, BitVec.toNat_ofNat]
  omega

/-- Addresses below the device registers. -/
theorem ordinary_of_lt {address : Word} (h : address.toNat < 0xFE00) : Ordinary address := by
  refine ⟨?_, ?_, ?_, ?_⟩ <;> rintro rfl <;> revert h <;> decide

theorem InUserSpace.free {origin : Word} {words : List Word} (h : InUserSpace origin words) :
    ∀ i < words.length, Free (origin + BitVec.ofNat 16 i) := fun i hi => by
  have hlow := h.low
  have htoNat := h.toNat_add hi
  refine ⟨?_, ?_⟩ <;> intro heq <;> rw [heq] at htoNat
  · rw [show saveR1.toNat = 0x229 from rfl] at htoNat
    omega
  · rw [show saveR2.toNat = 0x22A from rfl] at htoNat
    omega

theorem InUserSpace.ordinary {origin : Word} {words : List Word} (h : InUserSpace origin words) :
    ∀ i < words.length, Ordinary (origin + BitVec.ofNat 16 i) := fun i hi => by
  have hhigh := h.high
  refine ordinary_of_lt ?_
  rw [h.toNat_add hi]
  omega

theorem length_osWords : osWords.length = 0x22B := by decide +kernel

/-- The addresses of the operating system, counted from its origin. -/
theorem os_address (i : ℕ) : (0 : Word) + BitVec.ofNat 16 i = BitVec.ofNat 16 i :=
  BitVec.zero_add _

theorem os_toNat {i : ℕ} (hi : i < osWords.length) : (BitVec.ofNat 16 i).toNat = i := by
  rw [length_osWords] at hi
  rw [BitVec.toNat_ofNat]
  omega

theorem ordinary_os : ∀ i < osWords.length, Ordinary (0 + BitVec.ofNat 16 i) := fun i hi => by
  refine ordinary_of_lt ?_
  rw [os_address, os_toNat hi]
  exact hi.trans (by rw [length_osWords]; decide)

variable {terminal : ι} {origin : Word} {words : List Word}

/-- A word of the program. -/
theorem booted_word (h : InUserSpace origin words) {i : ℕ} {word : Word}
    (hword : words[i]? = some word) :
    (booted io terminal origin words).console.memory (origin + BitVec.ofNat 16 i) = word :=
  Computer.load_word _ h.ordinary (h.high.trans (by decide)) hword

/-- A word of the operating system. -/
theorem booted_osWord (h : InUserSpace origin words) {i : ℕ} {word : Word}
    (hword : osWords[i]? = some word) :
    (booted io terminal origin words).console.memory (BitVec.ofNat 16 i) = word := by
  have hlow := h.low
  obtain ⟨hi, -⟩ := List.getElem?_eq_some_iff.mp hword
  have hother : ∀ j < words.length, origin + BitVec.ofNat 16 j ≠ BitVec.ofNat 16 i := by
    intro j hj heq
    have htoNat := congrArg BitVec.toNat heq
    rw [h.toNat_add hj, os_toNat hi] at htoNat
    rw [length_osWords] at hi
    omega
  have hfit : (0 : Word).toNat + osWords.length ≤ 2 ^ 16 := by
    show 0 + osWords.length ≤ 65536
    rw [length_osWords]
    omega
  have hload : ((Computer.new terminal).load io 0 osWords).console.memory (BitVec.ofNat 16 i) =
      word := os_address i ▸ Computer.load_word _ ordinary_os hfit hword
  rw [booted, Computer.writeRegister_console, Computer.load_other _ h.ordinary hother,
    Computer.writeRegister_console, hload]

/-- The clock is still on. -/
theorem booted_clock (h : InUserSpace origin words) :
    (booted io terminal origin words).console.memory mcrAddr = 0x8000 := by
  have hhigh := h.high
  have hother : ∀ j < words.length, origin + BitVec.ofNat 16 j ≠ mcrAddr := by
    intro j hj heq
    have htoNat := congrArg BitVec.toNat heq
    rw [h.toNat_add hj, show mcrAddr.toNat = 0xFFFE from rfl] at htoNat
    omega
  have hother' : ∀ j < osWords.length, (0 : Word) + BitVec.ofNat 16 j ≠ mcrAddr := by
    intro j hj heq
    have htoNat := congrArg BitVec.toNat heq
    rw [os_address, os_toNat hj, show mcrAddr.toNat = 0xFFFE from rfl] at htoNat
    rw [length_osWords] at hj
    omega
  rw [booted, Computer.writeRegister_console, Computer.load_other _ h.ordinary hother,
    Computer.writeRegister_console, Computer.load_other _ ordinary_os hother']
  simp [Computer.new]

/-- Only memory and registers are not those of a new computer. -/
theorem booted_console (h : InUserSpace origin words) :
    (booted io terminal origin words).console = { (Computer.new terminal).console with
      memory := (booted io terminal origin words).console.memory } := by
  rw [booted, Computer.writeRegister_console, Computer.load_ordinary _ h.ordinary,
    Computer.writeRegister_console, Computer.load_ordinary _ ordinary_os]

/-- The task that a booted computer runs. -/
def bootedTask (io : DeviceIo ι) (terminal : ι) (origin : Word) (words : List Word)
    (printed : List Byte) : Task where
  registers := (booted io terminal origin words).cpu.registers
  memory := (booted io terminal origin words).console.memory
  display := displayInit
  printed

theorem booted_pc : (booted io terminal origin words).cpu.registers .pc = origin := by
  rw [booted, Computer.writeRegister_self]

theorem bootedTask_pc (printed : List Byte) :
    (bootedTask io terminal origin words printed).registers .pc = origin :=
  show (booted io terminal origin words).cpu.registers .pc = origin from booted_pc

theorem booted_lines : (booted io terminal origin words).cpu.LinesLow := by
  have hnew : (Computer.new terminal).cpu.LinesLow := ⟨rfl, rfl⟩
  have hload : ((Computer.new terminal).load io 0 osWords).cpu.LinesLow := by
    rw [Computer.load_cpu]
    exact hnew
  have hprogram : ((((Computer.new terminal).load io 0 osWords).writeRegister .pc 0).load io
      origin words).cpu.LinesLow := by
    rw [Computer.load_cpu]
    exact hload
  exact hprogram

theorem booted_silenced (h : InUserSpace origin words) :
    Silenced (booted io terminal origin words).console := by
  rw [booted_console h]
  exact ⟨rfl, show interruptEnableBitOn keyboardInit.kbsr = false by decide⟩

/-- **The operating system is ready.** -/
theorem booted_ready (h : InUserSpace origin words) (printed : List Byte) :
    (bootedTask io terminal origin words printed).Ready := by
  have hroutine : ∀ i : Fin 30, osWords[0x20B + i.val]? = some (osRoutines.get i) := by
    decide +kernel
  have hdsr : displayInit.dsr.msb = true := by decide
  refine ⟨?_, ⟨?_, ?_, ?_, ?_, fun i => ?_⟩, hdsr⟩
  · show clockEnabled ((booted io terminal origin words).console.memory mcrAddr) = true
    rw [booted_clock h]
    rfl
  · exact booted_osWord h (i := 0x20) (by decide +kernel)
  · exact booted_osWord h (i := 0x21) (by decide +kernel)
  · exact booted_osWord h (i := 0x22) (by decide +kernel)
  · exact booted_osWord h (i := 0x25) (by decide +kernel)
  · have haddress : getcRoutine + BitVec.ofNat 16 i.val = BitVec.ofNat 16 (0x20B + i.val) := by
      rw [BitVec.ofNat_add]
      rfl
    show (booted io terminal origin words).console.memory _ = _
    rw [haddress]
    exact booted_osWord h (hroutine i)

/-- A booted computer, once its terminal is open, runs its task. -/
theorem booted_seems (h : InUserSpace origin words) (transcript : Transcript io) :
    Seems transcript (bootedTask io terminal origin words (transcript.printed terminal))
      ((booted io terminal origin words).startIo io).2 := by
  refine ⟨rfl, booted_lines, rfl, ?_, ?_, booted_silenced h⟩
  · show (booted io terminal origin words).console.display = displayInit
    rw [booted_console h]
    rfl
  · show transcript.printed (io.ioStart (booted io terminal origin words).console.terminal).2 = _
    rw [transcript.ioStart, booted_console h]
    rfl

/-- **Booting**: the plugins in either order, the operating system, and then a program. -/
theorem boot_shows (libc : SortSearch BusAttachment) (io : DeviceIo ι) (terminal : ι)
    (origin : Word) (words : List Word) {devices : List DevicePtr}
    (hdevices : devices = [keyboardPtr, displayPtr] ∨ devices = [displayPtr, keyboardPtr]) :
    ∃ sim₀ sim, simulatorNew (pluginEnv libc io) pluginInit terminal = some sim₀ ∧
      run (runCommand (pluginEnv libc io)) (devices.map .attachDevice ++
          [.loadProgram (programWords osObj) 0,
            .loadProgram (programWords (fileBytes (origin :: words))) 0]) sim₀ =
        some ([some 0, some 0, some 0, some 0], sim) ∧
      Shows sim (booted io terminal origin words) := by
  obtain ⟨sim₀, sim₁, hnew, hattach, hshows₁⟩ := shows_attached libc io terminal hdevices
  have hbooted : run (fun command c => c.command io command)
      [.loadProgram (0 :: osWords) 0, .loadProgram (origin :: words) 0] (Computer.new terminal) =
        some ([some 0, some 0], booted io terminal origin words) := rfl
  obtain ⟨sim, hload, hshows⟩ := agree_eq_some (hbooted ▸ runCommands_shows libc io _ hshows₁)
  rw [osObj, programWords_fileBytes, programWords_fileBytes]
  exact ⟨sim₀, sim, hnew, run_append hattach hload, hshows⟩

end Booted

end Lc3Simulator

