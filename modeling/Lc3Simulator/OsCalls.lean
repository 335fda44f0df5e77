import Lc3Simulator.Boot

/-!
# Calling the operating system

A program calls OUT and PUTS by a TRAP instruction and goes on after it, with every register that
carries no result as it was, but for the return address in `R7`. This holds on the simulator with
its two plugins, in a run, where anything may be typed meanwhile, and in a step.

## Main definitions

* `Called` — what a call leaves to the program
* `greeting` — a program that prints a string and halts
* `recordingIo` — a terminal that keeps what is printed

## Main results

* `trap_out`, `trap_puts`, `trap_halt` — the calls on a task
* `out_prints`, `puts_prints` — the calls on the simulator
* `greeting_prints` — a program from the start of the simulator to its end
-/

namespace Lc3Simulator

open Interaction Isa Progress Transition

/-- What a call leaves to the program that made it. -/
structure Called (t : Task) (changed : List Lc3Reg) (text : List Byte) (t' : Task) : Prop where
  pc : t'.registers .pc = t.registers .pc + 1
  link : t'.registers .r7 = t.registers .pc + 1
  registers : ∀ r ∉ changed, r ∉ [Lc3Reg.r7, .pc, .psr] → t'.registers r = t.registers r
  status : t'.status = t.status
  memory : ∀ a, Free a → t'.memory a = t.memory a
  display : t'.display = t.display
  printed : t'.printed = t.printed ++ text

/-- The program is at a TRAP instruction. -/
structure Task.AtTrap (t : Task) (vector : BitVec 8) : Prop where
  ready : t.Ready
  ordinary : Ordinary (t.registers .pc)
  word : t.memory (t.registers .pc) = 0xF0#8 ++ vector

theorem Called.ready {t t' : Task} {changed : List Lc3Reg} {text : List Byte}
    (h : Called t changed text t') (hready : t.Ready) : t'.Ready :=
  hready.congr h.memory h.display

/-- A routine that was called returns after the TRAP. -/
theorem Returned.called {t t' : Task} {changed : List Lc3Reg} {text : List Byte} {target : Word}
    (h : Returned (t.link target) changed text t') (h7 : .r7 ∉ changed) :
    Called t changed text t' where
  pc := h.pc
  link := h.registers .r7 h7 (by decide) (by decide)
  registers r hr hcall := by
    simp only [List.mem_cons, List.not_mem_nil, or_false, not_or] at hcall
    rw [h.registers r hr hcall.2.1 hcall.2.2, Task.link_registers _ _ _ hcall.1 hcall.2.1]
  status := h.status
  memory := h.memory
  display := h.display
  printed := h.printed

section Task

variable {t : Task}

/-- The TRAP instruction goes to the routine. -/
theorem Task.AtTrap.step {vector : BitVec 8} (h : t.AtTrap vector)
    (hordinary : Ordinary (vector.setWidth 16)) :
    t.step = some (t.link (t.memory (vector.setWidth 16))) := by
  have hopcode : (0xF0#8 ++ vector : Word).extractLsb' 12 4 = 0b1111 := by
    rw [BitVec.extractLsb'_append_eq_ite]
    rfl
  have hvector : (0xF0#8 ++ vector : Word).extractLsb' 0 8 = vector :=
    BitVec.extractLsb'_append_eq_right
  refine Task.step_trap ⟨h.ready.clock, h.ordinary, h.word⟩ ?_ ?_ hordinary
  · rw [DataInstr.decode, hopcode]
    rfl
  · rw [ControlInstr.decode, hopcode, hvector]
    rfl

theorem trap_out (h : t.AtTrap 0x21) :
    Eventually Task.step (Called t [] [(t.registers .r0).setWidth 8]) t := by
  have hstep : t.step = some (t.link outRoutine) := h.ready.os.out ▸ h.step (by decide)
  have hready : (t.link outRoutine).Ready := h.ready.withRegisters _
  exact .later hstep ((out_returns hready rfl).mono fun t' h' => h'.called (List.not_mem_nil))

theorem trap_puts {string : List Word} (h : t.AtTrap 0x22)
    (htext : Text t.memory (t.registers .r0) string) :
    Eventually Task.step (fun t' => Called t [.r0] (lowBytes string) t' ∧
      t'.registers .r0 = t.registers .r0 + BitVec.ofNat 16 string.length) t := by
  have hstep : t.step = some (t.link putsRoutine) := h.ready.os.puts ▸ h.step (by decide)
  have hready : (t.link putsRoutine).Ready := h.ready.withRegisters _
  have hr0 : (t.link putsRoutine).registers .r0 = t.registers .r0 := by simp
  refine .later hstep ((puts_returns hready rfl (by rw [hr0]; exact htext)).mono fun t' h' => ?_)
  exact ⟨h'.1.called (by decide), h'.2.trans (by rw [hr0])⟩

theorem trap_halt (h : t.AtTrap 0x25) :
    Eventually Task.step (fun t' => ∃ t'', t'.tick = some (false, t'') ∧
      (∀ r ∉ [Lc3Reg.r0, .r7, .pc, .psr], t''.registers r = t.registers r) ∧
      t''.memory = Function.update t.memory mcrAddr 0 ∧ t''.printed = t.printed) t := by
  have hstep : t.step = some (t.link haltRoutine) := h.ready.os.halt ▸ h.step (by decide)
  have hready : (t.link haltRoutine).Ready := h.ready.withRegisters _
  refine .later hstep ((halt_stops hready rfl).mono ?_)
  rintro t' ⟨t'', htick, hhalted⟩
  refine ⟨t'', htick, fun r hr => ?_, hhalted.memory, hhalted.printed⟩
  simp only [List.mem_cons, List.not_mem_nil, or_false, not_or] at hr
  rw [hhalted.registers r (by simp [hr]), Task.link_registers _ _ _ hr.2.1 hr.2.2.1]

end Task

/-! ### A program that prints -/

/-- `LEA R0, string`, `PUTS`, `HALT`, and the string. -/
def greeting (string : List Word) : List Word := 0xE002 :: 0xF022 :: 0xF025 :: (string ++ [0])

/-- Words in memory that are a string. -/
theorem text_of_words {memory : Word → Word} {string : List Word} {address : Word}
    (hplace : ∀ i ≤ string.length, Ordinary (address + BitVec.ofNat 16 i) ∧
      Free (address + BitVec.ofNat 16 i))
    (hwords : ∀ i word, (string ++ [0])[i]? = some word →
      memory (address + BitVec.ofNat 16 i) = word)
    (hne : ∀ word ∈ string, word ≠ 0) : Text memory address string := by
  induction string generalizing address with
  | nil =>
    have hplace₀ := hplace 0 le_rfl
    have hword := hwords 0 0 rfl
    rw [BitVec.add_zero] at hplace₀ hword
    exact ⟨hplace₀.1, hplace₀.2, hword⟩
  | cons word rest ih =>
    have hplace₀ := hplace 0 (Nat.zero_le _)
    have hword := hwords 0 word rfl
    rw [BitVec.add_zero] at hplace₀ hword
    have hnext : ∀ i, address + BitVec.ofNat 16 (i + 1) = address + 1 + BitVec.ofNat 16 i := by
      intro i
      rw [Nat.add_comm, BitVec.ofNat_add, ← BitVec.add_assoc]
      rfl
    refine ⟨hplace₀.1, hplace₀.2, hword, hne word List.mem_cons_self, ih (fun i hi => ?_)
      (fun i w hw => ?_) fun w hw => hne w (List.mem_cons_of_mem _ hw)⟩
    · rw [← hnext]
      exact hplace (i + 1) (Nat.succ_le_succ hi)
    · rw [← hnext]
      exact hwords (i + 1) w hw

/-- A booted task that prints a string. -/
structure Greets (origin : Word) (string : List Word) (t : Task) : Prop where
  ready : t.Ready
  pc : t.registers .pc = origin
  words : ∀ i word, (greeting string)[i]? = some word →
    t.memory (origin + BitVec.ofNat 16 i) = word

theorem booted_greets {ι : Type} {io : DeviceIo ι} {terminal : ι} {origin : Word}
    {string : List Word} (h : InUserSpace origin (greeting string)) (printed : List Byte) :
    Greets origin string (bootedTask io terminal origin (greeting string) printed) :=
  ⟨booted_ready h printed, bootedTask_pc _, fun _ _ => booted_word h⟩

section Greets

variable {t : Task} {origin : Word} {string : List Word}

/-- The string of the program. -/
theorem Greets.text (hgreets : Greets origin string t) (h : InUserSpace origin (greeting string))
    (hne : ∀ word ∈ string, word ≠ 0) : Text t.memory (origin + 3) string := by
  have hlength : (greeting string).length = string.length + 4 := by simp [greeting]
  have hadd : ∀ i, origin + 3 + BitVec.ofNat 16 i = origin + BitVec.ofNat 16 (i + 3) := by
    intro i
    rw [Nat.add_comm, BitVec.ofNat_add, ← BitVec.add_assoc]
    rfl
  refine text_of_words (fun i hi => ?_) (fun i word hi => ?_) hne
  · rw [hadd]
    exact ⟨h.ordinary (i + 3) (by omega), h.free (i + 3) (by omega)⟩
  · rw [hadd]
    exact hgreets.words (i + 3) word hi

/-- The first instruction, LEA. -/
theorem Greets.step (hgreets : Greets origin string t) (h : InUserSpace origin (greeting string)) :
    t.step = some (t.result .r0 (origin + 3)) := by
  have hat : t.At 0xE002 := by
    refine ⟨hgreets.ready.clock, ?_, ?_⟩
    · rw [hgreets.pc, ← BitVec.add_zero origin]
      exact h.ordinary 0 (Nat.zero_lt_succ _)
    · rw [hgreets.pc, ← BitVec.add_zero origin]
      exact hgreets.words 0 _ rfl
  have hlea : DataInstr.decode 0xE002 = some (.lea 0 2) := by decide
  refine Task.step_lea hat hlea ?_
  rw [hgreets.pc, BitVec.add_assoc]
  rfl

/-- The second one, a call of PUTS. -/
theorem Greets.atTrap_puts (hgreets : Greets origin string t)
    (h : InUserSpace origin (greeting string)) : (t.result .r0 (origin + 3)).AtTrap 0x22 := by
  have hpc : (t.result .r0 (origin + 3)).registers .pc = origin + 1 := by simp [hgreets.pc]
  refine ⟨hgreets.ready.withRegisters _, ?_, ?_⟩
  · rw [hpc]
    exact h.ordinary 1 (Nat.succ_lt_succ (Nat.zero_lt_succ _))
  · rw [hpc, Task.result_memory]
    exact hgreets.words 1 _ rfl

/-- **The program prints its string and halts.** -/
theorem Greets.runs (hgreets : Greets origin string t) (h : InUserSpace origin (greeting string))
    (hne : ∀ word ∈ string, word ≠ 0) :
    Eventually Task.step (fun t' => ∃ t'', t'.tick = some (false, t'') ∧
      t''.printed = t.printed ++ lowBytes string) t := by
  have hlength : (greeting string).length = string.length + 4 := by simp [greeting]
  have htext : Text (t.result .r0 (origin + 3)).memory
      ((t.result .r0 (origin + 3)).registers .r0) string := by
    simpa using hgreets.text h hne
  have hputs := hgreets.atTrap_puts h
  refine .later (hgreets.step h) ((trap_puts hputs htext).trans ?_)
  rintro t₂ ⟨hcalled, -⟩
  have hhalt : t₂.AtTrap 0x25 := by
    have hpc₂ : t₂.registers .pc = origin + BitVec.ofNat 16 2 := by
      rw [hcalled.pc, Task.result_pc _ _ _ (by decide), hgreets.pc, BitVec.add_assoc]
      rfl
    refine ⟨hcalled.ready hputs.ready, ?_, ?_⟩
    · rw [hpc₂]
      exact h.ordinary 2 (by omega)
    · rw [hpc₂, hcalled.memory _ (h.free 2 (by omega)), Task.result_memory]
      exact hgreets.words 2 _ rfl
  refine (trap_halt hhalt).mono ?_
  rintro t₃ ⟨t₄, htick, -, -, hprinted⟩
  refine ⟨t₄, htick, ?_⟩
  rw [hprinted, hcalled.printed, Task.result_printed]

end Greets

/-! ### On the simulator -/

/-- A terminal that keeps what is printed, and where nothing is typed. -/
def recordingIo : DeviceIo (List Byte) where
  getChar s := (0, 0, s)
  writeChar output s := s ++ [output]
  ioStart s := (0, s)
  ioEnd s := (0, s)

def recording : Transcript recordingIo :=
  ⟨id, fun _ _ => rfl, fun _ => rfl, fun _ => rfl, fun _ => rfl⟩

section Simulator

variable {ι : Type} (libc : SortSearch BusAttachment) {io : DeviceIo ι} {transcript : Transcript io}
  {t : Task} {sim : Simulator PluginData ι}

/-- A program is not where a call leaves it before the call. -/
theorem not_called_self {changed : List Lc3Reg} {text : List Byte} : ¬ Called t changed text t := by
  intro h
  have hpc : t.registers .pc = t.registers .pc + 1 := h.pc
  bv_omega

/-- **OUT prints** the low byte of `R0`, in a run and in a step, whatever is typed meanwhile. -/
theorem out_prints (hruns : Runs transcript t sim) (hat : t.AtTrap 0x21) :
    (∃ n sim' t', runLoop (pluginEnv libc io) n sim = some (true, sim') ∧
      Runs transcript t' sim' ∧ Called t [] [(t.registers .r0).setWidth 8] t') ∧
    ∃ n sim' t', stepLoop (pluginEnv libc io) n none sim = some (some 1, sim') ∧
      Runs transcript t' sim' ∧ Called t [] [(t.registers .r0).setWidth 8] t' :=
  ⟨runLoop_of_eventually libc (trap_out hat) hruns,
    stepLoop_of_eventually libc (trap_out hat) not_called_self hruns⟩

theorem out_prints_recording : ∃ (sim : Simulator PluginData (List Byte)) (t : Task),
    (∃ n sim' t', runLoop (pluginEnv (SortSearch.bisecting _) recordingIo) n sim =
        some (true, sim') ∧
      Runs recording t' sim' ∧ Called t [] [(t.registers .r0).setWidth 8] t') ∧
    ∃ n sim' t', stepLoop (pluginEnv (SortSearch.bisecting _) recordingIo) n none sim =
        some (some 1, sim') ∧
      Runs recording t' sim' ∧ Called t [] [(t.registers .r0).setWidth 8] t' := by
  have huser : InUserSpace 0x3000 [0xF021] := ⟨by decide, by decide⟩
  obtain ⟨sim₀, sim, -, -, hshows⟩ :=
    boot_shows (SortSearch.bisecting _) recordingIo [] 0x3000 [0xF021] (Or.inl rfl)
  have hruns : Runs recording _ (startIo (pluginEnv (SortSearch.bisecting _) recordingIo) sim).2 :=
    ⟨_, (startIo_shows _ recordingIo hshows).2, booted_seems huser recording⟩
  have hat : (bootedTask recordingIo [] 0x3000 [0xF021] []).AtTrap 0x21 := by
    have hword : (booted recordingIo [] 0x3000 [0xF021]).console.memory
        (0x3000 + BitVec.ofNat 16 0) = 0xF021 := booted_word huser rfl
    refine ⟨booted_ready huser _, by rw [bootedTask_pc]; decide, ?_⟩
    rw [bootedTask_pc]
    exact hword
  exact ⟨_, _, out_prints _ hruns hat⟩

/-- **PUTS prints** the low bytes of the string at `R0` and leaves `R0` at its end, in a run and in
a step, whatever is typed meanwhile. -/
theorem puts_prints {string : List Word} (hruns : Runs transcript t sim) (hat : t.AtTrap 0x22)
    (htext : Text t.memory (t.registers .r0) string) :
    (∃ n sim' t', runLoop (pluginEnv libc io) n sim = some (true, sim') ∧
      Runs transcript t' sim' ∧ Called t [.r0] (lowBytes string) t' ∧
      t'.registers .r0 = t.registers .r0 + BitVec.ofNat 16 string.length) ∧
    ∃ n sim' t', stepLoop (pluginEnv libc io) n none sim = some (some 1, sim') ∧
      Runs transcript t' sim' ∧ Called t [.r0] (lowBytes string) t' ∧
      t'.registers .r0 = t.registers .r0 + BitVec.ofNat 16 string.length :=
  ⟨runLoop_of_eventually libc (trap_puts hat htext) hruns,
    stepLoop_of_eventually libc (trap_puts hat htext) (fun h => not_called_self h.1) hruns⟩

theorem puts_prints_recording : ∃ (sim : Simulator PluginData (List Byte)) (t : Task),
    (∃ n sim' t', runLoop (pluginEnv (SortSearch.bisecting _) recordingIo) n sim =
        some (true, sim') ∧
      Runs recording t' sim' ∧ Called t [.r0] [0x48, 0x69] t' ∧
      t'.registers .r0 = t.registers .r0 + 2) ∧
    ∃ n sim' t', stepLoop (pluginEnv (SortSearch.bisecting _) recordingIo) n none sim =
        some (some 1, sim') ∧
      Runs recording t' sim' ∧ Called t [.r0] [0x48, 0x69] t' ∧
      t'.registers .r0 = t.registers .r0 + 2 := by
  have huser : InUserSpace 0x3000 (greeting [0x48, 0x69]) := ⟨by decide, by decide⟩
  obtain ⟨sim₀, sim, -, -, hshows⟩ := boot_shows (SortSearch.bisecting _) recordingIo [] 0x3000
    (greeting [0x48, 0x69]) (Or.inl rfl)
  have hruns : Runs recording _ (startIo (pluginEnv (SortSearch.bisecting _) recordingIo) sim).2 :=
    ⟨_, (startIo_shows _ recordingIo hshows).2, booted_seems huser recording⟩
  have hgreets : Greets 0x3000 [0x48, 0x69]
      (bootedTask recordingIo [] 0x3000 (greeting [0x48, 0x69]) []) := booted_greets huser []
  -- after its first instruction, the program is at the call
  obtain ⟨n, sim', t', -, hruns', rfl⟩ := runLoop_of_eventually (SortSearch.bisecting _)
    (.later (hgreets.step huser) (.now rfl)) hruns
  have htext : Text _ _ [0x48, 0x69] := hgreets.text huser (forall_mem_pair (by decide) (by decide))
  exact ⟨sim', _, puts_prints _ hruns' (hgreets.atTrap_puts huser) (by simpa using htext)⟩

end Simulator

/-- **From the start to the end.** Attach the plugins, load `os.obj` and a program that prints a
string, and run. The run ends, and the terminal has the low bytes of the string, in order and once,
for any string of words other than 0 that fits, wherever it is loaded and whatever is typed. -/
theorem greeting_prints {ι : Type} (libc : SortSearch BusAttachment) {io : DeviceIo ι}
    (transcript : Transcript io) (terminal : ι) {devices : List DevicePtr} {origin : Word}
    {string : List Word}
    (hdevices : devices = [keyboardPtr, displayPtr] ∨ devices = [displayPtr, keyboardPtr])
    (h : InUserSpace origin (greeting string)) (hne : ∀ word ∈ string, word ≠ 0)
    (hstart : ∀ s, 0 ≤ (io.ioStart s).1) (hend : ∀ s, 0 ≤ (io.ioEnd s).1) :
    ∃ sim₀ n sim', simulatorNew (pluginEnv libc io) pluginInit terminal = some sim₀ ∧
      run (runCommand (pluginEnv libc io)) (devices.map .attachDevice ++
          [.loadProgram (programWords osObj) 0,
            .loadProgram (programWords (fileBytes (origin :: greeting string))) 0] ++
          [.runUntilEnd n]) sim₀ =
        some ([some 0, some 0, some 0, some 0, some 0], sim') ∧
      transcript.printed sim'.machine.deviceIo =
        transcript.printed terminal ++ lowBytes string := by
  obtain ⟨sim₀, sim, hnew, hboot, hshows⟩ :=
    boot_shows libc io terminal origin (greeting string) hdevices
  have hruns : Runs transcript _ (startIo (pluginEnv libc io) sim).2 :=
    ⟨_, (startIo_shows libc io hshows).2, booted_seems h transcript⟩
  obtain ⟨n, sim', t', hloop, hruns', hprinted⟩ :=
    runLoop_ends libc ((booted_greets h _).runs h hne) hruns
  have hstatus : ¬ (startIo (pluginEnv libc io) sim).1 < 0 := not_lt.mpr (hstart _)
  have hstatus' : ¬ (endIo (pluginEnv libc io) sim').1 < 0 := not_lt.mpr (hend _)
  have hrun : run (runCommand (pluginEnv libc io)) [.runUntilEnd n] sim =
      some ([some 0], (endIo (pluginEnv libc io) sim').2) := by
    rw [run_cons, runCommand, simulatorRunUntilEnd]
    simp [hstatus, hloop, hstatus']
  refine ⟨sim₀, n, (endIo (pluginEnv libc io) sim').2, hnew, run_append hboot hrun, ?_⟩
  show transcript.printed (io.ioEnd sim'.machine.deviceIo).2 = _
  rw [transcript.ioEnd, hruns'.printed_eq, hprinted]
  rfl

theorem greeting_prints_recording : ∃ sim₀ n sim',
    simulatorNew (pluginEnv (SortSearch.bisecting _) recordingIo) pluginInit [] = some sim₀ ∧
    run (runCommand (pluginEnv (SortSearch.bisecting _) recordingIo))
        ([keyboardPtr, displayPtr].map .attachDevice ++
          [.loadProgram (programWords osObj) 0,
            .loadProgram (programWords (fileBytes (0x3000 :: greeting [0x48, 0x69]))) 0] ++
          [.runUntilEnd n]) sim₀ =
      some ([some 0, some 0, some 0, some 0, some 0], sim') ∧
    sim'.machine.deviceIo = [0x48, 0x69] :=
  greeting_prints _ recording [] (Or.inl rfl) ⟨by decide, by decide⟩
    (forall_mem_pair (by decide) (by decide)) (fun _ => le_rfl) fun _ => le_rfl

end Lc3Simulator
