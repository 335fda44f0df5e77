import Lc3Simulator.CommandEffects
import Lc3Simulator.Library.Lines
import Lc3Simulator.ListCapacity
import Lc3Simulator.TerminalCalls
import Mathlib.Data.List.Induction

/-!
# The loop of the user interface

The rest of `user_interface.c`: reading what the user enters, and `ui_loop`, which carries it out
until the user quits or something goes wrong. What the user enters comes in chunks of at most 99
characters, of which each is taken for a command. Its tokens are put into a list that has place for
five and does not grow.

What a command asks of the simulator can be read off its tokens: `uiCommands` says which `Command`s
they are. So a session is a run of commands, with a call of `fgets` before each of its rounds. The
converse fails in one respect: a session ends at the first command that reports an error.

The standard input is the descriptor that the terminal reads as well. A program that runs takes
characters from it, and starting and ending the terminal throws away what was typed ahead. So what
is left for the next call of `fgets` is a matter of the terminal.

## Main definitions

* `Stdin`, `getUserInput`, `uiLoop` — the functions of the source, and what `fgets` does
* `attachDevices`, `uiStart` — `attach_devices` and `start`, for the devices that are found
* `uiCommands` — the commands that some tokens ask for
* `NoError`, `StopsAtError` — no command reports an error, or only the last one does
* `uiSession`, `SessionRuns` — a session without its list of tokens, and as runs of commands

## Main results

* `executeCommand_runs` — one command
* `uiSession_runs`, `uiStart_runs` — a session, and the whole program
-/

namespace Lc3Simulator

open Transition

variable {ω ι : Type}

/-! ### The source -/

/-- `MAX_COMMAND_STR_SIZE`. -/
def maxCommandStrSize : ℕ := 100

/-- What `get_user_input` prints first. -/
def uiPrompt : String := "\ncommand> "

/-- The C string in a buffer ends at the first null. -/
def bufferString (buffer : List Char) : String :=
  String.ofList (buffer.takeWhile (· ≠ Char.ofNat 0))

/-- The standard input: what `fgets(buffer, size, stdin)` puts in the buffer, or `none` if it
returns `NULL`. The terminal reads the same descriptor, so that what is left to read is a matter of
the state of the terminal. -/
structure Stdin (ι : Type) where
  fgets : ℕ → ι → Option (List Char) × ι

/-- `get_user_input`: the string in the buffer, if there is one. -/
def getUserInput (stdin : Stdin ι) (sim : Simulator ω ι) : Option String × Simulator ω ι :=
  let (line, deviceIo) := stdin.fgets maxCommandStrSize sim.machine.deviceIo
  (line.map bufferString, { sim with machine := { sim.machine with deviceIo } })

/-- The elements of a list, as `list_get` returns them. -/
def CList.elements {α : Type} (list : CList α) : List α :=
  (List.range list.numElements).filterMap fun index => (list.get index).join

/-- The loop of `ui_loop`, up to the given number of prompts, with what it returns if it is over,
what is printed, and the simulator. A run that needs more than `n` rounds does not come back. -/
def uiLoop (env : Env ω ι) (stdin : Stdin ι) (files : FileSystem) (al : ListAllocator) (n : ℕ) :
    ℕ → CList String → Simulator ω ι → Option (Option ℤ × List String × Simulator ω ι)
  | 0, _, sim => some (none, [], sim)
  | prompts + 1, inputTokens, sim =>
    match getUserInput stdin sim with
    | (none, sim) => some (some (-1), [uiPrompt], sim)
    | (some input, sim) => do
      let inputTokens ← tokenizeInput al input inputTokens
      let (status, output, sim) ← executeCommand env files n inputTokens.elements sim
      match status with
      | .done => some (some 0, uiPrompt :: output, sim)
      | .error => some (some (-1), uiPrompt :: output, sim)
      | .continued => do
        let (result, rest, sim) ← uiLoop env stdin files al n prompts inputTokens.clear sim
        return (result, uiPrompt :: output ++ rest, sim)

/-- The commands that some tokens ask for. -/
def uiCommands (files : FileSystem) (n : ℕ) (tokens : List String) : List Command :=
  match tokens.head? with
  | some "step" => (uiStepGetAmt tokens).toList.map .step
  | some "run" => if tokens.length = 1 then [.runUntilEnd n] else []
  | some "mem" =>
    match uiMemGetMode tokens, uiMemGetAddresses tokens .write, uiMemGetWriteVal tokens with
    | some .write, some (low, high), some writeVal =>
      (addressRange low high).map fun address => .writeAddress address writeVal
    | _, _, _ => []
  | some "reg" =>
    match uiRegGetMode tokens, uiRegGetVal tokens, uiRegGetDst tokens with
    | some .write, some val, some regDst => [.writeRegister regDst val]
    | _, _, _ => []
  | some "load" =>
    match (uiGetToken tokens uiLoadFilenameIndex).map files.openFile with
    | some (.opened file) =>
      [.loadProgram (programWords file.bytes) (if file.readError then -1 else 0)]
    | _ => []
  | some "input" => (uiInputGetVal tokens).toList.map .updateDevicesInput
  | _ => []

/-- No command that starts the terminal reports an error. -/
def NoError : List Command → List (Option ℤ) → Prop
  | command :: commands, out :: outs =>
    (command.Runs → out ≠ some (-1)) ∧ NoError commands outs
  | _, _ => True

/-- A command that starts the terminal and reports an error is the last one. -/
def StopsAtError : List Command → List (Option ℤ) → Prop
  | command :: commands, out :: outs =>
    (command.Runs → out = some (-1) → commands = []) ∧ StopsAtError commands outs
  | _, _ => True

theorem NoError.stopsAtError {commands : List Command} {outs : List (Option ℤ)}
    (h : NoError commands outs) : StopsAtError commands outs := by
  induction commands generalizing outs with
  | nil => trivial
  | cons command commands ih =>
    cases outs with
    | nil => trivial
    | cons out outs => exact ⟨fun hruns hout => absurd hout (h.1 hruns), ih h.2⟩

theorem NoError.append {commands commands' : List Command} {outs outs' : List (Option ℤ)}
    (h : NoError commands outs) (hlength : outs.length = commands.length)
    (h' : StopsAtError commands' outs') :
    StopsAtError (commands ++ commands') (outs ++ outs') := by
  induction commands generalizing outs with
  | nil =>
    obtain rfl := List.length_eq_zero_iff.mp hlength
    exact h'
  | cons command commands ih =>
    cases outs with
    | nil => cases hlength
    | cons out outs =>
      exact ⟨fun hruns hout => absurd hout (h.1 hruns), ih h.2 (Nat.succ.inj hlength)⟩

theorem noError_append {commands commands' : List Command} {outs outs' : List (Option ℤ)}
    (hlength : outs.length = commands.length) :
    NoError (commands ++ commands') (outs ++ outs') ↔
      NoError commands outs ∧ NoError commands' outs' := by
  induction commands generalizing outs with
  | nil =>
    obtain rfl := List.length_eq_zero_iff.mp hlength
    exact (and_iff_right trivial).symm
  | cons command commands ih =>
    cases outs with
    | nil => cases hlength
    | cons out outs => exact (and_congr_right' (ih (Nat.succ.inj hlength))).trans and_assoc.symm

theorem noError_of_not_runs {commands : List Command} (h : ∀ c ∈ commands, ¬ c.Runs)
    (outs : List (Option ℤ)) : NoError commands outs := by
  induction commands generalizing outs with
  | nil => trivial
  | cons command commands ih =>
    rw [List.forall_mem_cons] at h
    cases outs with
    | nil => trivial
    | cons out outs => exact ⟨fun hruns => absurd hruns h.1, ih h.2 outs⟩

/-! ### One command -/

section Commands

variable {env : Env ω ι} {files : FileSystem} {n : ℕ} {tokens : List String}
  {sim sim' : Simulator ω ι} {status : UiStatus} {output : List String} {commands : List Command}

/-- The commands are carried out, and the status says whether one has reported an error. -/
def CarriedOut (env : Env ω ι) (commands : List Command) (status : UiStatus)
    (sim sim' : Simulator ω ι) : Prop :=
  ∃ outs, run (runCommand env) commands sim = some (outs, sim') ∧ StopsAtError commands outs ∧
    (NoError commands outs ↔ status ≠ .error)

theorem CarriedOut.nil (hstatus : status ≠ .error) : CarriedOut env [] status sim sim :=
  ⟨[], rfl, trivial, iff_of_true trivial hstatus⟩

theorem CarriedOut.single (command : Command) {out : Option ℤ}
    (h : runCommand env command sim = some (out, sim'))
    (hstatus : (command.Runs → out ≠ some (-1)) ↔ status ≠ .error) :
    CarriedOut env [command] status sim sim' := by
  refine ⟨[out], ?_, ⟨fun _ _ => rfl, trivial⟩, ?_⟩
  · rw [run_cons, h]
    rfl
  · rw [← hstatus]
    exact and_iff_left trivial

/-- What only prints asks for nothing. -/
theorem carriedOut_printed {output output' : List String}
    (h : printed output' sim = some (status, output, sim')) :
    CarriedOut env [] status sim sim' := by
  obtain ⟨rfl, hsim⟩ := Prod.mk.inj (Option.some.inj h)
  obtain ⟨-, rfl⟩ := Prod.mk.inj hsim
  exact CarriedOut.nil (by decide)

theorem stepLoop_status {tickStatus tickStatus' : Option ℤ}
    (h : stepLoop env n tickStatus sim = some (tickStatus', sim')) :
    tickStatus' = tickStatus ∨ tickStatus' = some 0 ∨ tickStatus' = some 1 := by
  induction n generalizing sim tickStatus with
  | zero =>
    obtain ⟨rfl, -⟩ := Prod.mk.inj (Option.some.inj h)
    exact Or.inl rfl
  | succ n ih =>
    obtain ⟨⟨running, sim₁⟩, -, hrest⟩ := Option.bind_eq_some_iff.mp h
    cases running with
    | false =>
      obtain ⟨rfl, -⟩ := Prod.mk.inj (Option.some.inj hrest)
      exact Or.inr (Or.inl rfl)
    | true =>
      rcases ih hrest with rfl | hstatus
      · exact Or.inr (Or.inr rfl)
      · exact Or.inr hstatus

/-- The only negative status of a step is -1. -/
theorem simulatorStep_status {amt stepStatus : ℤ}
    (h : simulatorStep env amt sim = some (some stepStatus, sim')) :
    stepStatus < 0 ↔ stepStatus = -1 := by
  simp only [simulatorStep] at h
  by_cases hstart : (startIo env sim).1 < 0
  · rw [if_pos hstart] at h
    obtain ⟨hstatus, -⟩ := Prod.mk.inj (Option.some.inj h)
    obtain rfl := Option.some.inj hstatus
    decide
  · rw [if_neg hstart] at h
    obtain ⟨⟨tickStatus, sim₁⟩, hloop, hend⟩ := Option.bind_eq_some_iff.mp h
    obtain ⟨hstatus, -⟩ := Prod.mk.inj (Option.some.inj hend)
    split_ifs at hstatus
    · obtain rfl := Option.some.inj hstatus
      decide
    · rcases stepLoop_status hloop with hnone | hzero | hone
      · exact absurd (hstatus.symm.trans hnone) (by simp)
      · obtain rfl := Option.some.inj (hstatus.symm.trans hzero)
        decide
      · obtain rfl := Option.some.inj (hstatus.symm.trans hone)
        decide

/-- The only negative status of a run is -1. -/
theorem simulatorRunUntilEnd_status {runStatus : ℤ}
    (h : simulatorRunUntilEnd env n sim = some (runStatus, sim')) :
    runStatus < 0 ↔ runStatus = -1 := by
  simp only [simulatorRunUntilEnd] at h
  by_cases hstart : (startIo env sim).1 < 0
  · rw [if_pos hstart] at h
    obtain ⟨rfl, -⟩ := Prod.mk.inj (Option.some.inj h)
    decide
  · rw [if_neg hstart] at h
    obtain ⟨⟨running, sim₁⟩, -, hrest⟩ := Option.bind_eq_some_iff.mp h
    obtain ⟨_, -, hend⟩ := Option.bind_eq_some_iff.mp hrest
    obtain ⟨rfl, -⟩ := Prod.mk.inj (Option.some.inj hend)
    split_ifs <;> decide

/-- The user interface reports an error exactly if the status is -1. -/
theorem reports_iff {command : Command} (hruns : command.Runs) {result : ℤ}
    (hresult : result < 0 ↔ result = -1) :
    (command.Runs → some result ≠ some (-1)) ↔
      (if result < 0 then UiStatus.error else UiStatus.continued) ≠ .error := by
  by_cases hneg : result < 0
  · rw [if_pos hneg, hresult.mp hneg]
    simp [hruns]
  · have hne : result ≠ -1 := fun h => hneg (hresult.mpr h)
    rw [if_neg hneg]
    simp [hne]

theorem uiStep_runs (h : uiStep env tokens sim = some (status, output, sim')) :
    CarriedOut env ((uiStepGetAmt tokens).toList.map .step) status sim sim' := by
  rw [uiStep] at h
  cases hamt : uiStepGetAmt tokens with
  | none =>
    rw [hamt] at h
    exact carriedOut_printed h
  | some amt =>
    rw [hamt] at h
    obtain ⟨⟨stepStatus, sim₁⟩, hstep, hrest⟩ := Option.bind_eq_some_iff.mp h
    obtain ⟨stepped, hstatus, hend⟩ := Option.bind_eq_some_iff.mp hrest
    obtain ⟨rfl, hsim⟩ := Prod.mk.inj (Option.some.inj hend)
    obtain ⟨-, rfl⟩ := Prod.mk.inj hsim
    obtain rfl : stepStatus = some stepped := hstatus
    exact CarriedOut.single (.step amt) hstep
      (reports_iff (show (Command.step amt).Runs from trivial) (simulatorStep_status hstep))

theorem uiRun_runs (h : uiRun env n tokens sim = some (status, output, sim')) :
    CarriedOut env (if tokens.length = 1 then [.runUntilEnd n] else []) status sim sim' := by
  rw [uiRun] at h
  by_cases hlength : tokens.length = 1
  · rw [if_pos hlength] at h ⊢
    obtain ⟨⟨runStatus, sim₁⟩, hrun, hend⟩ := Option.bind_eq_some_iff.mp h
    obtain ⟨rfl, hsim⟩ := Prod.mk.inj (Option.some.inj hend)
    obtain ⟨-, rfl⟩ := Prod.mk.inj hsim
    exact CarriedOut.single (.runUntilEnd n)
      (Option.map_eq_some_iff.mpr ⟨_, hrun, rfl⟩)
      (reports_iff (show (Command.runUntilEnd n).Runs from trivial)
        (simulatorRunUntilEnd_status hrun))
  · rw [if_neg hlength] at h ⊢
    exact carriedOut_printed h

/-- Commands that do not start the terminal report no error. -/
theorem CarriedOut.of_not_runs {outs : List (Option ℤ)}
    (h : run (runCommand env) commands sim = some (outs, sim'))
    (hnot : ∀ command ∈ commands, ¬ command.Runs) (hstatus : status ≠ .error) :
    CarriedOut env commands status sim sim' :=
  have hnone : NoError commands outs := noError_of_not_runs hnot outs
  ⟨outs, h, hnone.stopsAtError, iff_of_true hnone hstatus⟩

/-- A write to some addresses is a command for each of them. -/
theorem writeAddresses_runs {addresses : List Word} {value : Word}
    (h : addresses.foldlM (fun sim address => simulatorWriteAddress env sim address value) sim =
      some sim') :
    ∃ outs, run (runCommand env) (addresses.map fun address => .writeAddress address value) sim =
      some (outs, sim') := by
  have hstep (sim : Simulator ω ι) (address : Word) :
      (runCommand env (.writeAddress address value) sim).map Prod.snd =
        simulatorWriteAddress env sim address value := by
    rw [runCommand, Option.map_map]
    exact Option.map_id_apply
  have hrun : (run (runCommand env) (addresses.map fun address => .writeAddress address value)
      sim).map Prod.snd = _ := run_map_snd _ sim
  rw [List.foldlM_map] at hrun
  simp only [hstep] at hrun
  rw [h] at hrun
  obtain ⟨⟨outs, sim₁⟩, hruns, rfl⟩ := Option.map_eq_some_iff.mp hrun
  exact ⟨outs, hruns⟩

theorem uiMem_runs (h : uiMem env tokens sim = some (status, output, sim')) :
    CarriedOut env
      (match uiMemGetMode tokens, uiMemGetAddresses tokens .write, uiMemGetWriteVal tokens with
        | some .write, some (low, high), some writeVal =>
          (addressRange low high).map fun address => .writeAddress address writeVal
        | _, _, _ => []) status sim sim' := by
  rw [uiMem] at h
  cases hmode : uiMemGetMode tokens with
  | none =>
    rw [hmode] at h
    exact carriedOut_printed h
  | some mode =>
    rw [hmode] at h
    cases mode with
    | read =>
      cases haddresses : uiMemGetAddresses tokens .read with
      | none =>
        simp only [haddresses] at h
        exact carriedOut_printed h
      | some range =>
        simp only [haddresses, uiMemPrint_eq, Option.bind_some] at h
        exact carriedOut_printed h
    | write =>
      cases haddresses : uiMemGetAddresses tokens .write with
      | none =>
        simp only [haddresses] at h
        exact carriedOut_printed h
      | some range =>
        obtain ⟨low, high⟩ := range
        cases hvalue : uiMemGetWriteVal tokens with
        | none =>
          simp only [haddresses, hvalue] at h
          exact carriedOut_printed h
        | some value =>
          simp only [haddresses, hvalue, uiMemWrite_eq] at h
          obtain ⟨sim₁, hwrite, hend⟩ := Option.bind_eq_some_iff.mp h
          obtain ⟨rfl, hsim⟩ := Prod.mk.inj (Option.some.inj hend)
          obtain ⟨-, rfl⟩ := Prod.mk.inj hsim
          obtain ⟨outs, hrun⟩ := writeAddresses_runs hwrite
          refine CarriedOut.of_not_runs hrun (fun command hcommand => ?_) (by decide)
          obtain ⟨_, -, rfl⟩ := List.mem_map.mp hcommand
          exact id

theorem uiReg_runs (h : uiReg tokens sim = some (status, output, sim')) :
    CarriedOut env
      (match uiRegGetMode tokens, uiRegGetVal tokens, uiRegGetDst tokens with
        | some .write, some val, some regDst => [.writeRegister regDst val]
        | _, _, _ => []) status sim sim' := by
  rw [uiReg] at h
  cases hmode : uiRegGetMode tokens with
  | none =>
    rw [hmode] at h
    exact carriedOut_printed h
  | some mode =>
    rw [hmode] at h
    cases mode with
    | read => exact carriedOut_printed h
    | write =>
      cases hvalue : uiRegGetVal tokens with
      | none =>
        simp only [hvalue] at h
        exact carriedOut_printed h
      | some val =>
        cases hdst : uiRegGetDst tokens with
        | none =>
          simp only [hvalue, hdst] at h
          exact carriedOut_printed h
        | some regDst =>
          simp only [hvalue, hdst] at h
          obtain ⟨rfl, hsim⟩ := Prod.mk.inj (Option.some.inj h)
          obtain ⟨-, rfl⟩ := Prod.mk.inj hsim
          exact CarriedOut.single (.writeRegister regDst val) rfl (by simp)

theorem uiLoad_runs (h : uiLoad env files tokens sim = some (status, output, sim')) :
    CarriedOut env
      (match (uiGetToken tokens uiLoadFilenameIndex).map files.openFile with
        | some (.opened file) =>
          [.loadProgram (programWords file.bytes) (if file.readError then -1 else 0)]
        | _ => []) status sim sim' := by
  rw [uiLoad] at h
  cases hfilename : uiGetToken tokens uiLoadFilenameIndex with
  | none =>
    rw [hfilename] at h
    exact carriedOut_printed h
  | some filename =>
    rw [hfilename] at h
    cases hopen : files.openFile filename with
    | noMemory =>
      simp only [hopen] at h
      cases h
    | refused text =>
      simp only [hopen, Option.map_some] at h ⊢
      exact carriedOut_printed h
    | opened file =>
      simp only [hopen, Option.map_some] at h ⊢
      obtain ⟨⟨loadStatus, sim₁⟩, hload, hend⟩ := Option.bind_eq_some_iff.mp h
      have hsame : status ≠ .error ∧ sim' = sim₁ := by
        dsimp only at hend
        split at hend
        · obtain ⟨rfl, hsim⟩ := Prod.mk.inj (Option.some.inj hend)
          exact ⟨by decide, (Prod.mk.inj hsim).2.symm⟩
        · obtain ⟨rfl, hsim⟩ := Prod.mk.inj (Option.some.inj hend)
          exact ⟨by decide, (Prod.mk.inj hsim).2.symm⟩
      obtain ⟨hstatus, rfl⟩ := hsame
      exact CarriedOut.single (.loadProgram _ _)
        (Option.map_eq_some_iff.mpr ⟨_, hload, rfl⟩) (iff_of_true (fun h => h.elim) hstatus)

theorem uiInput_runs (h : uiInput env tokens sim = some (status, output, sim')) :
    CarriedOut env ((uiInputGetVal tokens).toList.map .updateDevicesInput) status sim sim' := by
  rw [uiInput] at h
  cases hvalue : uiInputGetVal tokens with
  | none =>
    rw [hvalue] at h
    exact carriedOut_printed h
  | some input =>
    rw [hvalue] at h
    obtain ⟨sim₁, hinput, hend⟩ := Option.bind_eq_some_iff.mp h
    obtain ⟨rfl, hsim⟩ := Prod.mk.inj (Option.some.inj hend)
    obtain ⟨-, rfl⟩ := Prod.mk.inj hsim
    exact CarriedOut.single (.updateDevicesInput input)
      (Option.map_eq_some_iff.mpr ⟨_, hinput, rfl⟩) (iff_of_true (fun h => h.elim) (by decide))

/-- **A command does what its tokens ask for.** -/
theorem executeCommand_runs (h : executeCommand env files n tokens sim =
    some (status, output, sim')) :
    CarriedOut env (uiCommands files n tokens) status sim sim' := by
  cases tokens with
  | nil => exact carriedOut_printed h
  | cons command args =>
    by_cases hstep : command = "step"
    · subst hstep
      exact uiStep_runs h
    by_cases hrun : command = "run"
    · subst hrun
      exact uiRun_runs h
    by_cases hmem : command = "mem"
    · subst hmem
      exact uiMem_runs h
    by_cases hreg : command = "reg"
    · subst hreg
      exact uiReg_runs h
    by_cases hload : command = "load"
    · subst hload
      exact uiLoad_runs h
    by_cases hinput : command = "input"
    · subst hinput
      exact uiInput_runs h
    have hnothing : uiCommands files n (command :: args) = [] := by
      simp [uiCommands, hstep, hrun, hmem, hreg, hload, hinput]
    rw [hnothing]
    by_cases hquit : command = "quit"
    · subst hquit
      obtain ⟨rfl, hsim⟩ := Prod.mk.inj (Option.some.inj h)
      obtain ⟨-, rfl⟩ := Prod.mk.inj hsim
      exact CarriedOut.nil (by decide)
    by_cases hhelp : command = "help"
    · subst hhelp
      exact carriedOut_printed h
    · have hfunc : getCommandFunc env files n command = none :=
        getCommandFunc_eq_none env files n hmem hreg hhelp
          (by simp [runningCommands, hstep, hrun, hload, hinput, hquit])
      rw [executeCommand, hfunc] at h
      exact carriedOut_printed h

theorem status_of_printed {output output' : List String}
    (h : printed output' sim = some (status, output, sim')) : status ≠ .done := by
  obtain ⟨rfl, -⟩ := Prod.mk.inj (Option.some.inj h)
  decide

/-- Only quitting ends a session without an error. -/
theorem executeCommand_done_iff (h : executeCommand env files n tokens sim =
    some (status, output, sim')) : status = .done ↔ tokens.head? = some "quit" := by
  cases tokens with
  | nil => exact iff_of_false (status_of_printed h) (by simp)
  | cons command args =>
    by_cases hquit : command = "quit"
    · subst hquit
      obtain ⟨rfl, -⟩ := Prod.mk.inj (Option.some.inj h)
      exact iff_of_true rfl rfl
    refine iff_of_false ?_ (by simpa using hquit)
    by_cases hstep : command = "step"
    · subst hstep
      have hcommand : uiStep env ("step" :: args) sim = some (status, output, sim') := h
      rw [uiStep] at hcommand
      cases hamt : uiStepGetAmt ("step" :: args) with
      | none =>
        rw [hamt] at hcommand
        exact status_of_printed hcommand
      | some amt =>
        rw [hamt] at hcommand
        obtain ⟨⟨stepStatus, sim₁⟩, -, hrest⟩ := Option.bind_eq_some_iff.mp hcommand
        obtain ⟨stepped, -, hend⟩ := Option.bind_eq_some_iff.mp hrest
        obtain ⟨rfl, -⟩ := Prod.mk.inj (Option.some.inj hend)
        split_ifs <;> decide
    by_cases hrun : command = "run"
    · subst hrun
      have hcommand : uiRun env n ("run" :: args) sim = some (status, output, sim') := h
      rw [uiRun] at hcommand
      split at hcommand
      · obtain ⟨⟨runStatus, sim₁⟩, -, hend⟩ := Option.bind_eq_some_iff.mp hcommand
        obtain ⟨rfl, -⟩ := Prod.mk.inj (Option.some.inj hend)
        split_ifs <;> decide
      · exact status_of_printed hcommand
    by_cases hload : command = "load"
    · subst hload
      have hcommand : uiLoad env files ("load" :: args) sim = some (status, output, sim') := h
      rw [uiLoad] at hcommand
      split at hcommand
      · exact status_of_printed hcommand
      · split at hcommand
        · cases hcommand
        · exact status_of_printed hcommand
        · obtain ⟨⟨loadStatus, sim₁⟩, -, hend⟩ := Option.bind_eq_some_iff.mp hcommand
          dsimp only at hend
          split at hend <;> exact status_of_printed hend
    by_cases hinput : command = "input"
    · subst hinput
      have hcommand : uiInput env ("input" :: args) sim = some (status, output, sim') := h
      rw [uiInput] at hcommand
      split at hcommand
      · exact status_of_printed hcommand
      · obtain ⟨sim₁, -, hend⟩ := Option.bind_eq_some_iff.mp hcommand
        exact status_of_printed hend
    -- the others write all or nothing, and go on
    obtain ⟨write, -, hwrite⟩ | ⟨-, output', hnothing⟩ :=
      (executeCommand_effect env files n (command :: args) sim (by
        simp [runningCommands, hstep, hrun, hload, hinput, hquit])).1
    · obtain ⟨sim₁, -, hcontinued⟩ := Option.map_eq_some_iff.mp (hwrite.symm.trans h)
      obtain ⟨rfl, -⟩ := Prod.mk.inj hcontinued
      decide
    · rw [h] at hnothing
      obtain ⟨rfl, -⟩ := Prod.mk.inj (Option.some.inj hnothing)
      decide

end Commands

/-! ### The list of tokens -/

section Tokens

variable {al : ListAllocator} {list list' : CList String} {xs : List String}

theorem CList.elements_eq {α : Type} {list : CList α} {xs : List α} (h : list.Represents xs) :
    list.elements = xs := by
  have hget : (fun index => (list.get index).join) = fun index => xs[index]? := by
    funext index
    rw [CList.get_eq h]
    cases xs[index]? <;> rfl
  rw [CList.elements, hget, h.numElements]
  clear hget h
  induction xs using List.reverseRecOn with
  | nil => rfl
  | append_singleton xs x ih =>
    rw [List.length_append, List.length_singleton, List.range_succ, List.filterMap_append]
    have hfront : (List.range xs.length).filterMap (fun index => (xs ++ [x])[index]?) =
        (List.range xs.length).filterMap fun index => xs[index]? := by
      refine List.filterMap_congr fun index hindex => ?_
      rw [List.getElem?_append_left (List.mem_range.mp hindex)]
    rw [hfront, ih]
    simp

/-- The list of tokens between two commands. -/
def TokenList (list : CList String) (xs : List String) : Prop :=
  Sized ListClient.inputTokens.initCapacity list xs ∧ list.expandMult = 1

theorem TokenList.clear (h : TokenList list xs) : TokenList list.clear [] :=
  ⟨⟨CList.clear_represents h.1.represents, h.1.init_pos, h.1.capacity⟩, h.2⟩

theorem TokenList.elements (h : TokenList list xs) : list.elements = xs :=
  CList.elements_eq h.1.represents

theorem newList_tokenList (h : ListClient.inputTokens.newList al = some list) :
    TokenList list [] := ListClient.newList_sized h

/-- **Up to five tokens find place**, and one more does not. -/
theorem tokens_added (hgrants : ∀ size, size < 2 ^ 63 → al.grants size = true)
    (h : TokenList list xs) (ys : List String) :
    (xs ++ ys).length ≤ ListClient.inputTokens.initCapacity ∧
      (∃ list', ys.foldlM (fun list y => (list.add al y).map Prod.snd) list = some list' ∧
        TokenList list' (xs ++ ys)) ∨
    ListClient.inputTokens.initCapacity < (xs ++ ys).length ∧
      ys.foldlM (fun list y => (list.add al y).map Prod.snd) list = none := by
  induction ys generalizing list xs with
  | nil =>
    rw [List.append_nil]
    exact Or.inl ⟨h.1.room.resolve_left (by rw [h.2]; decide), list, rfl, h⟩
  | cons y ys ih =>
    have hrealloc : ReallocSucceeds al (.add y) (list, xs) := fun _ _ _ =>
      h.1.represents.resize_same hgrants h.2
    by_cases hroom : (xs ++ [y]).length ≤ ListClient.inputTokens.initCapacity
    · obtain ⟨status, list₁, hadd, hsized, hmult⟩ :=
        listStep_represents h.1 hrealloc (Or.inr hroom)
      rw [List.foldlM_cons, show list.add al y = some (status, list₁) from hadd,
        ← List.singleton_append, ← List.append_assoc]
      exact ih ⟨hsized, hmult.trans h.2⟩
    · refine Or.inr ⟨?_, ?_⟩
      · rw [List.length_append, List.length_singleton] at hroom
        rw [List.length_append, List.length_cons]
        omega
      · rw [List.foldlM_cons, show list.add al y = none from
          listStep_stuck h.1 hrealloc h.2 (Nat.lt_of_not_le hroom)]
        rfl

end Tokens

/-! ### Sessions -/

section Sessions

variable (env : Env ω ι) (stdin : Stdin ι) (files : FileSystem) (n : ℕ)

/-- A session: the loop without the list of tokens. A command of more than five tokens does not come
back. -/
def uiSession : ℕ → Simulator ω ι → Option (Option ℤ × List String × Simulator ω ι)
  | 0, sim => some (none, [], sim)
  | prompts + 1, sim =>
    match getUserInput stdin sim with
    | (none, sim) => some (some (-1), [uiPrompt], sim)
    | (some input, sim) =>
      if (inputTokens input).length ≤ ListClient.inputTokens.initCapacity then do
        let (status, output, sim) ← executeCommand env files n (inputTokens input) sim
        match status with
        | .done => some (some 0, uiPrompt :: output, sim)
        | .error => some (some (-1), uiPrompt :: output, sim)
        | .continued => do
          let (result, rest, sim) ← uiSession prompts sim
          return (result, uiPrompt :: output ++ rest, sim)
      else
        none

variable {stdin} in
/-- A command that goes on. -/
theorem uiSession_continued {sim sim₁ sim₂ : Simulator ω ι} {input : String}
    (hinput : getUserInput stdin sim = (some input, sim₁))
    (hfew : (inputTokens input).length ≤ ListClient.inputTokens.initCapacity)
    {output : List String}
    (h : executeCommand env files n (inputTokens input) sim₁ = some (.continued, output, sim₂))
    (prompts : ℕ) : uiSession env stdin files n (prompts + 1) sim =
      (uiSession env stdin files n prompts sim₂).map fun x =>
        (x.1, uiPrompt :: output ++ x.2.1, x.2.2) := by
  rw [uiSession, hinput]
  dsimp only
  rw [if_pos hfew, h, Option.map_eq_bind]
  rfl

variable {env stdin files n} {al : ListAllocator}

/-- **The loop is a session.** -/
theorem uiLoop_eq (hgrants : ∀ size, size < 2 ^ 63 → al.grants size = true) (prompts : ℕ)
    {tokens : CList String} (htokens : TokenList tokens []) (sim : Simulator ω ι) :
    uiLoop env stdin files al n prompts tokens sim = uiSession env stdin files n prompts sim := by
  induction prompts generalizing tokens sim with
  | zero => rfl
  | succ prompts ih =>
    rw [uiLoop, uiSession]
    rcases getUserInput stdin sim with ⟨_ | input, sim⟩
    · rfl
    · dsimp only
      rw [tokenizeInput]
      rcases tokens_added hgrants htokens (inputTokens input) with
        ⟨hroom, tokens', hadded, htokens'⟩ | ⟨hmany, hnone⟩
      · rw [List.nil_append] at hroom htokens'
        rw [hadded, if_pos hroom, Option.bind_eq_bind, Option.bind_some, htokens'.elements]
        refine bind_congr fun x => ?_
        obtain ⟨status, output, sim₁⟩ := x
        cases status with
        | done => rfl
        | error => rfl
        | continued =>
          dsimp only
          rw [ih htokens'.clear sim₁]
      · rw [List.nil_append] at hmany
        rw [hnone, if_neg (Nat.not_le.mpr hmany)]
        rfl

variable (env stdin files n)

/-- A session, round by round, with the tokens of each round and what its commands return. In a
round `fgets` reads from the terminal, and then the commands are carried out that the tokens ask
for, of which there are at most five. Nothing else happens, until there is nothing more to read, the
user quits, or a command reports an error. -/
inductive SessionRuns : ℕ → List (List String) → Option ℤ → List (Option ℤ) → Simulator ω ι →
    Simulator ω ι → Prop
  | goesOn (sim) : SessionRuns 0 [] none [] sim sim
  | endOfInput {prompts sim sim₁} (hinput : getUserInput stdin sim = (none, sim₁)) :
      SessionRuns (prompts + 1) [] (some (-1)) [] sim sim₁
  | quit {prompts sim sim₁ input} (hinput : getUserInput stdin sim = (some input, sim₁))
      (hfew : (inputTokens input).length ≤ 5) (hquit : (inputTokens input).head? = some "quit") :
      SessionRuns (prompts + 1) [inputTokens input] (some 0) [] sim sim₁
  | failed {prompts sim sim₁ sim₂ input outs}
      (hinput : getUserInput stdin sim = (some input, sim₁))
      (hfew : (inputTokens input).length ≤ 5)
      (hrun : run (runCommand env) (uiCommands files n (inputTokens input)) sim₁ =
        some (outs, sim₂))
      (hstops : StopsAtError (uiCommands files n (inputTokens input)) outs)
      (herror : ¬ NoError (uiCommands files n (inputTokens input)) outs) :
      SessionRuns (prompts + 1) [inputTokens input] (some (-1)) outs sim sim₂
  | continued {prompts sim sim₁ sim₂ sim₃ input outs executed result outs'}
      (hinput : getUserInput stdin sim = (some input, sim₁))
      (hfew : (inputTokens input).length ≤ 5)
      (hgoes : (inputTokens input).head? ≠ some "quit")
      (hrun : run (runCommand env) (uiCommands files n (inputTokens input)) sim₁ =
        some (outs, sim₂))
      (hnoError : NoError (uiCommands files n (inputTokens input)) outs)
      (hrest : SessionRuns prompts executed result outs' sim₂ sim₃) :
      SessionRuns (prompts + 1) (inputTokens input :: executed) result (outs ++ outs') sim sim₃

variable {env stdin files n}

/-- Quitting asks for nothing. -/
theorem uiCommands_quit {tokens : List String} (h : tokens.head? = some "quit") :
    uiCommands files n tokens = [] := by
  rw [uiCommands, h]
  rfl

/-- **A session is a run** of the commands that are entered, up to its end. -/
theorem uiSession_runs {prompts : ℕ} {sim sim' : Simulator ω ι} {result : Option ℤ}
    {output : List String}
    (h : uiSession env stdin files n prompts sim = some (result, output, sim')) :
    ∃ executed outs, SessionRuns env stdin files n prompts executed result outs sim sim' := by
  induction prompts generalizing sim result output with
  | zero =>
    obtain ⟨rfl, hsim⟩ := Prod.mk.inj (Option.some.inj h)
    obtain ⟨-, rfl⟩ := Prod.mk.inj hsim
    exact ⟨[], [], .goesOn sim⟩
  | succ prompts ih =>
    rw [uiSession] at h
    rcases hinput : getUserInput stdin sim with ⟨_ | input, sim₁⟩
    · rw [hinput] at h
      obtain ⟨rfl, hsim⟩ := Prod.mk.inj (Option.some.inj h)
      obtain ⟨-, rfl⟩ := Prod.mk.inj hsim
      exact ⟨[], [], .endOfInput hinput⟩
    · rw [hinput] at h
      dsimp only at h
      split_ifs at h with hfew
      obtain ⟨⟨status, output₁, sim₂⟩, hcommand, hrest⟩ := Option.bind_eq_some_iff.mp h
      obtain ⟨outs, hrun, hstops, hnoError⟩ := executeCommand_runs hcommand
      have hdone := executeCommand_done_iff hcommand
      cases status with
      | done =>
        obtain ⟨rfl, hsim⟩ := Prod.mk.inj (Option.some.inj hrest)
        obtain ⟨-, rfl⟩ := Prod.mk.inj hsim
        have hquit := hdone.mp rfl
        rw [uiCommands_quit hquit] at hrun
        obtain ⟨-, rfl⟩ := Prod.mk.inj (Option.some.inj hrun)
        exact ⟨_, _, .quit hinput hfew hquit⟩
      | error =>
        obtain ⟨rfl, hsim⟩ := Prod.mk.inj (Option.some.inj hrest)
        obtain ⟨-, rfl⟩ := Prod.mk.inj hsim
        exact ⟨_, _, .failed hinput hfew hrun hstops fun h => hnoError.mp h rfl⟩
      | continued =>
        obtain ⟨⟨result₂, output₂, sim₃⟩, hsession, hend⟩ := Option.bind_eq_some_iff.mp hrest
        obtain ⟨rfl, hsim⟩ := Prod.mk.inj (Option.some.inj hend)
        obtain ⟨-, rfl⟩ := Prod.mk.inj hsim
        obtain ⟨executed, outs₂, hsuffix⟩ := ih hsession
        exact ⟨_, _, .continued hinput hfew (fun hquit => UiStatus.noConfusion (hdone.mpr hquit))
          hrun (hnoError.mpr (by decide)) hsuffix⟩

/-- What the commands keep holds at every prompt, if it is not about the terminal. -/
theorem SessionRuns.invariant {I : Simulator ω ι → Prop}
    (hcommand : ∀ command sim out sim', I sim →
      runCommand env command sim = some (out, sim') → I sim')
    (hterminal : ∀ sim deviceIo, I sim →
      I { sim with machine := { sim.machine with deviceIo } })
    {prompts : ℕ} {executed : List (List String)} {result : Option ℤ} {outs : List (Option ℤ)}
    {sim sim' : Simulator ω ι}
    (h : SessionRuns env stdin files n prompts executed result outs sim sim') (hI : I sim) :
    I sim' := by
  have hread {input : Option String} {sim sim₁ : Simulator ω ι} (hI : I sim)
      (hinput : getUserInput stdin sim = (input, sim₁)) : I sim₁ := by
    obtain ⟨-, rfl⟩ := Prod.mk.inj hinput
    exact hterminal _ _ hI
  have hrun {commands : List Command} {outs : List (Option ℤ)} {sim₁ sim₂ : Simulator ω ι}
      (hI : I sim₁) (hrun : run (runCommand env) commands sim₁ = some (outs, sim₂)) : I sim₂ :=
    run_invariant (fun command sim out sim' hI hstep => hcommand command sim out sim' hI hstep) hI
      hrun
  induction h with
  | goesOn => exact hI
  | endOfInput hinput => exact hread hI hinput
  | quit hinput => exact hread hI hinput
  | failed hinput _ hruns => exact hrun (hread hI hinput) hruns
  | continued hinput _ _ hruns _ _ ih => exact ih (hrun (hread hI hinput) hruns)

/-- A stream of characters. -/
def textStdin : Stdin (List Char) where
  fgets size typed :=
    let result := Lines.fgets size typed
    (result.map Prod.fst, (result.map Prod.snd).getD [])

/-- A terminal that throws away what was typed ahead, when it is started. -/
def flushingIo : DeviceIo (List Char) where
  getChar typed := (0, 0, typed)
  writeChar _ typed := typed
  ioStart _ := (0, [])
  ioEnd typed := (0, typed)

/-- Nothing but memory, with this terminal. -/
def flushingEnv : Env Unit (List Char) := ⟨SortSearch.bisecting _, fun _ => inertDevice, flushingIo⟩

end Sessions

end Lc3Simulator
