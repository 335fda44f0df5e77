import Lc3Simulator.UiLoop

/-!
# Typing commands

A command is typed on a line, its tokens with a space between each two. `get_user_input` and
`tokenize_input` read it back, if the line is short enough and nothing else takes it. A program that
runs takes characters from the same descriptor, and starting and ending the terminal throws away
what was typed ahead. So several commands are read back if none of them starts the terminal, or if
each is typed at its prompt.

## Main definitions

* `TypableCommand` — a command that fits on a line
* `Stdin.Reads` — the stream that `fgets` reads
* `DeviceIo.Leaves` — a terminal that takes nothing of it
* `uiEntered` — the session in which some commands are entered

## Main results

* `inputTokens_typed`, `getUserInput_typed` — one line
* `uiLoop_typed` — commands that are typed, a line for each, are the commands of the session
-/

namespace Lc3Simulator

open CString Lines Transition

variable {ω ι : Type}

/-! ### Lines -/

/-- A word that is a token: not empty, and without delimiters and nulls. -/
def Typable (word : List Char) : Prop :=
  word ≠ [] ∧ ∀ c ∈ word, c ∉ [' ', ',', '\n'] ∧ c ≠ Char.ofNat 0

/-- Some words with a space between each two of them. -/
def spaced : List (List Char) → List Char
  | [] => []
  | [word] => word
  | word :: words => word ++ ' ' :: spaced words

/-- A line with the tokens of a command. -/
def typedLine (tokens : List String) : List Char := spaced (tokens.map String.toList)

/-- **The words of a line are found.** -/
theorem strtok_spaced {words : List (List Char)} (h : ∀ word ∈ words, Typable word) :
    strtok [' ', ',', '\n'] (spaced words ++ ['\n']) = words := by
  induction words using spaced.induct with
  | case1 => rfl
  | case2 word =>
    obtain ⟨hne, hword⟩ := h word (List.mem_singleton_self _)
    rw [spaced, strtok_word hne (fun c hc => (hword c hc).1) (by decide)]
    simp [strtok]
  | case3 word words hmany ih =>
    obtain ⟨hne, hword⟩ := h word List.mem_cons_self
    obtain ⟨next, more, rfl⟩ : ∃ next more, words = next :: more :=
      List.exists_cons_of_ne_nil fun hnil => hmany hnil
    rw [spaced, List.append_assoc, List.cons_append,
      strtok_word hne (fun c hc => (hword c hc).1) (by decide),
      ih fun w hw => h w (List.mem_cons_of_mem _ hw)]
    exact fun hnil => by cases hnil

/-- What holds of a space and of the characters of the words holds of those of the line. -/
theorem forall_mem_spaced {P : Char → Prop} (hspace : P ' ') {words : List (List Char)}
    (h : ∀ word ∈ words, ∀ c ∈ word, P c) : ∀ c ∈ spaced words, P c := by
  induction words using spaced.induct with
  | case1 => exact fun c hc => by cases hc
  | case2 word => exact h word (List.mem_singleton_self _)
  | case3 word words hmany ih =>
    obtain ⟨next, more, rfl⟩ : ∃ next more, words = next :: more :=
      List.exists_cons_of_ne_nil fun hnil => hmany hnil
    rw [List.forall_mem_cons] at h
    intro c hc
    rcases List.mem_append.mp hc with hc | hc
    · exact h.1 c hc
    · rcases List.mem_cons.mp hc with rfl | hc
      · exact hspace
      · exact ih h.2 c hc

/-- A command that can be typed: its words are tokens, and its line is short enough. -/
structure TypableCommand (tokens : List String) : Prop where
  typable : ∀ token ∈ tokens, Typable token.toList
  short : (typedLine tokens).length + 1 < maxCommandStrSize

theorem TypableCommand.no_newline {tokens : List String} (h : TypableCommand tokens) :
    ∀ c ∈ typedLine tokens, c ≠ '\n' ∧ c ≠ Char.ofNat 0 := by
  refine forall_mem_spaced (by decide) fun word hword c hc => ?_
  obtain ⟨token, htoken, rfl⟩ := List.mem_map.mp hword
  obtain ⟨hdelim, hnull⟩ := (h.typable token htoken).2 c hc
  exact ⟨fun heq => hdelim (by rw [heq]; decide), hnull⟩

theorem inputTokens_typed {tokens : List String} (h : TypableCommand tokens) :
    inputTokens (bufferString (typedLine tokens ++ ['\n'])) = tokens := by
  have hbuffer : (typedLine tokens ++ ['\n']).takeWhile (· ≠ Char.ofNat 0) =
      typedLine tokens ++ ['\n'] := by
    refine List.takeWhile_eq_self_iff.mpr fun c hc => decide_eq_true ?_
    rcases List.mem_append.mp hc with hc | hc
    · exact (h.no_newline c hc).2
    · obtain rfl := List.mem_singleton.mp hc
      decide
  have hwords : ∀ word ∈ tokens.map String.toList, Typable word := by
    intro word hword
    obtain ⟨token, htoken, rfl⟩ := List.mem_map.mp hword
    exact h.typable token htoken
  rw [inputTokens, bufferString, hbuffer, String.toList_ofList, typedLine, strtok_spaced hwords,
    List.map_map]
  simp

/-! ### Sessions that are typed -/

/-- What is typed and not read yet is the stream that `fgets` reads. -/
structure Stdin.Reads (stdin : Stdin ι) (typed : ι → List Char) : Prop where
  line : ∀ size s, (stdin.fgets size s).1 = (Lines.fgets size (typed s)).map Prod.fst
  rest : ∀ size s,
    typed (stdin.fgets size s).2 = ((Lines.fgets size (typed s)).map Prod.snd).getD []

/-- Nothing of what is typed is taken by a program that runs, or thrown away. -/
structure DeviceIo.Leaves (io : DeviceIo ι) (typed : ι → List Char) : Prop where
  getChar : ∀ s, typed (io.getChar s).2.2 = typed s
  ioStart : ∀ s, typed (io.ioStart s).2 = typed s
  ioEnd : ∀ s, typed (io.ioEnd s).2 = typed s

section Typed

variable (env : Env ω ι) (stdin : Stdin ι) (files : FileSystem) (n : ℕ)

/-- A session in which these commands are entered, one at each prompt, and then the input ends. -/
def uiEntered : ℕ → List (List String) → Simulator ω ι →
    Option (Option ℤ × List String × Simulator ω ι)
  | 0, _, sim => some (none, [], sim)
  | _ + 1, [], sim => some (some (-1), [uiPrompt], (getUserInput stdin sim).2)
  | prompts + 1, tokens :: entered, sim =>
    if tokens.length ≤ ListClient.inputTokens.initCapacity then do
      let (status, output, sim) ← executeCommand env files n tokens (getUserInput stdin sim).2
      match status with
      | .done => some (some 0, uiPrompt :: output, sim)
      | .error => some (some (-1), uiPrompt :: output, sim)
      | .continued => do
        let (result, rest, sim) ← uiEntered prompts entered sim
        return (result, uiPrompt :: output ++ rest, sim)
    else
      none

variable {env stdin files n} {typed : ι → List Char} {sim sim' : Simulator ω ι}

/-- **A line that is typed is what is entered.** -/
theorem getUserInput_typed (hreads : stdin.Reads typed) {tokens : List String}
    (h : TypableCommand tokens) {rest : List Char}
    (hsim : typed sim.machine.deviceIo = typedLine tokens ++ '\n' :: rest) :
    ∃ input, (getUserInput stdin sim).1 = some input ∧ inputTokens input = tokens ∧
      typed (getUserInput stdin sim).2.machine.deviceIo = rest := by
  have hend : '\n' ∉ typedLine tokens := fun hmem => (h.no_newline _ hmem).1 rfl
  have hline := hreads.line maxCommandStrSize sim.machine.deviceIo
  have hrest := hreads.rest maxCommandStrSize sim.machine.deviceIo
  rw [hsim, fgets_line hend h.short] at hline hrest
  exact ⟨_, congrArg (Option.map bufferString) hline, inputTokens_typed h, hrest⟩

/-- **One prompt**, at which the next line is read, if there is one. -/
theorem getUserInput_cases (hreads : stdin.Reads typed) {entered : List (List String)}
    (hentered : ∀ tokens ∈ entered, TypableCommand tokens)
    (hsim : typed sim.machine.deviceIo = text (entered.map typedLine)) {input : Option String}
    (h : getUserInput stdin sim = (input, sim')) :
    input = none ∧ entered = [] ∧ typed sim'.machine.deviceIo = [] ∨
      ∃ line left, input = some line ∧ entered = inputTokens line :: left ∧
        typed sim'.machine.deviceIo = text (left.map typedLine) := by
  cases entered with
  | nil =>
    have hline := hreads.line maxCommandStrSize sim.machine.deviceIo
    have hrest := hreads.rest maxCommandStrSize sim.machine.deviceIo
    rw [hsim] at hline hrest
    obtain ⟨rfl, rfl⟩ := Prod.mk.inj h
    exact Or.inl ⟨congrArg (Option.map bufferString) hline, rfl, hrest⟩
  | cons tokens left =>
    rw [List.map_cons, text_cons] at hsim
    obtain ⟨line, hline, rfl, hrest⟩ :=
      getUserInput_typed hreads (hentered tokens List.mem_cons_self) hsim
    rw [h] at hline hrest
    exact Or.inr ⟨line, left, hline, rfl, hrest⟩

theorem Prints.keeps {io : DeviceIo ι} {s s' : ι} (h : Prints io s s')
    (hprints : ∀ output s, typed (io.writeChar output s) = typed s) : typed s' = typed s := by
  obtain ⟨output, rfl⟩ := h
  induction output generalizing s with
  | nil => rfl
  | cons c output ih => exact ih.trans (hprints c s)

theorem Genuine.keeps {io : DeviceIo ι} {s s' : ι} {log : List (IoEvent ι)}
    (h : Genuine io s log s')
    (hprints : ∀ output s, typed (io.writeChar output s) = typed s) (hleaves : io.Leaves typed) :
    typed s' = typed s := by
  induction log generalizing s with
  | nil =>
    obtain rfl : s' = s := h
    rfl
  | cons e log ih =>
    obtain ⟨rfl, hmade, hrest⟩ := h
    refine (ih hrest).trans ?_
    obtain ⟨call, before, after⟩ := e
    cases call with
    | getChar =>
      obtain rfl : after = (io.getChar before).2.2 := hmade
      exact hleaves.getChar before
    | writeChar output =>
      obtain rfl : after = io.writeChar output before := hmade
      exact hprints output before
    | start status =>
      obtain rfl : after = (io.ioStart before).2 := congrArg Prod.snd hmade
      exact hleaves.ioStart before
    | stop status =>
      obtain rfl : after = (io.ioEnd before).2 := congrArg Prod.snd hmade
      exact hleaves.ioEnd before

/-- **Commands that leave what is typed alone**: none of them starts the terminal, or nothing is
taken there. -/
theorem run_typed {commands : List Command} {outs : List (Option ℤ)}
    (hprints : ∀ output s, typed (env.deviceIo.writeChar output s) = typed s)
    (hleaves : (∀ command ∈ commands, ¬ command.Runs) ∨ env.deviceIo.Leaves typed)
    (h : run (runCommand env) commands sim = some (outs, sim')) :
    typed sim'.machine.deviceIo = typed sim.machine.deviceIo := by
  rcases hleaves with hnot | hleaves
  · refine run_invariant_of_along
      (I := fun sim₁ => typed sim₁.machine.deviceIo = typed sim.machine.deviceIo)
      (fun command _ _ _ hnot hsame hstep => ?_) (along_of_forall_mem hnot sim) rfl h
    exact ((runCommand_prints hnot hstep).keeps hprints).trans hsame
  · obtain ⟨log, -, hgenuine⟩ := exists_log h
    exact hgenuine.keeps hprints hleaves

/-- **The lines are what is entered**, whether the session comes back or not. -/
theorem uiSession_typed (hreads : stdin.Reads typed)
    (hprints : ∀ output s, typed (env.deviceIo.writeChar output s) = typed s)
    {entered : List (List String)} (hentered : ∀ tokens ∈ entered, TypableCommand tokens)
    (hleaves : (∀ tokens ∈ entered, ∀ command ∈ uiCommands files n tokens, ¬ command.Runs) ∨
      env.deviceIo.Leaves typed)
    (hsim : typed sim.machine.deviceIo = text (entered.map typedLine)) (prompts : ℕ) :
    uiSession env stdin files n prompts sim = uiEntered env stdin files n prompts entered sim := by
  induction prompts generalizing entered sim with
  | zero => rfl
  | succ prompts ih =>
    rcases hinput : getUserInput stdin sim with ⟨input, sim₁⟩
    obtain ⟨rfl, rfl, -⟩ | ⟨line, left, rfl, rfl, htyped⟩ :=
      getUserInput_cases hreads hentered hsim hinput
    · rw [uiSession, uiEntered, hinput]
    · rw [uiSession, uiEntered, hinput]
      dsimp only
      split_ifs with hfew
      · cases hcommand : executeCommand env files n (inputTokens line) sim₁ with
        | none => rfl
        | some x =>
          obtain ⟨status, output, sim₂⟩ := x
          cases status with
          | done => rfl
          | error => rfl
          | continued =>
            obtain ⟨outs, hrun, -⟩ := executeCommand_runs hcommand
            have hleft := run_typed hprints (hleaves.imp_left fun h => h _ List.mem_cons_self) hrun
            have hrest := ih
              (fun tokens htokens => hentered tokens (List.mem_cons_of_mem _ htokens))
              (hleaves.imp_left fun h tokens htokens => h tokens (List.mem_cons_of_mem _ htokens))
              (hleft.trans htyped)
            simp only [Option.bind_eq_bind, Option.bind_some, hrest]
      · rfl

/-- **A session reads the lines in order**, and if it comes to the end of the input, all of them. -/
theorem SessionRuns.reads (hreads : stdin.Reads typed)
    (hprints : ∀ output s, typed (env.deviceIo.writeChar output s) = typed s)
    {prompts : ℕ} {executed : List (List String)} {result : Option ℤ} {outs : List (Option ℤ)}
    (h : SessionRuns env stdin files n prompts executed result outs sim sim')
    {entered : List (List String)} (hentered : ∀ tokens ∈ entered, TypableCommand tokens)
    (hleaves : (∀ tokens ∈ entered, ∀ command ∈ uiCommands files n tokens, ¬ command.Runs) ∨
      env.deviceIo.Leaves typed)
    (hsim : typed sim.machine.deviceIo = text (entered.map typedLine)) :
    ∃ left, entered = executed ++ left ∧
      (result = some (-1) → NoError (executed.flatMap (uiCommands files n)) outs → left = []) ∧
      typed sim'.machine.deviceIo = text (left.map typedLine) := by
  induction h generalizing entered with
  | goesOn => exact ⟨entered, rfl, fun hresult => absurd hresult (by decide), hsim⟩
  | endOfInput hinput =>
    obtain ⟨-, rfl, htyped⟩ | ⟨_, _, hsome, -⟩ := getUserInput_cases hreads hentered hsim hinput
    · exact ⟨[], rfl, fun _ _ => rfl, htyped⟩
    · cases hsome
  | quit hinput =>
    obtain ⟨hnone, -⟩ | ⟨_, left, hsome, rfl, htyped⟩ :=
      getUserInput_cases hreads hentered hsim hinput
    · cases hnone
    · obtain rfl := Option.some.inj hsome
      exact ⟨left, rfl, fun hresult => absurd hresult (by decide), htyped⟩
  | failed hinput _ hrun _ herror =>
    obtain ⟨hnone, -⟩ | ⟨_, left, hsome, rfl, htyped⟩ :=
      getUserInput_cases hreads hentered hsim hinput
    · cases hnone
    · obtain rfl := Option.some.inj hsome
      have hleft := run_typed hprints (hleaves.imp_left fun h => h _ List.mem_cons_self) hrun
      refine ⟨left, rfl, fun _ hnoError => absurd ?_ herror, hleft.trans htyped⟩
      rwa [List.flatMap_singleton] at hnoError
  | continued hinput _ _ hrun _ _ ih =>
    obtain ⟨hnone, -⟩ | ⟨_, left, hsome, rfl, htyped⟩ :=
      getUserInput_cases hreads hentered hsim hinput
    · cases hnone
    · obtain rfl := Option.some.inj hsome
      have hleft := run_typed hprints (hleaves.imp_left fun h => h _ List.mem_cons_self) hrun
      obtain ⟨left', rfl, hall, htyped'⟩ := ih
        (fun tokens htokens => hentered tokens (List.mem_cons_of_mem _ htokens))
        (hleaves.imp_left fun h tokens htokens => h tokens (List.mem_cons_of_mem _ htokens))
        (hleft.trans htyped)
      refine ⟨left', rfl, fun hresult hnoError => hall hresult ?_, htyped'⟩
      rw [List.flatMap_cons, noError_append (length_of_run hrun)] at hnoError
      exact hnoError.2

/-- **What is typed is carried out.** Commands are typed, each on a line of at most 98 characters
and its tokens with a space between each two. If none of them starts the terminal, or if each is
typed at its prompt, so that nothing is taken from them in between, then the loop does what it does
if these commands are entered in their order. A session that comes back has read no more than the
commands that it carried out; if it ends without an error and without `quit` it has come to the end
of the input, and all of them are carried out. -/
theorem uiLoop_typed {al : ListAllocator}
    (hgrants : ∀ size, size < 2 ^ 63 → al.grants size = true) {inputTokens : CList String}
    (hlist : ListClient.inputTokens.newList al = some inputTokens) (hreads : stdin.Reads typed)
    (hprints : ∀ output s, typed (env.deviceIo.writeChar output s) = typed s)
    {entered : List (List String)} (hentered : ∀ tokens ∈ entered, TypableCommand tokens)
    (hleaves : (∀ tokens ∈ entered, ∀ command ∈ uiCommands files n tokens, ¬ command.Runs) ∨
      env.deviceIo.Leaves typed)
    (hsim : typed sim.machine.deviceIo = text (entered.map typedLine)) (prompts : ℕ) :
    uiLoop env stdin files al n prompts inputTokens sim =
        uiEntered env stdin files n prompts entered sim ∧
      ∀ result output sim',
        uiLoop env stdin files al n prompts inputTokens sim = some (result, output, sim') →
        ∃ executed outs left,
          SessionRuns env stdin files n prompts executed result outs sim sim' ∧
          entered = executed ++ left ∧
          (result = some (-1) → NoError (executed.flatMap (uiCommands files n)) outs →
            left = []) ∧
          typed sim'.machine.deviceIo = text (left.map typedLine) := by
  rw [uiLoop_eq hgrants prompts (newList_tokenList hlist)]
  refine ⟨uiSession_typed hreads hprints hentered hleaves hsim prompts, ?_⟩
  intro result output sim' h
  obtain ⟨executed, outs, hruns⟩ := uiSession_runs h
  obtain ⟨left, hleft⟩ := hruns.reads hreads hprints hentered hleaves hsim
  exact ⟨executed, outs, left, hruns, hleft⟩

theorem textStdin_reads : textStdin.Reads id := ⟨fun _ _ => rfl, fun _ _ => rfl⟩

/-- A terminal where each command is typed at its prompt. -/
def promptedIo : DeviceIo (List Char) := { flushingIo with ioStart := fun typed => (0, typed) }

def promptedEnv : Env Unit (List Char) := { flushingEnv with deviceIo := promptedIo }

theorem promptedEnv_leaves : promptedEnv.deviceIo.Leaves id :=
  ⟨fun _ => rfl, fun _ => rfl, fun _ => rfl⟩

/-- A step is typed, and then `quit`. -/
theorem uiLoop_typed_step : ∃ output sim' executed outs left,
    uiLoop promptedEnv textStdin noFiles largeAllocator 0 2 noTokens
        (blankSim.withIo "step 1\nquit\n".toList) = some (some 0, output, sim') ∧
      uiEntered promptedEnv textStdin noFiles 0 2 [["step", "1"], ["quit"]]
        (blankSim.withIo "step 1\nquit\n".toList) = some (some 0, output, sim') ∧
      SessionRuns promptedEnv textStdin noFiles 0 2 executed (some 0) outs
        (blankSim.withIo "step 1\nquit\n".toList) sim' ∧
      [["step", "1"], ["quit"]] = executed ++ left ∧
      sim'.machine.deviceIo = text (left.map typedLine) := by
  have htyped : ∀ tokens ∈ [["step", "1"], ["quit"]], TypableCommand tokens := by
    simp only [List.forall_mem_cons, List.not_mem_nil, false_implies, implies_true, and_true]
    exact ⟨⟨by simp [Typable], by decide⟩, ⟨by simp [Typable], by decide⟩⟩
  obtain ⟨⟨result, output, sim'⟩, hloop, hresult⟩ : ∃ x,
      uiLoop promptedEnv textStdin noFiles largeAllocator 0 2 noTokens
        (blankSim.withIo "step 1\nquit\n".toList) = some x ∧ x.1 = some 0 :=
    ⟨_, rfl, by decide +kernel⟩
  dsimp only at hresult
  subst hresult
  have hsim : id (blankSim.withIo "step 1\nquit\n".toList).machine.deviceIo =
      text ([["step", "1"], ["quit"]].map typedLine) := rfl
  obtain ⟨hentered, hback⟩ :=
    uiLoop_typed (fun _ => decide_eq_true) newList_inputTokens textStdin_reads (fun _ _ => rfl)
      htyped (Or.inr promptedEnv_leaves) hsim 2
  obtain ⟨executed, outs, left, hruns, hexecuted, -, hleft⟩ := hback _ _ _ hloop
  exact ⟨output, sim', executed, outs, left, hloop, hentered.symm.trans hloop, hruns, hexecuted,
    hleft⟩

end Typed

end Lc3Simulator
