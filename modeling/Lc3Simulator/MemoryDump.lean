import Lc3Simulator.TypedCommands

/-!
# What is printed can be typed

`mem read` prints a table with a line for each address. From a line one can tell the command that
puts its value back, by taking the tokens of the line in another order. So a table that was printed,
and is typed like this line by line, restores the memory that it shows, in the same simulator or in
another one.

Nothing must be sorted out for that. The head of the table, and the lines of device registers, turn
into commands that have no value in the place of the value, and these change nothing.

## Main definitions

* `restoreCommand` — the command that a line turns into

## Main results

* `inputTokens_tableLine` — the tokens of a line
* `executeCommand_restore` — what the command of a line does
* `memory_restored` — the whole table
-/

namespace Lc3Simulator

open CString Lines Transition

variable {ω ι : Type}

/-- The command that puts back what a line of the table shows. -/
def restoreCommand (line : String) : List String :=
  match inputTokens line with
  | [address, value] => ["mem", "write", value, address]
  | _ => []

/-! ### The tokens of a line -/

/-- **The tokens of a line** are its two columns, if there is a space between them. -/
theorem inputTokens_tableLine {left right : String} (hleft : Typable left.toList)
    (hshort : left.toList.length < 13) (hright : Typable right.toList) :
    inputTokens (tableLine left right) = [left, right] := by
  obtain ⟨hne, hword⟩ := hleft
  obtain ⟨hne', hword'⟩ := hright
  have hspace : ' ' ∈ [' ', ',', '\n'] := by decide
  have hgap : 13 - left.toList.length = 12 - left.toList.length + 1 := by omega
  have htail : strtok [' ', ',', '\n']
      (right.toList.rightpad 13 ' ' ++ ['\n']) = [right.toList] := by
    rw [List.rightpad]
    cases 13 - right.toList.length with
    | zero =>
      rw [List.replicate_zero, List.append_nil,
        strtok_word hne' (fun c hc => (hword' c hc).1) (by decide)]
      rfl
    | succ gap =>
      rw [List.replicate_succ, List.append_assoc, List.cons_append,
        strtok_word hne' (fun c hc => (hword' c hc).1) hspace, strtok_replicate hspace]
      rfl
  have hline : (tableLine left right).toList =
      left.toList ++ ' ' :: (List.replicate (12 - left.toList.length) ' ' ++
        (right.toList.rightpad 13 ' ' ++ ['\n'])) := by
    rw [tableLine, String.toList_ofList, List.rightpad, hgap, List.replicate_succ]
    simp
  rw [inputTokens, hline, strtok_word hne (fun c hc => (hword c hc).1) hspace,
    strtok_replicate hspace, htail]
  simp

theorem toList_hexText (w : Word) :
    (hexText w).toList = '0' :: 'X' :: fixedDigits 16 4 w.toNat := by
  rw [hexText, String.toList_append, String.toList_ofList, String.toList_ofList]
  rfl

/-- A printed number is a token. -/
theorem typable_hexText (w : Word) : Typable (hexText w).toList := by
  have hdigits : ∀ c ∈ fixedDigits 16 4 w.toNat, isDigit 16 c = true :=
    isDigit_of_mem_fixedDigits (by decide) le_rfl
  have hnot : ∀ d ∈ [' ', ',', '\n', Char.ofNat 0], isDigit 16 d = false := by
    simp only [List.forall_mem_cons]
    exact ⟨rfl, rfl, rfl, rfl, List.forall_mem_nil _⟩
  have hother {c d : Char} (hc : isDigit 16 c = true) (hd : d ∈ [' ', ',', '\n', Char.ofNat 0]) :
      c ≠ d := by
    rintro rfl
    exact absurd (hc.symm.trans (hnot c hd)) (by decide)
  rw [toList_hexText]
  refine ⟨List.cons_ne_nil _ _, ?_⟩
  simp only [List.forall_mem_cons]
  refine ⟨by decide, by decide, fun c hc => ⟨fun hmem => ?_, hother (hdigits c hc) (by simp)⟩⟩
  exact hother (hdigits c hc) (List.mem_append_left [Char.ofNat 0] hmem) rfl

theorem length_hexText (w : Word) : (hexText w).toList.length = 6 := by
  rw [toList_hexText, List.length_cons, List.length_cons, length_fixedDigits]

/-! ### The command of a line -/

/-- The command of a line with an address. -/
theorem restoreCommand_line {right : String} (hright : Typable right.toList) (address : Word) :
    restoreCommand (tableLine (hexText address) right) =
      ["mem", "write", right, hexText address] := by
  rw [restoreCommand, inputTokens_tableLine (typable_hexText address)
    (by rw [length_hexText]; decide) hright]

theorem restoreCommand_head :
    restoreCommand (tableLine "address" "value") = ["mem", "write", "value", "address"] := by
  rw [restoreCommand, inputTokens_tableLine (by simp [Typable]) (by decide) (by simp [Typable])]

section Commands

variable (env : Env ω ι) (files : FileSystem) (n : ℕ) (sim : Simulator ω ι)

theorem executeCommand_mem (args : List String) :
    executeCommand env files n ("mem" :: args) sim = uiMem env ("mem" :: args) sim := rfl

/-- A value is written. -/
theorem executeCommand_write (value address : Word)
    (hmemory : busIsDeviceRegister sim.machine.bus address = false) :
    executeCommand env files n ["mem", "write", hexText value, hexText address] sim =
      some (.continued, [], { sim with
        machine := { sim.machine with bus := sim.machine.bus.setValue address value } }) := by
  have haccepted : Accepted ["mem", "write", hexText value, hexText address]
      (.mem value address address) := .mem (hexText_denotes value) (hexText_denotes address)
  obtain ⟨-, hmode, haddresses, hvalue⟩ := accepted_mem_iff.mp haccepted
  have hrange : addressRange address address = [address] := by
    rw [addressRange, show address.toNat + 1 - address.toNat = 1 by omega]
    simp
  have hwrite : simulatorWriteAddress env sim address value = some { sim with
      machine := { sim.machine with bus := sim.machine.bus.setValue address value } } := by
    rw [busIsDeviceRegister] at hmemory
    rw [simulatorWriteAddress, busWrite, hmemory]
    rfl
  rw [executeCommand_mem, uiMem]
  simp only [hmode, haddresses, hvalue]
  rw [uiMemWrite_eq, UiWrite.carryOut, hrange, List.foldlM_cons, hwrite]
  rfl

/-- What is no value is not written. -/
theorem executeCommand_noValue {value address : String} (hvalue : ∀ w, ¬ Denotes value w) :
    executeCommand env files n ["mem", "write", value, address] sim =
      some (.continued, [uiMemUsage], sim) := by
  have hnone : uiMemGetWriteVal ["mem", "write", value, address] = none := by
    refine Option.eq_none_iff_forall_ne_some.mpr fun w hw => ?_
    obtain ⟨token, htoken, hconvert⟩ := convertToken_eq_some.mp hw
    obtain rfl := Option.some.inj htoken
    exact hvalue w (uiConvertStrToUint16_iff.mp hconvert)
  have hmode : uiMemGetMode ["mem", "write", value, address] = some .write := rfl
  rw [executeCommand_mem, uiMem, hmode]
  dsimp only
  cases uiMemGetAddresses ["mem", "write", value, address] .write with
  | none => rfl
  | some range =>
    dsimp only
    rw [hnone]
    rfl

/-- The table is printed. -/
theorem executeCommand_read (low high : Word) :
    executeCommand env files n ["mem", "read", hexText low, hexText high] sim =
      some (.continued,
        tableLine "address" "value" :: (addressRange low high).map (memLine sim), sim) := by
  have hmode : uiMemGetMode ["mem", "read", hexText low, hexText high] = some .read := rfl
  have haddresses : uiMemGetAddresses ["mem", "read", hexText low, hexText high] .read =
      some (low, high) := by
    have htokens : uiMemGetAddressTokens ["mem", "read", hexText low, hexText high] .read =
        some (hexText low, some (hexText high)) := rfl
    rw [uiMemGetAddresses, htokens, Option.bind_eq_bind, Option.bind_some]
    dsimp only
    rw [uiConvertAddressToken_iff.mpr (hexText_denotes low),
      uiConvertAddressToken_iff.mpr (hexText_denotes high)]
    rfl
  rw [executeCommand_mem, uiMem]
  simp only [hmode, haddresses]
  rw [uiMemPrint_eq]
  rfl

end Commands

theorem length_restoreCommand_le (line : String) :
    (restoreCommand line).length ≤ ListClient.inputTokens.initCapacity := by
  rw [restoreCommand]
  split
  · exact (by decide : 4 ≤ 5)
  · exact Nat.zero_le _

/-! ### The table -/

section Table

variable {ω₀ ι₀ : Type} (source : Simulator ω₀ ι₀)

/-- The memory that a table shows at some addresses is put back. -/
def restoreBus (addresses : List Word) (bus : Bus) : Bus :=
  addresses.foldl
    (fun bus address =>
      if busIsDeviceRegister source.machine.bus address then bus
      else bus.setValue address (busReadMemory source.machine.bus address))
    bus

theorem restoreBus_device {address : Word} (rest : List Word) (bus : Bus)
    (hdevice : busIsDeviceRegister source.machine.bus address = true) :
    restoreBus source (address :: rest) bus = restoreBus source rest bus := by
  rw [restoreBus, List.foldl_cons, if_pos hdevice, restoreBus]

theorem restoreBus_value {address : Word} (rest : List Word) (bus : Bus)
    (hmemory : busIsDeviceRegister source.machine.bus address = false) :
    restoreBus source (address :: rest) bus =
      restoreBus source rest
        (bus.setValue address (busReadMemory source.machine.bus address)) := by
  rw [restoreBus, List.foldl_cons, if_neg (Bool.eq_false_iff.mp hmemory), restoreBus]

/-- No address is claimed or given up. -/
theorem attachments_restoreBus (addresses : List Word) (bus : Bus) :
    (restoreBus source addresses bus).attachments = bus.attachments := by
  induction addresses generalizing bus with
  | nil => rfl
  | cons address rest ih =>
    cases hdevice : busIsDeviceRegister source.machine.bus address with
    | true => rw [restoreBus_device source rest bus hdevice, ih]
    | false =>
      rw [restoreBus_value source rest bus hdevice, ih]
      rfl

theorem restoreBus_isDeviceRegister (addresses : List Word) (bus : Bus) (a : Word) :
    busIsDeviceRegister (restoreBus source addresses bus) a = busIsDeviceRegister bus a := by
  induction addresses generalizing bus with
  | nil => rfl
  | cons address rest ih =>
    cases hdevice : busIsDeviceRegister source.machine.bus address with
    | true => rw [restoreBus_device source rest bus hdevice, ih]
    | false =>
      rw [restoreBus_value source rest bus hdevice, ih]
      exact Bus.setValue_attachmentFlag ..

/-- What is not shown stays. -/
theorem restoreBus_of_not {addresses : List Word} {a : Word} (bus : Bus)
    (h : a ∈ addresses → busIsDeviceRegister source.machine.bus a = true) :
    (restoreBus source addresses bus).memory a = bus.memory a := by
  induction addresses generalizing bus with
  | nil => rfl
  | cons address rest ih =>
    have hrest := fun ha => h (List.mem_cons_of_mem _ ha)
    cases hdevice : busIsDeviceRegister source.machine.bus address with
    | true => rw [restoreBus_device source rest bus hdevice, ih _ hrest]
    | false =>
      have hne : a ≠ address := by
        rintro rfl
        exact absurd (hdevice.symm.trans (h List.mem_cons_self)) (by decide)
      rw [restoreBus_value source rest bus hdevice, ih _ hrest]
      exact Function.update_of_ne hne _ _

/-- What is shown is put back. -/
theorem restoreBus_of_mem {addresses : List Word} {a : Word} (bus : Bus) (ha : a ∈ addresses)
    (hmemory : busIsDeviceRegister source.machine.bus a = false) :
    (restoreBus source addresses bus).memory a =
      { bus.memory a with value := busReadMemory source.machine.bus a } := by
  induction addresses generalizing bus with
  | nil => cases ha
  | cons address rest ih =>
    by_cases hrest : a ∈ rest
    · cases hdevice : busIsDeviceRegister source.machine.bus address with
      | true => rw [restoreBus_device source rest bus hdevice, ih _ hrest]
      | false =>
        rw [restoreBus_value source rest bus hdevice, ih _ hrest]
        by_cases hsame : a = address
        · subst hsame
          rw [Bus.setValue]
          dsimp only
          rw [Function.update_self]
        · rw [Bus.setValue]
          dsimp only
          rw [Function.update_of_ne hsame]
    · obtain rfl := (List.mem_cons.mp ha).resolve_right hrest
      rw [restoreBus_value source rest bus hmemory,
        restoreBus_of_not source _ fun h => absurd h hrest]
      exact Function.update_self ..

variable (env : Env ω ι) (files : FileSystem) (n : ℕ) {sim : Simulator ω ι}

/-- **The command of a line** puts the value back, or changes nothing. -/
theorem executeCommand_restore (address : Word)
    (hmap : busIsDeviceRegister sim.machine.bus address =
      busIsDeviceRegister source.machine.bus address) :
    ∃ output, executeCommand env files n (restoreCommand (memLine source address)) sim =
      some (.continued, output, { sim with
        machine := { sim.machine with bus := restoreBus source [address] sim.machine.bus } }) := by
  rw [memLine, simulatorReadAddress]
  by_cases hdevice : busIsDeviceRegister source.machine.bus address = true
  · have hvalue : ∀ w, ¬ Denotes "DEVICE" w := by
      rintro w ⟨-, hread⟩
      have hrest : (stringToLl10Or16 "DEVICE").2 = [] := congrArg Prod.snd hread
      exact absurd hrest (by decide)
    rw [if_pos hdevice, restoreBus_device source [] _ hdevice]
    dsimp only
    rw [restoreCommand_line (by simp [Typable])]
    exact ⟨_, executeCommand_noValue env files n sim hvalue⟩
  · have hmemory := Bool.eq_false_iff.mpr hdevice
    rw [if_neg hdevice, restoreBus_value source [] _ hmemory]
    dsimp only
    rw [restoreCommand_line (typable_hexText _)]
    exact ⟨_, executeCommand_write env files n sim _ _ (hmap.trans hmemory)⟩

/-- The command of the head of the table. -/
theorem executeCommand_head (sim : Simulator ω ι) :
    executeCommand env files n (restoreCommand (tableLine "address" "value")) sim =
      some (.continued, [uiMemUsage], sim) := by
  rw [restoreCommand_head]
  refine executeCommand_noValue env files n sim ?_
  rintro w ⟨-, hread⟩
  have hrest : (stringToLl10Or16 "value").2 = [] := congrArg Prod.snd hread
  exact absurd hrest (by decide)

/-- Every line of the table turns into a command that can be typed. -/
theorem typableCommand_restore (addresses : List Word) :
    ∀ tokens ∈ (tableLine "address" "value" :: addresses.map (memLine source)).map restoreCommand,
      TypableCommand tokens := by
  have hline {right : String} (hright : Typable right.toList) (hshort : right.toList.length ≤ 6)
      (address : Word) : TypableCommand (restoreCommand (tableLine (hexText address) right)) := by
    have hlength := length_hexText address
    rw [restoreCommand_line hright]
    constructor
    · simp only [List.forall_mem_cons, List.not_mem_nil, false_implies, implies_true, and_true]
      exact ⟨by simp [Typable], by simp [Typable], hright, typable_hexText address⟩
    · simp [typedLine, spaced, maxCommandStrSize, hlength]
      omega
  rw [List.map_cons, List.map_map, List.forall_mem_cons, List.forall_mem_map]
  refine ⟨?_, fun address _ => ?_⟩
  · rw [restoreCommand_head]
    exact ⟨by simp [Typable], by decide⟩
  · rw [Function.comp_apply, memLine, simulatorReadAddress]
    by_cases hdevice : busIsDeviceRegister source.machine.bus address = true
    · rw [if_pos hdevice]
      exact hline (by simp [Typable]) (by decide) address
    · rw [if_neg hdevice]
      exact hline (typable_hexText _) (by rw [length_hexText]) address

/-- The terminal after some calls of `fgets`. -/
def Stdin.after (stdin : Stdin ι) (calls : ℕ) (s : ι) : ι :=
  (fun s => (stdin.fgets maxCommandStrSize s).2)^[calls] s

variable {source env files n} {stdin : Stdin ι} {typed : ι → List Char}

/-- **A line that is typed**, and its command. -/
theorem uiSession_line (hreads : stdin.Reads typed) {tokens : List String}
    (htypable : TypableCommand tokens)
    (hfew : tokens.length ≤ ListClient.inputTokens.initCapacity) {rest : List Char}
    (hsim : typed sim.machine.deviceIo = typedLine tokens ++ '\n' :: rest) {output : List String}
    {sim' : Simulator ω ι}
    (h : executeCommand env files n tokens (getUserInput stdin sim).2 =
      some (.continued, output, sim')) (prompts : ℕ) :
    (uiSession env stdin files n (prompts + 1) sim =
      (uiSession env stdin files n prompts sim').map fun x =>
        (x.1, uiPrompt :: output ++ x.2.1, x.2.2)) ∧
      typed (getUserInput stdin sim).2.machine.deviceIo = rest := by
  obtain ⟨input, hsome, rfl, hrest⟩ := getUserInput_typed hreads htypable hsim
  have hinput : getUserInput stdin sim = (some input, (getUserInput stdin sim).2) :=
    Prod.ext hsome rfl
  exact ⟨uiSession_continued env files n hinput hfew h prompts, hrest⟩

/-- The lines of some addresses. -/
theorem uiSession_restore (hreads : stdin.Reads typed) {addresses : List Word}
    (sim : Simulator ω ι) (hmap : ∀ a ∈ addresses, busIsDeviceRegister sim.machine.bus a =
      busIsDeviceRegister source.machine.bus a) {rest : List Char}
    (hsim : typed sim.machine.deviceIo =
      text (((addresses.map (memLine source)).map restoreCommand).map typedLine) ++ rest) :
    ∃ output, uiSession env stdin files n addresses.length sim =
      some (none, output, { sim with machine := { sim.machine with
        bus := restoreBus source addresses sim.machine.bus
        deviceIo := stdin.after addresses.length sim.machine.deviceIo } }) ∧
      typed (stdin.after addresses.length sim.machine.deviceIo) = rest := by
  induction addresses generalizing sim with
  | nil => exact ⟨[], rfl, hsim⟩
  | cons address addresses ih =>
    rw [List.forall_mem_cons] at hmap
    rw [List.map_cons, List.map_cons, List.map_cons, text_cons, List.append_assoc] at hsim
    obtain ⟨output, hcommand⟩ := executeCommand_restore source env files n address
      (show busIsDeviceRegister (getUserInput stdin sim).2.machine.bus address = _ from hmap.1)
    have htypable : TypableCommand (restoreCommand (memLine source address)) :=
      typableCommand_restore source [address] _ (by simp)
    obtain ⟨hline, hleft⟩ := uiSession_line hreads htypable (length_restoreCommand_le _) hsim
      hcommand addresses.length
    -- the command has changed no more than a value in memory
    obtain ⟨outputs, hlines, hrest⟩ := ih { (getUserInput stdin sim).2 with
      machine := { (getUserInput stdin sim).2.machine with
        bus := restoreBus source [address] sim.machine.bus } }
      (fun a ha => (restoreBus_isDeviceRegister source [address] _ a).trans (hmap.2 a ha)) hleft
    rw [List.length_cons, hline]
    exact ⟨uiPrompt :: output ++ outputs, congrArg (Option.map _) hlines, hrest⟩

/-- **What is printed can be typed.** The table that `mem read` prints for some addresses, with each
of its lines turned into a command, is typed on the standard input of a simulator in which the same
of these addresses are device registers. Then the loop carries out all the commands, and reads no
more than them; its memory is that of the table where the table shows memory, and nothing else of
the simulator has changed. -/
theorem memory_restored {ω₀ ι₀ : Type} (env₀ : Env ω₀ ι₀) (files₀ : FileSystem) (n₀ : ℕ)
    (source : Simulator ω₀ ι₀) (env : Env ω ι) (files : FileSystem) (n : ℕ) {al : ListAllocator}
    (hgrants : ∀ size, size < 2 ^ 63 → al.grants size = true) {tokens : CList String}
    (htokens : ListClient.inputTokens.newList al = some tokens) {stdin : Stdin ι}
    {typed : ι → List Char} (hreads : stdin.Reads typed) (low high : Word) :
    ∃ table,
      executeCommand env₀ files₀ n₀ ["mem", "read", hexText low, hexText high] source =
        some (.continued, table, source) ∧
      ∀ (sim : Simulator ω ι) (rest : List Char),
        (∀ a, low ≤ a → a ≤ high → busIsDeviceRegister sim.machine.bus a =
          busIsDeviceRegister source.machine.bus a) →
        typed sim.machine.deviceIo =
          text ((table.map restoreCommand).map typedLine) ++ rest →
        ∃ output bus,
          uiLoop env stdin files al n table.length tokens sim =
            some (none, output, { sim with machine := { sim.machine with
              bus, deviceIo := stdin.after table.length sim.machine.deviceIo } }) ∧
          typed (stdin.after table.length sim.machine.deviceIo) = rest ∧
          bus.attachments = sim.machine.bus.attachments ∧
          ∀ a, bus.memory a =
            if (low ≤ a ∧ a ≤ high) ∧ busIsDeviceRegister source.machine.bus a = false then
              { sim.machine.bus.memory a with value := busReadMemory source.machine.bus a }
            else sim.machine.bus.memory a := by
  refine ⟨_, executeCommand_read env₀ files₀ n₀ source low high, fun sim rest hmap hsim => ?_⟩
  rw [List.map_cons, List.map_cons, text_cons, List.append_assoc] at hsim
  have htypable : TypableCommand (restoreCommand (tableLine "address" "value")) :=
    typableCommand_restore source [] _ (by simp)
  obtain ⟨hhead, hleft⟩ := uiSession_line (n := n) hreads htypable (length_restoreCommand_le _) hsim
    (executeCommand_head env files n _) (addressRange low high).length
  have hrange : ∀ a ∈ addressRange low high, busIsDeviceRegister sim.machine.bus a =
      busIsDeviceRegister source.machine.bus a := fun a ha =>
    have hbounds := mem_addressRange.mp ha
    hmap a hbounds.1 hbounds.2
  obtain ⟨output, hlines, hrest⟩ := uiSession_restore hreads (getUserInput stdin sim).2 hrange hleft
  refine ⟨uiPrompt :: [uiMemUsage] ++ output,
    restoreBus source (addressRange low high) sim.machine.bus, ?_, ?_,
    attachments_restoreBus _ _ _, fun a => ?_⟩
  · rw [uiLoop_eq hgrants _ (newList_tokenList htokens), List.length_cons, List.length_map, hhead,
      hlines]
    rfl
  · rw [List.length_cons, List.length_map]
    exact hrest
  · split_ifs with hshown
    · exact restoreBus_of_mem source _ (mem_addressRange.mpr hshown.1) hshown.2
    · refine restoreBus_of_not source _ fun ha => ?_
      exact Bool.eq_true_of_not_eq_false fun hmemory => hshown ⟨mem_addressRange.mp ha, hmemory⟩

/-- A memory in which each word has its address. -/
def addressSim : Simulator Unit Unit :=
  { blankSim with machine := bareMachine id }

/-- Two words of this memory are put in a blank one. -/
theorem memory_restored_blank :
    ∃ table output bus typed,
      executeCommand bareEnv noFiles 0 ["mem", "read", hexText 0x3000, hexText 0x3001]
          addressSim = some (.continued, table, addressSim) ∧
      typed = text ((table.map restoreCommand).map typedLine) ∧
      uiLoop flushingEnv textStdin noFiles largeAllocator 0 table.length noTokens
          (blankSim.withIo typed) =
        some (none, output, { blankSim.withIo typed with
          machine := { (blankSim.withIo typed).machine with
            bus, deviceIo := textStdin.after table.length typed } }) ∧
      textStdin.after table.length typed = [] ∧
      bus.attachments = [] ∧
      ∀ a, bus.memory a =
        if ((0x3000 : Word) ≤ a ∧ a ≤ 0x3001) ∧
            busIsDeviceRegister addressSim.machine.bus a = false then
          { blankSim.machine.bus.memory a with value := busReadMemory addressSim.machine.bus a }
        else blankSim.machine.bus.memory a := by
  obtain ⟨table, hread, hrestored⟩ := memory_restored bareEnv noFiles 0 addressSim flushingEnv
    noFiles 0 (fun _ => decide_eq_true) newList_inputTokens textStdin_reads 0x3000 0x3001
  obtain ⟨output, bus, hloop, hleft, hattachments, hmemory⟩ :=
    hrestored (blankSim.withIo (text ((table.map restoreCommand).map typedLine))) []
      (fun _ _ _ => rfl) (List.append_nil _).symm
  exact ⟨table, output, bus, _, hread, rfl, hloop, hleft, hattachments, hmemory⟩

end Table

end Lc3Simulator
