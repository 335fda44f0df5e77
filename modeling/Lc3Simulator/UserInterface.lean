import Lc3Simulator.Library.CString
import Lc3Simulator.ProgramLoad

/-!
# The user interface

The functions of `user_interface.c` that carry out a command, in the order of the source, with
`string_to_ll_10_or_16` of `util.c` and `lc3_reg_str_convert` of `lc3_reg.c`. A command is a list of
tokens, each a C string whose characters stand for single bytes. Where the source leaves through its
last argument what it found, and says in its result whether it found anything, the function here
returns an `Option`.

A command leaves the simulator, a status, and what it has printed, a piece for each call of
`printf`. `none` is a command that does not come back, or whose outcome is not determined.

## Main definitions

* `stringToLl10Or16` — a number in a token
* `uiMem`, `uiReg`, `uiStep`, `uiRun`, `uiLoad`, `uiInput`, `uiHelp`, `uiQuit` — the commands
* `executeCommand` — the command that a list of tokens asks for
-/

namespace Lc3Simulator

open CString

/-- `enum ui_status`. -/
inductive UiStatus
  | continued | done | error
  deriving DecidableEq, Repr

/-- `enum ui_reg_mem_mode`. -/
inductive UiRegMemMode
  | read | write
  deriving DecidableEq, Repr

/-- What `fopen` does. The text is what `strerror(errno)` says then. -/
inductive OpenResult
  | opened (file : ProgramFile)
  | noMemory
  | refused (text : String)

/-- The files that can be opened, and what `strerror(errno)` says of one that cannot be read. -/
structure FileSystem where
  openFile : String → OpenResult
  readErrorText : String → String

/-! ### Tokens -/

def uiRegMemModeIndex : ℕ := 1
def uiMemWriteValueIndex : ℕ := 2
def uiMemToken1ReadIndex : ℕ := 2
def uiMemToken2ReadIndex : ℕ := 3
def uiMemToken1WriteIndex : ℕ := 3
def uiMemToken2WriteIndex : ℕ := 4
def uiRegDstIndex : ℕ := 2
def uiRegValIndex : ℕ := 3
def uiStepAmtIndex : ℕ := 1
def uiInputValueIndex : ℕ := 1
def uiLoadFilenameIndex : ℕ := 1

/-- `LOW_ADDRESS` and `HGIH_ADDRESS`. -/
def lowAddress : ℤ := 0
def hgihAddress : ℤ := 0xFFFF

/-- `ui_get_token`. -/
def uiGetToken (tokens : List String) (index : ℕ) : Option String := tokens[index]?

/-- Get a token, and convert it. -/
def convertToken {α : Type} (convert : String → Option α) (index : ℕ) (tokens : List String) :
    Option α :=
  (uiGetToken tokens index).bind convert

/-- `string_to_ll_10_or_16`: the number and `endptr`. The base is 16 if the string starts with `0x`
or `0X`. -/
def stringToLl10Or16 (str : String) : ℤ × List Char :=
  let base := match str.toList with
    | '0' :: x :: _ => if x = 'x' ∨ x = 'X' then 16 else 10
    | _ => 10
  strtol base str.toList

/-- `reg_str_conversion`. -/
def regStrConversion : List (String × Lc3Reg) :=
  [("r0", .r0), ("r1", .r1), ("r2", .r2), ("r3", .r3), ("r4", .r4), ("r5", .r5), ("r6", .r6),
    ("r7", .r7), ("pc", .pc), ("psr", .psr), ("usp", .usp), ("ssp", .ssp)]

/-- `lc3_reg_str_convert`. -/
def lc3RegStrConvert (regStr : String) : Option Lc3Reg :=
  (regStrConversion.find? fun entry => entry.1 = regStr).map Prod.snd

/-- `ui_convert_address_token`. -/
def uiConvertAddressToken (token : String) : Option Word :=
  let (converted, endptr) := stringToLl10Or16 token
  if endptr = token.toList ∨ endptr ≠ [] then none
  else if converted < lowAddress ∨ converted > hgihAddress then none
  else some (BitVec.ofInt 16 converted)

/-- `ui_convert_str_range`. -/
def uiConvertStrRange (str : String) (low high : ℤ) : Option ℤ :=
  let (val, endptr) := stringToLl10Or16 str
  if endptr ≠ str.toList ∧ endptr = [] ∧ low ≤ val ∧ val ≤ high then some val else none

/-- `ui_convert_str_to_uint16`. -/
def uiConvertStrToUint16 (valToken : String) : Option Word :=
  (uiConvertStrRange valToken 0 0xFFFF).map (BitVec.ofInt 16)

/-- `ui_reg_mem_convert_mode`. -/
def uiRegMemConvertMode (modeToken : String) : Option UiRegMemMode :=
  if modeToken = "read" then some .read
  else if modeToken = "write" then some .write
  else none

/-! ### Printing -/

/-- `"0X%04X"`. -/
def hexText (value : Word) : String := "0X" ++ String.ofList (fixedDigits 16 4 value.toNat)

/-- `"%-13s%-13s\n"`. -/
def tableLine (left right : String) : String :=
  String.ofList (left.toList.rightpad 13 ' ' ++ right.toList.rightpad 13 ' ' ++ ['\n'])

def helpString : String :=
  "help - print this message\n" ++
  "mem read [address], (optional)[address] - display all mem between the two addresses\n" ++
  "mem write [value] [address] (optional)[address] - write mem between the two address\n" ++
  "reg read - display registers\n" ++
  "reg write [value] [register] - write register\n" ++
  "run - execute LC-3 program to the end\n" ++
  "step [low] [high] - step LC-3 program between low and high\n" ++
  "load [file] - load lc3 program\n" ++
  "input [16 bit value]\n" ++
  "quit - close simulator\n"

def uiLoadUsage : String := "load usage: load [filename]\n"
def uiMemUsage : String := "mem usage: mem [mode] [write val] [low address] [high address]\n"
def uiRegUsage : String := "reg usage: reg [read/write] [register] [write value]\n"
def uiInputUsage : String := "input usage: input [16 bit value]\n"

/-! ### Commands -/

section Commands

variable {ω ι : Type} (env : Env ω ι)

/-- `command_func`. -/
abbrev CommandFunc (ω ι : Type) :=
  List String → Simulator ω ι → Option (UiStatus × List String × Simulator ω ι)

/-- A command that prints something and goes on. -/
def printed (output : List String) (sim : Simulator ω ι) :
    Option (UiStatus × List String × Simulator ω ι) :=
  some (.continued, output, sim)

/-- `ui_help`. -/
def uiHelp : CommandFunc ω ι := fun _ sim => printed [helpString ++ "\n"] sim

/-- `ui_run`, if `n` rounds are enough. -/
def uiRun (n : ℕ) : CommandFunc ω ι := fun tokens sim =>
  if tokens.length = 1 then do
    let (status, sim) ← simulatorRunUntilEnd env n sim
    return (if status < 0 then .error else .continued, [], sim)
  else
    printed [] sim

/-- `ui_quit`. -/
def uiQuit : CommandFunc ω ι := fun _ sim => some (.done, [], sim)

/-- `ui_load`. Without memory for the file the simulator is aborted. -/
def uiLoad (files : FileSystem) : CommandFunc ω ι := fun tokens sim =>
  match uiGetToken tokens uiLoadFilenameIndex with
  | none => printed [uiLoadUsage] sim
  | some filename =>
    match files.openFile filename with
    | .noMemory => none
    | .refused text => printed [filename ++ ": " ++ text ++ "\n"] sim
    | .opened programFile => do
      let (status, sim) ← loadProgramFile env sim programFile
      if status < 0 then printed [filename ++ ": " ++ files.readErrorText filename ++ "\n"] sim
      else printed [] sim

/-- `for (cur_address = low; cur_address <= high; ++cur_address)`. The counter is a `long`, which is
longer than the `uint16_t` that it is compared with. -/
def addressLoop {σ : Type} (body : Word → σ → Option σ) (high : Word) (curAddress : ℕ) (s : σ) :
    Option σ :=
  if curAddress ≤ high.toNat then do
    let s ← body (BitVec.ofNat 16 curAddress) s
    addressLoop body high (curAddress + 1) s
  else
    some s
termination_by high.toNat + 1 - curAddress

/-- The body of the loop of `ui_mem_print`. -/
def memLine (sim : Simulator ω ι) (curAddress : Word) : String :=
  match simulatorReadAddress sim curAddress with
  | (.value, curValue) => tableLine (hexText curAddress) (hexText curValue)
  | (.deviceRegister, _) => tableLine (hexText curAddress) "DEVICE"
  | (.outOfBounds, _) => tableLine (hexText curAddress) "OUT OF BOUNDS"

/-- `ui_mem_print`. -/
def uiMemPrint (sim : Simulator ω ι) (low high : Word) : Option (List String) :=
  addressLoop (fun curAddress output => some (output ++ [memLine sim curAddress])) high low.toNat
    [tableLine "address" "value"]

/-- `ui_mem_write`. -/
def uiMemWrite (sim : Simulator ω ι) (value low high : Word) : Option (Simulator ω ι) :=
  addressLoop (fun curAddress sim => simulatorWriteAddress env sim curAddress value) high low.toNat
    sim

/-- `ui_mem_get_address_tokens`. A null pointer for the second token is `none`. -/
def uiMemGetAddressTokens (tokens : List String) (mode : UiRegMemMode) :
    Option (String × Option String) := do
  let (lowIndex, highIndex) := match mode with
    | .read => (uiMemToken1ReadIndex, uiMemToken2ReadIndex)
    | .write => (uiMemToken1WriteIndex, uiMemToken2WriteIndex)
  let lowToken ← uiGetToken tokens lowIndex
  return (lowToken, uiGetToken tokens highIndex)

/-- `ui_mem_get_addresses`. -/
def uiMemGetAddresses (tokens : List String) (mode : UiRegMemMode) : Option (Word × Word) := do
  let (lowToken, highToken) ← uiMemGetAddressTokens tokens mode
  let low ← uiConvertAddressToken lowToken
  match highToken with
  | none => return (low, low)
  | some highToken =>
    let high ← uiConvertAddressToken highToken
    return (low, high)

/-- `ui_mem_get_write_val`. -/
def uiMemGetWriteVal : List String → Option Word :=
  convertToken uiConvertStrToUint16 uiMemWriteValueIndex

/-- `ui_mem_get_mode`. -/
def uiMemGetMode : List String → Option UiRegMemMode :=
  convertToken uiRegMemConvertMode uiRegMemModeIndex

/-- `ui_mem`. -/
def uiMem : CommandFunc ω ι := fun tokens sim =>
  match uiMemGetMode tokens with
  | none => printed [uiMemUsage] sim
  | some mode =>
    match uiMemGetAddresses tokens mode with
    | none => printed [uiMemUsage] sim
    | some (low, high) =>
      match mode with
      | .read => (uiMemPrint sim low high).bind fun output => printed output sim
      | .write =>
        match uiMemGetWriteVal tokens with
        | none => printed [uiMemUsage] sim
        | some writeVal => (uiMemWrite env sim writeVal low high).bind (printed [])

/-- `ui_reg_print`. -/
def uiRegPrint (sim : Simulator ω ι) : List String :=
  let shown (name : String) (reg : Lc3Reg) :=
    name ++ ": " ++ hexText (simulatorReadRegister sim reg)
  [shown "R0" .r0 ++ ", " ++ shown "R1" .r1 ++ ", " ++ shown "R2" .r2 ++ ", " ++ shown "R3" .r3 ++
      ", " ++ shown "R4" .r4 ++ ", " ++ shown "R5" .r5 ++ ", " ++ shown "R6" .r6 ++ ", " ++
      shown "R7" .r7 ++ "\n",
    shown "PC" .pc ++ ", " ++ shown "PSR" .psr ++ ", " ++ shown "USP" .usp ++ ", " ++
      shown "SSP" .ssp ++ "\n"]

/-- `ui_reg_get_dst`. -/
def uiRegGetDst : List String → Option Lc3Reg := convertToken lc3RegStrConvert uiRegDstIndex

/-- `ui_reg_get_val`. -/
def uiRegGetVal : List String → Option Word := convertToken uiConvertStrToUint16 uiRegValIndex

/-- `ui_reg_get_mode`. -/
def uiRegGetMode : List String → Option UiRegMemMode :=
  convertToken uiRegMemConvertMode uiRegMemModeIndex

/-- `ui_reg`. -/
def uiReg : CommandFunc ω ι := fun tokens sim =>
  match uiRegGetMode tokens with
  | none => printed [uiRegUsage] sim
  | some .read => printed (uiRegPrint sim) sim
  | some .write =>
    match uiRegGetVal tokens with
    | none => printed [uiRegUsage] sim
    | some val =>
      match uiRegGetDst tokens with
      | none => printed [uiRegUsage] sim
      | some regDst => printed [] (simulatorWriteRegister sim regDst val)

/-- `ui_step_get_amt`. -/
def uiStepGetAmt (tokens : List String) : Option ℤ :=
  match uiGetToken tokens uiStepAmtIndex with
  | none => some 1
  | some stepAmtToken => uiConvertStrRange stepAmtToken 0 (2 ^ 63 - 1)

/-- `ui_input_get_val`. The character is widened as a signed one. -/
def uiInputGetVal (tokens : List String) : Option Word := do
  let inputToken ← uiGetToken tokens uiInputValueIndex
  match inputToken.toList with
  | [c] => some ((BitVec.ofNat 8 c.toNat).signExtend 16)
  | _ => none

/-- `ui_input`. -/
def uiInput : CommandFunc ω ι := fun tokens sim =>
  match uiInputGetVal tokens with
  | none => printed [uiInputUsage] sim
  | some input => (simulatorUpdateDevicesInput env sim input).bind (printed [])

/-- `ui_step`. A step that returns no determined status leaves the outcome open. -/
def uiStep : CommandFunc ω ι := fun tokens sim =>
  match uiStepGetAmt tokens with
  | none => printed [] sim
  | some stepAmt => do
    let (stepStatus, sim) ← simulatorStep env stepAmt sim
    let stepStatus ← stepStatus
    return (if stepStatus < 0 then .error else .continued, uiRegPrint sim, sim)

/-- `commands`. -/
def commands (files : FileSystem) (n : ℕ) : List (String × CommandFunc ω ι) :=
  [("step", uiStep env), ("help", uiHelp), ("run", uiRun env n), ("mem", uiMem env),
    ("reg", uiReg), ("load", uiLoad env files), ("input", uiInput env), ("quit", uiQuit)]

/-- `get_command_func`. -/
def getCommandFunc (files : FileSystem) (n : ℕ) (command : String) : Option (CommandFunc ω ι) :=
  ((commands env files n).find? fun cur => cur.1 = command).map Prod.snd

/-- `execute_command`. -/
def executeCommand (files : FileSystem) (n : ℕ) : CommandFunc ω ι := fun tokens sim =>
  match tokens with
  | [] => printed [] sim
  | command :: _ =>
    match getCommandFunc env files n command with
    | none => printed [command ++ ": invalid command\n"] sim
    | some func => func tokens sim

end Commands

end Lc3Simulator
