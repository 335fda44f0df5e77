import Lc3Simulator.Library.KeyedLookup
import Lc3Simulator.UserInterface

/-!
# What a command does to the simulator

A command to look at or to change memory or registers has many shapes that are wrong, and each of
its tokens is checked by a function of its own. What comes of it is simple: either the tokens are
those of a write, and the write is carried out, or the simulator is left as it was.

## Main definitions

* `Denotes` — a token is a number of 16 bits
* `Accepted` — the tokens of a write
* `UiWrite.carryOut` — what the write does
* `addressRange` — the addresses from one to another

## Main results

* `addressLoop_eq` — the loop over addresses, whose counter does not wrap
* `executeCommand_effect` — all or nothing
* `hexText_denotes` — the numbers that are printed are accepted
-/

namespace Lc3Simulator

open CString

/-! ### The loop over addresses -/

/-- The addresses from `low` to `high`. -/
def addressRange (low high : Word) : List Word :=
  (List.range' low.toNat (high.toNat + 1 - low.toNat)).map (BitVec.ofNat 16)

/-- **The loop** runs its body on each address from its counter on, and ends. -/
theorem addressLoop_eq {σ : Type} (body : Word → σ → Option σ) (high : Word) (curAddress : ℕ)
    (s : σ) : addressLoop body high curAddress s =
      ((List.range' curAddress (high.toNat + 1 - curAddress)).map (BitVec.ofNat 16)).foldlM
        (fun s address => body address s) s := by
  induction hcount : high.toNat + 1 - curAddress generalizing curAddress s with
  | zero =>
    rw [addressLoop, if_neg (by omega)]
    rfl
  | succ count ih =>
    rw [addressLoop, if_pos (by omega), List.range'_succ, List.map_cons, List.foldlM_cons]
    exact bind_congr fun s' => ih (curAddress + 1) s' (by omega)

theorem mem_addressRange {low high a : Word} : a ∈ addressRange low high ↔ low ≤ a ∧ a ≤ high := by
  rw [addressRange, List.mem_map, BitVec.le_def, BitVec.le_def]
  constructor
  · rintro ⟨i, hi, rfl⟩
    have hlt := high.isLt
    rw [List.mem_range'_1] at hi
    rw [BitVec.toNat_ofNat, Nat.mod_eq_of_lt (by omega)]
    omega
  · rintro ⟨hlow, hhigh⟩
    refine ⟨a.toNat, List.mem_range'_1.mpr ⟨hlow, by omega⟩, ?_⟩
    exact BitVec.eq_of_toNat_eq (by rw [BitVec.toNat_ofNat, Nat.mod_eq_of_lt a.isLt])

/-- The addresses come in ascending order, and none of them twice. -/
theorem addressRange_ascending (low high : Word) : (addressRange low high).Pairwise (· < ·) := by
  rw [addressRange, List.pairwise_map]
  have hlt := high.isLt
  refine List.Pairwise.imp_of_mem (fun {i j} hi hj hij => ?_) List.pairwise_lt_range'
  rw [List.mem_range'_1] at hi hj
  rw [BitVec.lt_def, BitVec.toNat_ofNat, BitVec.toNat_ofNat, Nat.mod_eq_of_lt (by omega),
    Nat.mod_eq_of_lt (by omega)]
  exact hij

/-! ### The tokens of a write -/

/-- The token is a number that fits into 16 bits, and nothing else. -/
def Denotes (token : String) (w : Word) : Prop :=
  token ≠ "" ∧ stringToLl10Or16 token = ((w.toNat : ℤ), [])

/-- A write that the user asks for. -/
inductive UiWrite
  | mem (value low high : Word)
  | reg (r : Lc3Reg) (value : Word)

/-- The tokens of a write. The second address may be left out, and what comes behind the last token
that is needed does not matter. -/
inductive Accepted : List String → UiWrite → Prop
  | mem {valToken lowToken : String} {value low : Word} (hvalue : Denotes valToken value)
      (hlow : Denotes lowToken low) :
      Accepted ["mem", "write", valToken, lowToken] (.mem value low low)
  | memRange {valToken lowToken highToken : String} {value low high : Word} {rest : List String}
      (hvalue : Denotes valToken value) (hlow : Denotes lowToken low)
      (hhigh : Denotes highToken high) :
      Accepted ("mem" :: "write" :: valToken :: lowToken :: highToken :: rest)
        (.mem value low high)
  | reg {regToken valToken : String} {r : Lc3Reg} {value : Word} {rest : List String}
      (hreg : (regToken, r) ∈ regStrConversion) (hvalue : Denotes valToken value) :
      Accepted ("reg" :: "write" :: regToken :: valToken :: rest) (.reg r value)

/-- One write for each address, in ascending order, or the write of one register. -/
def UiWrite.carryOut {ω ι : Type} (env : Env ω ι) (sim : Simulator ω ι) :
    UiWrite → Option (Simulator ω ι)
  | .mem value low high =>
    (addressRange low high).foldlM
      (fun sim address => simulatorWriteAddress env sim address value) sim
  | .reg r value =>
    some { sim with
      cpu := { sim.cpu with registers := Function.update sim.cpu.registers r value } }

/-- What the two converting functions find out about a token. -/
theorem denotes_iff {token : String} {w : Word} {converted : ℤ} {endptr : List Char}
    (h : stringToLl10Or16 token = (converted, endptr)) :
    Denotes token w ↔ (endptr ≠ token.toList ∧ endptr = [] ∧ 0 ≤ converted ∧ converted ≤ 0xFFFF) ∧
      BitVec.ofInt 16 converted = w := by
  rw [Denotes, h, Prod.mk.injEq, ne_eq, ne_eq, ← String.toList_inj]
  constructor
  · rintro ⟨hne, rfl, rfl⟩
    have hlt := w.isLt
    refine ⟨⟨fun heq => hne heq.symm, rfl, by omega, by omega⟩, ?_⟩
    rw [BitVec.ofInt_natCast]
    exact BitVec.eq_of_toNat_eq (by rw [BitVec.toNat_ofNat, Nat.mod_eq_of_lt hlt])
  · rintro ⟨⟨hne, rfl, hlow, hhigh⟩, rfl⟩
    refine ⟨fun heq => hne heq.symm, ?_, rfl⟩
    rw [BitVec.toNat_ofInt]
    omega

theorem uiConvertStrToUint16_iff {token : String} {w : Word} :
    uiConvertStrToUint16 token = some w ↔ Denotes token w := by
  rcases hread : stringToLl10Or16 token with ⟨converted, endptr⟩
  rw [denotes_iff hread, uiConvertStrToUint16, uiConvertStrRange, hread]
  simp

theorem uiConvertAddressToken_iff {token : String} {w : Word} :
    uiConvertAddressToken token = some w ↔ Denotes token w := by
  rcases hread : stringToLl10Or16 token with ⟨converted, endptr⟩
  rw [denotes_iff hread, uiConvertAddressToken, hread]
  dsimp only
  by_cases hend : endptr = token.toList ∨ endptr ≠ []
  · rw [if_pos hend]
    refine iff_of_false (Option.some_ne_none w).symm ?_
    rintro ⟨⟨hne, hnil, -⟩, -⟩
    exact hend.elim hne (· hnil)
  · rw [if_neg hend]
    obtain ⟨hne, hnil⟩ := not_or.mp hend
    by_cases hrange : converted < lowAddress ∨ converted > hgihAddress
    · rw [if_pos hrange]
      rw [lowAddress, hgihAddress] at hrange
      refine iff_of_false (Option.some_ne_none w).symm ?_
      rintro ⟨⟨-, -, hlow, hhigh⟩, -⟩
      omega
    · rw [if_neg hrange, Option.some_inj]
      rw [lowAddress, hgihAddress] at hrange
      exact (and_iff_right ⟨hne, not_not.mp hnil, by omega, by omega⟩).symm

theorem lc3RegStrConvert_iff {regStr : String} {r : Lc3Reg} :
    lc3RegStrConvert regStr = some r ↔ (regStr, r) ∈ regStrConversion := by
  have hdistinct : KeyedLookup.Distinct Eq Prod.fst regStrConversion := by
    rw [KeyedLookup.Distinct]
    decide
  have hentry (entry : String × Lc3Reg) :
      regStrConversion.find? (fun entry => entry.1 = regStr) = some entry ↔
        entry ∈ regStrConversion ∧ entry.1 = regStr :=
    KeyedLookup.lookup_eq_some_iff eq_equivalence hdistinct
  rw [lc3RegStrConvert, Option.map_eq_some_iff]
  constructor
  · rintro ⟨⟨name, r'⟩, hfind, rfl⟩
    obtain ⟨hmem, rfl⟩ := (hentry _).mp hfind
    exact hmem
  · intro hmem
    exact ⟨(regStr, r), (hentry _).mpr ⟨hmem, rfl⟩, rfl⟩

theorem uiRegMemConvertMode_iff {modeToken : String} :
    uiRegMemConvertMode modeToken = some .write ↔ modeToken = "write" := by
  rw [uiRegMemConvertMode]
  by_cases hread : modeToken = "read"
  · rw [if_pos hread, hread]
    decide
  · rw [if_neg hread]
    by_cases hwrite : modeToken = "write" <;> simp [hwrite]

/-! ### What is accepted -/

theorem convertToken_eq_some {α : Type} {convert : String → Option α} {index : ℕ}
    {tokens : List String} {a : α} : convertToken convert index tokens = some a ↔
      ∃ token, tokens[index]? = some token ∧ convert token = some a :=
  Option.bind_eq_some_iff

/-- Tokens by their indices. -/
theorem eq_of_getElem? {tokens : List String} {a b c d : String} (ha : tokens[0]? = some a)
    (hb : tokens[1]? = some b) (hc : tokens[2]? = some c) (hd : tokens[3]? = some d) :
    ∃ rest, tokens = a :: b :: c :: d :: rest := by
  rcases tokens with _ | ⟨a', _ | ⟨b', _ | ⟨c', _ | ⟨d', rest⟩⟩⟩⟩
  · cases ha
  · cases hb
  · cases hc
  · cases hd
  · obtain rfl := Option.some.inj ha
    obtain rfl := Option.some.inj hb
    obtain rfl := Option.some.inj hc
    obtain rfl := Option.some.inj hd
    exact ⟨rest, rfl⟩

/-- The addresses of a write. -/
theorem uiMemGetAddresses_iff {tokens : List String} {low high : Word} :
    uiMemGetAddresses tokens .write = some (low, high) ↔ ∃ lowToken, tokens[3]? = some lowToken ∧
      Denotes lowToken low ∧ ((tokens[4]? = none ∧ high = low) ∨
        ∃ highToken, tokens[4]? = some highToken ∧ Denotes highToken high) := by
  rw [uiMemGetAddresses, uiMemGetAddressTokens]
  simp only [uiGetToken, uiMemToken1WriteIndex, uiMemToken2WriteIndex]
  cases hlow : tokens[3]? with
  | none => simp
  | some lowToken =>
    cases hhigh : tokens[4]? with
    | none =>
      simp only [Option.bind_eq_bind, Option.bind_some, Option.pure_def, Option.bind_eq_some_iff,
        uiConvertAddressToken_iff, Option.some_inj, Prod.mk.injEq]
      constructor
      · rintro ⟨low', hdenotes, rfl, rfl⟩
        exact ⟨lowToken, rfl, hdenotes, Or.inl ⟨trivial, rfl⟩⟩
      · rintro ⟨lowToken', rfl, hdenotes, ⟨-, rfl⟩ | ⟨highToken, hsome, -⟩⟩
        · exact ⟨high, hdenotes, rfl, rfl⟩
        · cases hsome
    | some highToken =>
      simp only [Option.bind_eq_bind, Option.bind_some, Option.pure_def, Option.bind_eq_some_iff,
        uiConvertAddressToken_iff, Option.some_inj, Prod.mk.injEq]
      constructor
      · rintro ⟨low', hdenotes, high', hhighDenotes, rfl, rfl⟩
        exact ⟨lowToken, rfl, hdenotes, Or.inr ⟨highToken, rfl, hhighDenotes⟩⟩
      · rintro ⟨lowToken', rfl, hdenotes, ⟨hnone, -⟩ | ⟨highToken', rfl, hhighDenotes⟩⟩
        · cases hnone
        · exact ⟨low, hdenotes, high, hhighDenotes, rfl, rfl⟩

theorem accepted_mem_iff {tokens : List String} {value low high : Word} :
    Accepted tokens (.mem value low high) ↔ tokens[0]? = some "mem" ∧
      uiMemGetMode tokens = some .write ∧ uiMemGetAddresses tokens .write = some (low, high) ∧
      uiMemGetWriteVal tokens = some value := by
  rw [uiMemGetAddresses_iff, uiMemGetMode, uiMemGetWriteVal, convertToken_eq_some,
    convertToken_eq_some]
  simp only [uiRegMemConvertMode_iff, uiConvertStrToUint16_iff, uiRegMemModeIndex,
    uiMemWriteValueIndex]
  constructor
  · intro h
    cases h with
    | mem hvalue hlow =>
      exact ⟨rfl, ⟨_, rfl, rfl⟩, ⟨_, rfl, hlow, Or.inl ⟨rfl, rfl⟩⟩, ⟨_, rfl, hvalue⟩⟩
    | memRange hvalue hlow hhigh =>
      exact ⟨rfl, ⟨_, rfl, rfl⟩, ⟨_, rfl, hlow, Or.inr ⟨_, rfl, hhigh⟩⟩, ⟨_, rfl, hvalue⟩⟩
  · rintro ⟨hcommand, ⟨_, hmode, rfl⟩, ⟨lowToken, hlow, hlowDenotes, hhigh⟩, valToken, hval, hvalue⟩
    obtain ⟨rest, rfl⟩ := eq_of_getElem? hcommand hmode hval hlow
    cases rest with
    | nil =>
      obtain ⟨-, rfl⟩ | ⟨highToken, hnone, -⟩ := hhigh
      · exact Accepted.mem hvalue hlowDenotes
      · cases hnone
    | cons highToken rest =>
      obtain ⟨hnone, -⟩ | ⟨_, hhigh, hhighDenotes⟩ := hhigh
      · cases hnone
      · obtain rfl := Option.some.inj hhigh
        exact Accepted.memRange hvalue hlowDenotes hhighDenotes

theorem accepted_reg_iff {tokens : List String} {r : Lc3Reg} {value : Word} :
    Accepted tokens (.reg r value) ↔ tokens[0]? = some "reg" ∧
      uiRegGetMode tokens = some .write ∧ uiRegGetVal tokens = some value ∧
      uiRegGetDst tokens = some r := by
  rw [uiRegGetMode, uiRegGetVal, uiRegGetDst, convertToken_eq_some, convertToken_eq_some,
    convertToken_eq_some]
  simp only [uiRegMemConvertMode_iff, uiConvertStrToUint16_iff, lc3RegStrConvert_iff,
    uiRegMemModeIndex, uiRegValIndex, uiRegDstIndex]
  constructor
  · intro h
    cases h with
    | reg hreg hvalue => exact ⟨rfl, ⟨_, rfl, rfl⟩, ⟨_, rfl, hvalue⟩, ⟨_, rfl, hreg⟩⟩
  · rintro ⟨hcommand, ⟨_, hmode, rfl⟩, ⟨valToken, hval, hvalue⟩, regToken, hdst, hreg⟩
    obtain ⟨rest, rfl⟩ := eq_of_getElem? hcommand hmode hdst hval
    exact Accepted.reg hreg hvalue

/-! ### Every list of tokens -/

section Effects

variable {ω ι : Type} (env : Env ω ι) (files : FileSystem) (n : ℕ) {tokens : List String}
  (sim : Simulator ω ι)

/-- The tokens are those of a write and the write is carried out, or they are not and the simulator
is left as it was. -/
def AllOrNothing (tokens : List String)
    (outcome : Option (UiStatus × List String × Simulator ω ι)) : Prop :=
  (∃ write, Accepted tokens write ∧
    outcome = (write.carryOut env sim).map fun sim' => (.continued, [], sim')) ∨
  ((∀ write, ¬ Accepted tokens write) ∧ ∃ output, outcome = some (.continued, output, sim))

/-- Reading memory prints a line for each address. -/
theorem uiMemPrint_eq (low high : Word) : uiMemPrint sim low high =
    some (tableLine "address" "value" :: (addressRange low high).map (memLine sim)) := by
  have hlines (output : List String) (l : List Word) :
      l.foldlM (fun output address => some (output ++ [memLine sim address])) output =
        some (output ++ l.map (memLine sim)) := by
    induction l generalizing output with
    | nil => rw [List.map_nil, List.append_nil]; rfl
    | cons address l ih =>
      rw [List.foldlM_cons, List.map_cons]
      exact (ih _).trans (by rw [List.append_assoc, List.singleton_append])
  rw [uiMemPrint, addressLoop_eq]
  exact hlines _ _

/-- Writing memory writes each address. -/
theorem uiMemWrite_eq (value low high : Word) :
    uiMemWrite env sim value low high = (UiWrite.mem value low high).carryOut env sim :=
  addressLoop_eq _ _ _ _

variable {sim}

theorem AllOrNothing.nothing {output : List String} (h : ∀ write, ¬ Accepted tokens write) :
    AllOrNothing env sim tokens (printed output sim) :=
  Or.inr ⟨h, output, rfl⟩

theorem not_accepted_mem (hcommand : tokens[0]? = some "mem")
    (h : uiMemGetMode tokens ≠ some .write ∨ uiMemGetAddresses tokens .write = none ∨
      uiMemGetWriteVal tokens = none) : ∀ write, ¬ Accepted tokens write := by
  intro write haccepted
  cases write with
  | mem value low high =>
    obtain ⟨-, hmode, haddresses, hvalue⟩ := accepted_mem_iff.mp haccepted
    rcases h with h | h | h
    · exact h hmode
    · exact Option.some_ne_none _ (haddresses.symm.trans h)
    · exact Option.some_ne_none _ (hvalue.symm.trans h)
  | reg r value =>
    have hreg := (accepted_reg_iff.mp haccepted).1
    exact absurd (Option.some.inj (hcommand.symm.trans hreg)) (by decide)

theorem not_accepted_reg (hcommand : tokens[0]? = some "reg")
    (h : uiRegGetMode tokens ≠ some .write ∨ uiRegGetVal tokens = none ∨
      uiRegGetDst tokens = none) : ∀ write, ¬ Accepted tokens write := by
  intro write haccepted
  cases write with
  | reg r value =>
    obtain ⟨-, hmode, hvalue, hdst⟩ := accepted_reg_iff.mp haccepted
    rcases h with h | h | h
    · exact h hmode
    · exact Option.some_ne_none _ (hvalue.symm.trans h)
    · exact Option.some_ne_none _ (hdst.symm.trans h)
  | mem value low high =>
    have hmem := (accepted_mem_iff.mp haccepted).1
    exact absurd (Option.some.inj (hcommand.symm.trans hmem)) (by decide)

theorem uiMem_allOrNothing (hcommand : tokens[0]? = some "mem") :
    AllOrNothing env sim tokens (uiMem env tokens sim) := by
  rw [uiMem]
  cases hmode : uiMemGetMode tokens with
  | none =>
    refine AllOrNothing.nothing env (not_accepted_mem hcommand (Or.inl ?_))
    rw [hmode]
    exact (Option.some_ne_none _).symm
  | some mode =>
    cases mode with
    | read =>
      have hnot := not_accepted_mem hcommand (Or.inl (by rw [hmode]; decide))
      dsimp only
      cases uiMemGetAddresses tokens .read with
      | none => exact AllOrNothing.nothing env hnot
      | some addresses =>
        dsimp only
        rw [uiMemPrint_eq, Option.bind_some]
        exact AllOrNothing.nothing env hnot
    | write =>
      dsimp only
      cases haddresses : uiMemGetAddresses tokens .write with
      | none =>
        exact AllOrNothing.nothing env (not_accepted_mem hcommand (Or.inr (Or.inl haddresses)))
      | some addresses =>
        obtain ⟨low, high⟩ := addresses
        dsimp only
        cases hvalue : uiMemGetWriteVal tokens with
        | none =>
          exact AllOrNothing.nothing env (not_accepted_mem hcommand (Or.inr (Or.inr hvalue)))
        | some value =>
          refine Or.inl ⟨.mem value low high,
            accepted_mem_iff.mpr ⟨hcommand, hmode, haddresses, hvalue⟩, ?_⟩
          dsimp only
          rw [uiMemWrite_eq, Option.map_eq_bind]
          rfl

theorem uiReg_allOrNothing (hcommand : tokens[0]? = some "reg") :
    AllOrNothing env sim tokens (uiReg tokens sim) := by
  rw [uiReg]
  cases hmode : uiRegGetMode tokens with
  | none =>
    refine AllOrNothing.nothing env (not_accepted_reg hcommand (Or.inl ?_))
    rw [hmode]
    exact (Option.some_ne_none _).symm
  | some mode =>
    cases mode with
    | read =>
      refine AllOrNothing.nothing env (not_accepted_reg hcommand (Or.inl ?_))
      rw [hmode]
      decide
    | write =>
      cases hvalue : uiRegGetVal tokens with
      | none => exact AllOrNothing.nothing env (not_accepted_reg hcommand (Or.inr (Or.inl hvalue)))
      | some value =>
        cases hdst : uiRegGetDst tokens with
        | none => exact AllOrNothing.nothing env (not_accepted_reg hcommand (Or.inr (Or.inr hdst)))
        | some r =>
          exact Or.inl ⟨.reg r value, accepted_reg_iff.mpr ⟨hcommand, hmode, hvalue, hdst⟩, rfl⟩

theorem not_accepted_other (hmem : tokens[0]? ≠ some "mem") (hreg : tokens[0]? ≠ some "reg") :
    ∀ write, ¬ Accepted tokens write := by
  intro write haccepted
  cases write with
  | mem value low high => exact hmem (accepted_mem_iff.mp haccepted).1
  | reg r value => exact hreg (accepted_reg_iff.mp haccepted).1

/-- The commands that do more than look at or change memory and registers. -/
def runningCommands : List String := ["step", "run", "load", "input", "quit"]

/-- What is no command has no function. -/
theorem getCommandFunc_eq_none {command : String} (hmem : command ≠ "mem") (hreg : command ≠ "reg")
    (hhelp : command ≠ "help") (hrunning : command ∉ runningCommands) :
    getCommandFunc env files n command = none := by
  rw [runningCommands] at hrunning
  simp only [List.mem_cons, List.not_mem_nil, or_false, not_or] at hrunning
  obtain ⟨hstep, hrun, hload, hinput, hquit⟩ := hrunning
  simp [getCommandFunc, commands, hmem.symm, hreg.symm, hhelp.symm, Ne.symm hstep, Ne.symm hrun,
    Ne.symm hload, Ne.symm hinput, Ne.symm hquit]

/-- **All or nothing.** A command that is `mem`, `reg`, `help`, unknown or missing either has the
tokens of a write, and then it writes the value to each address of the range in ascending order, or
to the register that is named, and to nothing else; or it leaves the simulator as it was. The range
of a write is all of the addresses from the first to the second. -/
theorem executeCommand_effect (tokens : List String) (sim : Simulator ω ι)
    (hcommand : ∀ command ∈ tokens.head?, command ∉ runningCommands) :
    AllOrNothing env sim tokens (executeCommand env files n tokens sim) ∧
    ∀ low high : Word, (addressRange low high).Pairwise (· < ·) ∧
      ∀ a, a ∈ addressRange low high ↔ low ≤ a ∧ a ≤ high := by
  refine ⟨?_, fun low high => ⟨addressRange_ascending low high, fun _ => mem_addressRange⟩⟩
  cases tokens with
  | nil => exact AllOrNothing.nothing env (not_accepted_other (by simp) (by simp))
  | cons command args =>
    have hrunning : command ∉ runningCommands := hcommand command rfl
    by_cases hmem : command = "mem"
    · subst hmem
      exact uiMem_allOrNothing env rfl
    · by_cases hreg : command = "reg"
      · subst hreg
        exact uiReg_allOrNothing env rfl
      · have hnot : ∀ write, ¬ Accepted (command :: args) write :=
          not_accepted_other (by simpa using hmem) (by simpa using hreg)
        by_cases hhelp : command = "help"
        · subst hhelp
          exact AllOrNothing.nothing env hnot
        · rw [executeCommand, getCommandFunc_eq_none env files n hmem hreg hhelp hrunning]
          exact AllOrNothing.nothing env hnot

end Effects

/-- No file can be opened. -/
def noFiles : FileSystem := ⟨fun _ => .refused "No such file or directory", fun _ => ""⟩

theorem executeCommand_effect_top :
    (∀ command ∈ ["mem", "write", "0xABCD", "0xFFFE", "65535"].head?, command ∉ runningCommands) ∧
    AllOrNothing bareEnv blankSim ["mem", "write", "0xABCD", "0xFFFE", "65535"]
      (executeCommand bareEnv noFiles 0 ["mem", "write", "0xABCD", "0xFFFE", "65535"] blankSim) ∧
    Accepted ["mem", "write", "0xABCD", "0xFFFE", "65535"] (.mem 0xABCD 0xFFFE 0xFFFF) ∧
    addressRange 0xFFFE 0xFFFF = [0xFFFE, 0xFFFF] := by
  have hcommand : ∀ command ∈ ["mem", "write", "0xABCD", "0xFFFE", "65535"].head?,
      command ∉ runningCommands := by decide
  refine ⟨hcommand, (executeCommand_effect bareEnv noFiles 0 _ blankSim hcommand).1, ?_, by decide⟩
  exact Accepted.memRange ⟨by decide, by decide +kernel⟩ ⟨by decide, by decide +kernel⟩
    ⟨by decide, by decide +kernel⟩

/-! ### What is printed can be typed -/

/-- **The numbers that are printed are accepted.** An address or a value is printed as a token that
denotes it. -/
theorem hexText_denotes (w : Word) : Denotes (hexText w) w := by
  have hlist : (hexText w).toList = '0' :: 'X' :: fixedDigits 16 4 w.toNat := by
    rw [hexText, String.toList_append, String.toList_ofList, String.toList_ofList]
    rfl
  have hlt : w.toNat < 16 ^ 4 := w.isLt
  have hmin : min longMax ((w.toNat % 16 ^ 4 : ℕ) : ℤ) = w.toNat := by
    rw [Nat.mod_eq_of_lt hlt, longMax]
    omega
  constructor
  · intro hempty
    rw [hempty] at hlist
    cases hlist
  · rw [stringToLl10Or16, hlist]
    exact (strtol_fixedDigits 3 w.toNat).trans (by rw [hmin])

end Lc3Simulator
