import Lc3Simulator.Privilege
import Lc3Simulator.Simulator

/-!
# Loading a program

A program file is read two bytes at a time. The first word is the origin, and each of the others
goes to the address after the one before it, by a counter of 16 bits that nobody checks.

What the writes do is said for any addresses and any number of words: the words for device
registers go to their devices, in order, and of the words for an address of ordinary memory the
last one stays. If the words fit between the origin and the last address there is one word for an
address at most.

## Main definitions

* `ProgramFile`, `programReader` — the open file and the callback that reads it
* `lastWord` — the last of the words that is for an address
* `writeRegisters` — the words for device registers only
* `PlacesFile` — memory and PC after a file was loaded

## Main results

* `programReader_delivers` — the words that the callback delivers, and its last result
* `loadWords_eq` — what the loop does to memory and to devices
* `loadProgramFile_places_iff` — a file is placed if and only if it fits
-/

namespace Lc3Simulator

open Transition

/-! ### The file and its reader -/

/-- An open file: the bytes still to come, and whether an error follows them instead of the end of
the file. -/
structure ProgramFile where
  bytes : List Byte
  readError : Bool
  deriving DecidableEq, Repr

/-- The `uint16_t` that two bytes in memory are, on the little-endian machines the simulator is
built for. -/
def wordOfMemory (first second : Byte) : Word := second ++ first

/-- `ntohs`, which exchanges the two bytes there. -/
def ntohs (word : Word) : Word := word.extractLsb' 0 8 ++ word.extractLsb' 8 8

/-- `fread(program_word, sizeof(uint16_t), 1, program_file)`: the number of words read, the word and
the file. A last byte on its own is read, and is not a word. -/
def freadWord (file : ProgramFile) : ℤ × Word × ProgramFile :=
  match file.bytes with
  | first :: second :: rest => (1, wordOfMemory first second, { file with bytes := rest })
  | _ => (0, 0, { file with bytes := [] })

/-- `program_reader`: its result, the word it leaves and the file. `ferror` is true of a file that
was read up to its error. -/
def programReader (file : ProgramFile) : ℤ × Word × ProgramFile :=
  let (result, programWord, file) := freadWord file
  if result = 0 ∧ file.readError then (-1, programWord, file)
  else if result = 0 then (0, programWord, file)
  else (result, ntohs programWord, file)

/-- The results of a callback from some data on: positive ones with these words, and a last one that
is not positive. -/
inductive CallbackDelivers {δ : Type} (callback : δ → ℤ × Word × δ) : δ → List Word → ℤ → Prop
  | last (data : δ) (hresult : ¬ 0 < (callback data).1) :
      CallbackDelivers callback data [] (callback data).1
  | word (data : δ) {words : List Word} {last : ℤ} (hresult : 0 < (callback data).1)
      (hrest : CallbackDelivers callback (callback data).2.2 words last) :
      CallbackDelivers callback data ((callback data).2.1 :: words) last

/-- The words of a file: two bytes each, the high one first. -/
def programWords : List Byte → List Word
  | high :: low :: rest => (high ++ low) :: programWords rest
  | _ => []

theorem ntohs_wordOfMemory (first second : Byte) :
    ntohs (wordOfMemory first second) = first ++ second := by
  have hlow : (second ++ first : Word).extractLsb' 0 8 = first := BitVec.extractLsb'_append_eq_right
  have hhigh : (second ++ first : Word).extractLsb' 8 8 = second :=
    BitVec.extractLsb'_append_eq_left
  rw [ntohs, wordOfMemory, hlow, hhigh]

theorem CallbackDelivers.of_word {δ : Type} {callback : δ → ℤ × Word × δ} {data data' : δ}
    {word : Word} {words : List Word} {last : ℤ} (h : callback data = (1, word, data'))
    (hrest : CallbackDelivers callback data' words last) :
    CallbackDelivers callback data (word :: words) last := by
  have hresult : 0 < (callback data).1 := by rw [h]; exact Int.one_pos
  have hnext : CallbackDelivers callback (callback data).2.2 words last := by rw [h]; exact hrest
  have hword := CallbackDelivers.word data hresult hnext
  rw [h] at hword
  exact hword

theorem CallbackDelivers.of_last {δ : Type} {callback : δ → ℤ × Word × δ} {data : δ} {last : ℤ}
    (h : (callback data).1 = last) (hlast : ¬ 0 < last) :
    CallbackDelivers callback data [] last := by
  subst h
  exact CallbackDelivers.last data hlast

/-- **The reader** delivers the words of the file, and then tells an error from the end. -/
theorem programReader_delivers (file : ProgramFile) :
    CallbackDelivers programReader file (programWords file.bytes)
      (if file.readError then -1 else 0) := by
  obtain ⟨bytes, readError⟩ := file
  induction bytes using programWords.induct with
  | case1 high low rest ih =>
    refine CallbackDelivers.of_word ?_ ih
    rw [← ntohs_wordOfMemory]
    rfl
  | case2 bytes hshort =>
    have hfread : freadWord ⟨bytes, readError⟩ = (0, 0, ⟨[], readError⟩) := by
      rw [freadWord]
      split
      · rename_i high low rest heq
        exact absurd heq (hshort high low rest)
      · rfl
    have hwords : programWords bytes = [] := by
      rw [programWords]
      exact hshort
    rw [hwords]
    refine CallbackDelivers.of_last ?_ ?_
    · rw [programReader, hfread]
      cases readError <;> rfl
    · show ¬ (0 : ℤ) < if readError then -1 else 0
      cases readError <;> decide

/-- `simulator_load_program` with `program_reader` and an open file. -/
def loadProgramFile {ω ι : Type} (env : Env ω ι) (sim : Simulator ω ι) (file : ProgramFile) :
    Option (ℤ × Simulator ω ι) :=
  simulatorLoadProgram env sim (programWords file.bytes) (if file.readError then -1 else 0)

/-! ### What the loop does -/

/-- The last of the words, for the addresses from `cur` on, that is for the address `a`. -/
def lastWord (a : Word) : Word → List Word → Option Word
  | _, [] => none
  | cur, word :: rest => (lastWord a (cur + 1) rest).or (if cur = a then some word else none)

/-- The cells of memory after words were written to the addresses from `cur` on. -/
def storeWords (memory : Word → Mem) (cur : Word) (words : List Word) (a : Word) : Mem :=
  if (memory a).attachmentFlag then memory a
  else { memory a with value := (lastWord a cur words).getD (memory a).value }

variable {ω ι : Type} {env : Env ω ι} {m m' : Machine ω ι} {cur address value : Word}

/-- The words for device registers, written to them in order. -/
def writeRegisters (env : Env ω ι) (m : Machine ω ι) (cur : Word) :
    List Word → Option (Machine ω ι)
  | [] => some m
  | word :: rest =>
    if (m.bus.memory cur).attachmentFlag then
      (busWrite env m cur word).bind fun m => writeRegisters env m (cur + 1) rest
    else writeRegisters env m (cur + 1) rest

/-- Other cells, at the same addresses of devices. -/
def Machine.withMemory (m : Machine ω ι) (memory : Word → Mem) : Machine ω ι :=
  { m with bus := { m.bus with memory } }

theorem hostCall_withMemory (m : Machine ω ι) (memory : Word → Mem) (call : HostCall) :
    hostCall env (m.withMemory memory) call =
      (hostCall env m call).map (·.withMemory memory) := by
  cases call with
  | writeOutput output => rfl
  | alertInterrupt vec priority =>
    show (interruptControllerAlert m.interCont vec priority).bind _ =
      ((interruptControllerAlert m.interCont vec priority).bind _).map _
    cases interruptControllerAlert m.interCont vec priority with
    | none => rfl
    | some interCont => rfl

theorem foldlM_hostCall_withMemory (m : Machine ω ι) (memory : Word → Mem)
    (calls : List HostCall) :
    calls.foldlM (hostCall env) (m.withMemory memory) =
      (calls.foldlM (hostCall env) m).map (·.withMemory memory) := by
  induction calls generalizing m with
  | nil => rfl
  | cons call calls ih =>
    rw [List.foldlM_cons, List.foldlM_cons, hostCall_withMemory]
    cases hostCall env m call with
    | none => rfl
    | some m₁ => exact ih m₁

/-- **Devices do not see the memory.** -/
theorem runCallback_withMemory {α : Type} (m : Machine ω ι) (memory : Word → Mem)
    (device : DevicePtr) (callback : Callback ω α) :
    runCallback env device callback (m.withMemory memory) =
      (runCallback env device callback m).map fun r => (r.1, r.2.withMemory memory) := by
  show (callback m.devices).bind _ = ((callback m.devices).bind _).map _
  rw [Option.map_bind]
  refine Option.bind_congr fun r _ => ?_
  obtain ⟨value, devices, calls⟩ := r
  show (guard (calls = [] ∨ device ∈ m.started) : Option Unit).bind _ =
    ((guard (calls = [] ∨ device ∈ m.started) : Option Unit).bind _).map _
  rw [Option.map_bind]
  refine Option.bind_congr fun _ _ => ?_
  have hcalls : calls.foldlM (hostCall env) (({ m with devices } : Machine ω ι).withMemory memory) =
      (calls.foldlM (hostCall env) { m with devices }).map (·.withMemory memory) :=
    foldlM_hostCall_withMemory _ memory calls
  show (calls.foldlM (hostCall env) (({ m with devices } : Machine ω ι).withMemory memory)).bind _ =
    ((calls.foldlM (hostCall env) { m with devices }).bind _).map _
  rw [hcalls]
  cases calls.foldlM (hostCall env) { m with devices } with
  | none => rfl
  | some m₁ => rfl

/-- A write to a device register, in a machine with other cells of memory. -/
theorem busWrite_withMemory {memory : Word → Mem}
    (hflag : (m.bus.memory address).attachmentFlag = true)
    (hsame : (memory address).attachmentFlag = (m.bus.memory address).attachmentFlag) :
    busWrite env (m.withMemory memory) address value =
      (busWrite env m address value).map (·.withMemory memory) := by
  have hflag' : ((m.withMemory memory).bus.memory address).attachmentFlag = true :=
    hsame.trans hflag
  rw [busWrite, busWrite, if_pos hflag, if_pos hflag']
  show (busSearch env.libc m.bus address).bind _ = ((busSearch env.libc m.bus address).bind _).map _
  rw [Option.map_bind]
  refine Option.bind_congr fun attachment _ => ?_
  rw [Function.comp_apply, runCallback_withMemory]
  cases runCallback env attachment.device
    ((env.device attachment.device).writeRegister address value) m with
  | none => rfl
  | some r => rfl

/-- So the words for device registers do the same in a machine with other cells. -/
theorem writeRegisters_withMemory {memory : Word → Mem} {words : List Word}
    (hsame : ∀ a, (memory a).attachmentFlag = (m.bus.memory a).attachmentFlag) :
    writeRegisters env (m.withMemory memory) cur words =
      (writeRegisters env m cur words).map (·.withMemory memory) := by
  induction words generalizing m cur with
  | nil => rfl
  | cons word rest ih =>
    rw [writeRegisters, writeRegisters]
    have hflag : ((m.withMemory memory).bus.memory cur).attachmentFlag =
        (m.bus.memory cur).attachmentFlag := hsame cur
    rw [hflag]
    split
    · rename_i hregister
      rw [busWrite_withMemory hregister (hsame cur), Option.bind_map, Option.map_bind]
      refine Option.bind_congr fun m₁ hm₁ => ?_
      have hsame₁ (a : Word) : (memory a).attachmentFlag = (m₁.bus.memory a).attachmentFlag :=
        (hsame a).trans ((busWrite_sameMap hm₁).flag a).symm
      exact ih hsame₁
    · exact ih hsame

theorem storeWords_cons_of_register {memory : Word → Mem} {word : Word} {rest : List Word}
    (hflag : (memory cur).attachmentFlag = true) :
    storeWords memory cur (word :: rest) = storeWords memory (cur + 1) rest := by
  funext a
  rw [storeWords, storeWords]
  split
  · rfl
  · rename_i hordinary
    have hne : cur ≠ a := by
      rintro rfl
      exact hordinary hflag
    rw [lastWord, if_neg hne, Option.or_none]

theorem storeWords_cons_of_ordinary {memory : Word → Mem} {word : Word} {rest : List Word}
    (hflag : (memory cur).attachmentFlag = false) :
    storeWords memory cur (word :: rest) =
      storeWords (Function.update memory cur { memory cur with value := word }) (cur + 1) rest := by
  funext a
  by_cases ha : a = cur
  · subst ha
    rw [storeWords, storeWords, Function.update_self, lastWord, if_pos rfl]
    simp only [hflag, Bool.false_eq_true, if_false]
    cases lastWord a (a + 1) rest <;> rfl
  · rw [storeWords, storeWords, Function.update_of_ne ha, lastWord, if_neg (Ne.symm ha),
      Option.or_none]

/-- **The loop.** The words for device registers go to their devices, and of the words for an
address of ordinary memory the last one stays. -/
theorem loadWords_eq (m : Machine ω ι) (cur : Word) (words : List Word) :
    loadWords env m cur words =
      (writeRegisters env m cur words).map (·.withMemory (storeWords m.bus.memory cur words)) := by
  induction words generalizing m cur with
  | nil =>
    have hkeep : storeWords m.bus.memory cur [] = m.bus.memory := by
      funext a
      rw [storeWords]
      split <;> rfl
    rw [hkeep]
    rfl
  | cons word rest ih =>
    show (busWrite env m cur word).bind _ = _
    cases hflag : (m.bus.memory cur).attachmentFlag with
    | true =>
      rw [writeRegisters, if_pos hflag, Option.map_bind, storeWords_cons_of_register hflag]
      refine Option.bind_congr fun m₁ hm₁ => ?_
      have hbus : m₁.bus = m.bus := by
        rw [(busWrite_eq_some hm₁).1, if_pos hflag]
      rw [Function.comp_apply, ← hbus]
      exact ih m₁ (cur + 1)
    | false =>
      have hordinary : ¬ (m.bus.memory cur).attachmentFlag = true := by
        rw [hflag]
        exact Bool.false_ne_true
      have hwrite : busWrite env m cur word = some (m.withMemory
          (Function.update m.bus.memory cur { m.bus.memory cur with value := word })) :=
        if_neg hordinary
      have hsame (a : Word) : (Function.update m.bus.memory cur
          { m.bus.memory cur with value := word } a).attachmentFlag =
          (m.bus.memory a).attachmentFlag := by
        by_cases ha : a = cur
        · rw [ha, Function.update_self]
        · rw [Function.update_of_ne ha]
      rw [hwrite, Option.bind_some, ih, writeRegisters_withMemory hsame, Option.map_map,
        writeRegisters, if_neg hordinary, storeWords_cons_of_ordinary hflag]
      rfl

/-! ### One word for an address -/

/-- Addresses without a word are those the counter does not come to. -/
theorem lastWord_eq_none {a : Word} {words : List Word}
    (h : ∀ i < words.length, cur + BitVec.ofNat 16 i ≠ a) : lastWord a cur words = none := by
  induction words generalizing cur with
  | nil => rfl
  | cons word rest ih =>
    have hcur : cur ≠ a := by
      have hzero := h 0 (Nat.zero_lt_succ _)
      rwa [BitVec.add_zero] at hzero
    have hrest : lastWord a (cur + 1) rest = none := by
      refine ih fun i hi => ?_
      have hnext := h (i + 1) (Nat.succ_lt_succ hi)
      rwa [Nat.add_comm, BitVec.ofNat_add, ← BitVec.add_assoc] at hnext
    rw [lastWord, hrest, if_neg hcur]
    rfl

/-- If the words fit, each is the only one for its address. -/
theorem lastWord_of_fits {words : List Word} {i : ℕ} (hfit : cur.toNat + words.length ≤ 2 ^ 16)
    (hi : i < words.length) :
    lastWord (BitVec.ofNat 16 (cur.toNat + i)) cur words = some (words[i]) := by
  induction words generalizing cur i with
  | nil => cases hi
  | cons word rest ih =>
    rw [List.length_cons] at hfit hi
    cases i with
    | zero =>
      have hself : BitVec.ofNat 16 (cur.toNat + 0) = cur := by simp
      have hrest : lastWord cur (cur + 1) rest = none := by
        refine lastWord_eq_none fun j hj heq => ?_
        have hlast := congrArg BitVec.toNat heq
        have hcur := cur.isLt
        have hone : (1 : Word).toNat = 1 := rfl
        rw [BitVec.toNat_add, BitVec.toNat_add, BitVec.toNat_ofNat, hone] at hlast
        omega
      rw [hself, lastWord, hrest, if_pos rfl]
      rfl
    | succ i =>
      have hnext : (cur + 1).toNat = cur.toNat + 1 := by
        rw [BitVec.toNat_add]
        exact Nat.mod_eq_of_lt (show cur.toNat + 1 < 2 ^ 16 by omega)
      have hshift : cur.toNat + (i + 1) = (cur + 1).toNat + i := by omega
      have hi' : i < rest.length := Nat.lt_of_succ_lt_succ hi
      rw [lastWord, hshift, ih (by omega) hi', List.getElem_cons_succ]
      rfl

/-! ### Files -/

/-- Word number `i` of a file. -/
def fileWord (bytes : List Byte) (i : ℕ) : Word := bytes.getD (2 * i) 0 ++ bytes.getD (2 * i + 1) 0

/-- The number of words after the first one. -/
def fileLength (bytes : List Byte) : ℕ := bytes.length / 2 - 1

theorem programWords_eq (bytes : List Byte) :
    programWords bytes = (List.range (bytes.length / 2)).map (fileWord bytes) := by
  induction bytes using programWords.induct with
  | case1 high low rest ih =>
    have hhalf : (high :: low :: rest).length / 2 = rest.length / 2 + 1 := by
      simp only [List.length_cons]
      omega
    rw [programWords, ih, hhalf, List.range_succ_eq_map, List.map_cons, List.map_map]
    rfl
  | case2 bytes hshort =>
    have hhalf : bytes.length / 2 = 0 := by
      have hlength : bytes.length < 2 := by
        by_contra hlong
        cases bytes with
        | nil => exact hlong (by decide)
        | cons high bytes =>
          cases bytes with
          | nil => exact hlong (Nat.lt_succ_self 1)
          | cons low rest => exact hshort high low rest rfl
      omega
    rw [hhalf, programWords]
    · rfl
    · exact hshort

/-- The words of a file that has any: the origin, and the words for the addresses from there on. -/
def fileRest (bytes : List Byte) : List Word :=
  (List.range (fileLength bytes)).map fun i => fileWord bytes (i + 1)

theorem length_fileRest (bytes : List Byte) : (fileRest bytes).length = fileLength bytes := by
  rw [fileRest, List.length_map, List.length_range]

theorem programWords_cons {bytes : List Byte} (hword : 2 ≤ bytes.length) :
    programWords bytes = fileWord bytes 0 :: fileRest bytes := by
  have hhalf : bytes.length / 2 = fileLength bytes + 1 := by
    rw [fileLength]
    omega
  rw [programWords_eq, hhalf, List.range_succ_eq_map, List.map_cons, List.map_map]
  rfl

/-- Loading a file that has an origin. -/
theorem loadProgramFile_eq {sim : Simulator ω ι} {file : ProgramFile}
    (hword : 2 ≤ file.bytes.length) :
    loadProgramFile env sim file =
      (loadWords env sim.machine (fileWord file.bytes 0) (fileRest file.bytes)).map fun machine =>
        (if file.readError then -1 else 0,
          { sim with cpu := cpuWriteRegister sim.cpu .pc (fileWord file.bytes 0), machine }) := by
  rw [loadProgramFile, programWords_cons hword, simulatorLoadProgram, Option.map_eq_bind]
  rfl

/-- Among addresses of ordinary memory there are no words for device registers. -/
theorem writeRegisters_ordinary {words : List Word}
    (hordinary : ∀ i < words.length,
      (m.bus.memory (cur + BitVec.ofNat 16 i)).attachmentFlag = false) :
    writeRegisters env m cur words = some m := by
  induction words generalizing cur with
  | nil => rfl
  | cons word rest ih =>
    have hcur : ¬ (m.bus.memory cur).attachmentFlag = true := by
      have hzero := hordinary 0 (Nat.zero_lt_succ _)
      rw [BitVec.add_zero] at hzero
      rw [hzero]
      exact Bool.false_ne_true
    rw [writeRegisters, if_neg hcur]
    refine ih fun i hi => ?_
    have hnext := hordinary (i + 1) (Nat.succ_lt_succ hi)
    rwa [Nat.add_comm, BitVec.ofNat_add, ← BitVec.add_assoc] at hnext

/-- Memory and PC after a file was loaded: each word after the first is at its place beyond the
origin, which is an address, no other cell has changed, and PC is the origin. -/
structure PlacesFile (bytes : List Byte) (before after : Simulator ω ι) : Prop where
  placed : ∀ i < fileLength bytes, (fileWord bytes 0).toNat + i < 2 ^ 16 ∧
    (after.machine.bus.memory (BitVec.ofNat 16 ((fileWord bytes 0).toNat + i))).value =
      fileWord bytes (i + 1)
  unchanged : ∀ a : Word, (∀ i < fileLength bytes, a.toNat ≠ (fileWord bytes 0).toNat + i) →
    after.machine.bus.memory a = before.machine.bus.memory a
  pc : after.cpu.registers .pc = fileWord bytes 0

variable {sim sim' : Simulator ω ι}

/-- Words that fit are placed. -/
theorem placesFile_of_fits {bytes : List Byte}
    (hfit : (fileWord bytes 0).toNat + fileLength bytes ≤ 2 ^ 16)
    (hordinary : ∀ i < fileLength bytes,
      (sim.machine.bus.memory (fileWord bytes 0 + BitVec.ofNat 16 i)).attachmentFlag = false) :
    PlacesFile bytes sim { sim with
      cpu := cpuWriteRegister sim.cpu .pc (fileWord bytes 0)
      machine := sim.machine.withMemory
        (storeWords sim.machine.bus.memory (fileWord bytes 0) (fileRest bytes)) } := by
  have hlength := length_fileRest bytes
  refine ⟨fun i hi => ⟨by omega, ?_⟩, fun a ha => ?_, rfl⟩
  · have hi' : i < (fileRest bytes).length := hlength ▸ hi
    have haddress : BitVec.ofNat 16 ((fileWord bytes 0).toNat + i) =
        fileWord bytes 0 + BitVec.ofNat 16 i := by
      rw [BitVec.ofNat_add, BitVec.ofNat_toNat, BitVec.setWidth_eq]
    have hlast : lastWord (BitVec.ofNat 16 ((fileWord bytes 0).toNat + i)) (fileWord bytes 0)
        (fileRest bytes) = some (fileRest bytes)[i] := lastWord_of_fits (hlength ▸ hfit) hi'
    show (storeWords _ _ _ _).value = _
    rw [storeWords, haddress, hordinary i hi, if_neg Bool.false_ne_true, ← haddress, hlast]
    simp [fileRest]
  · show storeWords _ _ _ a = _
    have hnone : lastWord a (fileWord bytes 0) (fileRest bytes) = none := by
      refine lastWord_eq_none fun i hi heq => ha i (hlength ▸ hi) ?_
      have hnat := congrArg BitVec.toNat heq
      rw [BitVec.toNat_add, BitVec.toNat_ofNat] at hnat
      omega
    rw [storeWords, hnone]
    split <;> rfl

/-- **A file is placed if and only if it fits.** When no address that is written is a device
register, the words of a file whose load returns zero are at their places, if and only if they fit
between the origin and the last address. -/
theorem loadProgramFile_places_iff {file : ProgramFile} (hword : 2 ≤ file.bytes.length)
    (hordinary : ∀ i < fileLength file.bytes,
      (sim.machine.bus.memory (fileWord file.bytes 0 + BitVec.ofNat 16 i)).attachmentFlag = false) :
    (∀ sim', loadProgramFile env sim file = some (0, sim') → PlacesFile file.bytes sim sim') ↔
      (file.readError = true ∨
        (fileWord file.bytes 0).toNat + fileLength file.bytes ≤ 2 ^ 16) := by
  have hload : loadProgramFile env sim file = (loadWords env sim.machine (fileWord file.bytes 0)
      (fileRest file.bytes)).map _ := loadProgramFile_eq hword
  rw [loadWords_eq, writeRegisters_ordinary (by rwa [length_fileRest]), Option.map_some,
    Option.map_some] at hload
  rw [hload]
  constructor
  · intro hplaces
    cases hend : file.readError with
    | true => exact Or.inl rfl
    | false =>
      right
      by_contra hlong
      have horigin := (fileWord file.bytes 0).isLt
      rw [hend] at hplaces
      have hbeyond := ((hplaces _ rfl).placed (2 ^ 16 - (fileWord file.bytes 0).toNat)
        (by omega)).1
      omega
  · rintro (hend | hfit) sim' hsim'
    · rw [hend] at hsim'
      have hresult : (-1 : ℤ) = 0 := (Prod.mk.inj (Option.some.inj hsim')).1
      exact absurd hresult (by decide)
    · obtain ⟨-, rfl⟩ := Prod.mk.inj (Option.some.inj hsim')
      exact placesFile_of_fits hfit hordinary

/-- A simulator without devices whose memory is empty. -/
def blankSim : Simulator Unit Unit where
  cpu := ⟨⟨false, 0⟩, ⟨false, 1⟩, fun _ => 0⟩
  machine := bareMachine fun _ => 0
  onInputDevices := none
  onTickDevices := none

/-- A file of two words for the last address and the one before it. -/
def lastWordsFile : ProgramFile := ⟨[0xFF, 0xFE, 0x12, 0x34, 0x56, 0x78], false⟩

theorem loadProgramFile_places_lastWords :
    ∃ sim', loadProgramFile bareEnv blankSim lastWordsFile = some (0, sim') ∧
      PlacesFile lastWordsFile.bytes blankSim sim' := by
  obtain ⟨sim', hload⟩ : ∃ sim', loadProgramFile bareEnv blankSim lastWordsFile = some (0, sim') :=
    ⟨_, rfl⟩
  have hplaces : ∀ sim', loadProgramFile bareEnv blankSim lastWordsFile = some (0, sim') →
      PlacesFile lastWordsFile.bytes blankSim sim' :=
    (loadProgramFile_places_iff (by decide) fun _ _ => rfl).mpr (Or.inr (by decide))
  exact ⟨sim', hload, hplaces sim' hload⟩

/-- The same words one address later. -/
def wrappingFile : ProgramFile := ⟨[0xFF, 0xFF, 0x12, 0x34, 0x56, 0x78], false⟩

/-- **A file that is too long overwrites the trap vectors**, and its load returns zero. -/
theorem loadProgramFile_wraps :
    ∃ sim', loadProgramFile bareEnv blankSim wrappingFile = some (0, sim') ∧
      (sim'.machine.bus.memory 0).value = 0x5678 ∧
      ¬ PlacesFile wrappingFile.bytes blankSim sim' := by
  refine ⟨_, rfl, rfl, fun h => ?_⟩
  exact absurd (h.placed 1 (by decide)).1 (by decide)

end Lc3Simulator
