import Lc3Simulator.Library.Progress
import Lc3Simulator.Task

/-!
# The operating system

The file `os.obj` has the routines behind the TRAP instructions: GETC, OUT, PUTS and HALT. They use
two words of memory to keep registers in, and every other word is as it was when they return.

Here OUT, PUTS and HALT are run on a task. They print and come back, or stop the clock, whatever the
caller has in its registers and in the rest of memory.

## Main definitions

* `osRoutines`, `osWords` — the file
* `Task.Ready` — the routines are in memory, the clock is on and the display is ready
* `Text` — a string in memory
* `Returned` — what a routine leaves to its caller

## Main results

* `out_returns`, `puts_returns`, `halt_stops` — the routines
-/

namespace Lc3Simulator

open Interaction Isa Progress

/-! ### The file -/

/-- GETC from `0x20B` on, OUT from `0x20F`, PUTS from `0x215`, HALT from `0x221`, and the addresses
of the registers that they use. -/
def osRoutines : List Word :=
  [0xA018, 0x07FE, 0xA017, 0xC1C0,
    0x3219, 0xA215, 0x07FD, 0xB014, 0x2215, 0xC1C0,
    0x3213, 0x3413, 0x6200, 0x0405, 0xA40C, 0x07FE, 0xB20B, 0x1021, 0x0FF9, 0x220A, 0x240A, 0xC1C0,
    0x5020, 0xB005, 0xC1C0,
    0xFE00, 0xFE02, 0xFE04, 0xFE06, 0xFFFE]

def getcRoutine : Word := 0x20B
def outRoutine : Word := 0x20F
def putsRoutine : Word := 0x215
def haltRoutine : Word := 0x221

/-- Where OUT and PUTS keep `R1`. -/
def saveR1 : Word := 0x229

/-- Where PUTS keeps `R2`. -/
def saveR2 : Word := 0x22A

/-- The words of the file after its origin, which is 0. -/
@[irreducible] def osWords : List Word :=
  List.replicate 0x20 0 ++ [getcRoutine, outRoutine, putsRoutine, 0, 0, haltRoutine] ++
    List.replicate 0x1E5 0 ++ osRoutines ++ [0, 0]

/-- The routines and the vectors that lead to them are in memory. -/
structure OsLoaded (memory : Word → Word) : Prop where
  getc : memory 0x20 = getcRoutine
  out : memory 0x21 = outRoutine
  puts : memory 0x22 = putsRoutine
  halt : memory 0x25 = haltRoutine
  routines : ∀ i : Fin 30, memory (getcRoutine + BitVec.ofNat 16 i) = osRoutines.get i

/-- A routine may run: it is in memory, the clock is on and the display is ready. -/
structure Task.Ready (t : Task) : Prop where
  clock : clockEnabled (t.memory mcrAddr) = true
  os : OsLoaded t.memory
  dsr : t.display.dsr.msb = true

/-- An address whose word a routine leaves alone. -/
def Free (address : Word) : Prop := address ≠ saveR1 ∧ address ≠ saveR2

instance (address : Word) : Decidable (Free address) := inferInstanceAs (Decidable (_ ∧ _))

theorem OsLoaded.congr {memory memory' : Word → Word} (h : OsLoaded memory)
    (hfree : ∀ a, Free a → memory' a = memory a) : OsLoaded memory' := by
  refine ⟨?_, ?_, ?_, ?_, fun i => ?_⟩
  · exact (hfree _ (by decide)).trans h.getc
  · exact (hfree _ (by decide)).trans h.out
  · exact (hfree _ (by decide)).trans h.puts
  · exact (hfree _ (by decide)).trans h.halt
  · have hall : ∀ i : Fin 30, Free (getcRoutine + BitVec.ofNat 16 i) := by decide
    exact (hfree _ (hall i)).trans (h.routines i)

namespace Task.Ready

variable {t t' : Task}

/-- A task with the same words in memory and the same display. -/
theorem congr (h : t.Ready) (hfree : ∀ a, Free a → t'.memory a = t.memory a)
    (hdisplay : t'.display = t.display) : t'.Ready :=
  ⟨by rw [hfree _ (by decide)]; exact h.clock, h.os.congr hfree, by rw [hdisplay]; exact h.dsr⟩

/-- A task inside a routine. -/
theorem at_routine (h : t.Ready) (i : Fin 30)
    (hpc : t.registers .pc = getcRoutine + BitVec.ofNat 16 i) : t.At (osRoutines.get i) := by
  have hordinary : ∀ i : Fin 30, Ordinary (getcRoutine + BitVec.ofNat 16 i) := by decide
  exact ⟨h.clock, by rw [hpc]; exact hordinary i, by rw [hpc]; exact h.os.routines i⟩

/-- An instruction that only changes registers. -/
theorem withRegisters (h : t.Ready) (registers : Registers) : (t.withRegisters registers).Ready :=
  h.congr (fun _ _ => rfl) rfl

/-- An instruction that keeps a word for the end of the routine. -/
theorem poke (h : t.Ready) {address : Word} (haddress : ¬ Free address) (value : Word) :
    (t.poke address value).Ready :=
  h.congr (fun a ha => Function.update_of_ne (fun hEq => haddress (by rwa [← hEq])) _ _) rfl

/-- An instruction that prints. -/
theorem print (h : t.Ready) (character : Byte) : (t.print character).Ready :=
  h.congr (fun _ _ => rfl) rfl

end Task.Ready

/-! ### Routines that return -/

/-- What a routine leaves to its caller: some registers may have changed, and some characters were
printed. -/
structure Returned (t : Task) (changed : List Lc3Reg) (text : List Byte) (t' : Task) : Prop where
  pc : t'.registers .pc = t.registers .r7
  registers : ∀ r ∉ changed, r ≠ .pc → r ≠ .psr → t'.registers r = t.registers r
  status : t'.status = t.status
  memory : ∀ a, Free a → t'.memory a = t.memory a
  display : t'.display = t.display
  printed : t'.printed = t.printed ++ text

/-- The display is ready, so its status is negative, and a loop that waits for it ends. -/
theorem condition_of_msb {value : Word} (h : value.msb = true) : condition value = 0b100 := by
  have hne : value ≠ 0 := by
    rintro rfl
    cases h
  rw [condition, if_neg hne, if_pos h]

/-- A loop that waits for the display ends at once. -/
theorem wait_display {t : Task} (load branch : Fin 30) {dr : BitVec 3} {offset offset' : BitVec 9}
    {r : Lc3Reg} (h : t.Ready) (hpc : t.registers .pc = getcRoutine + BitVec.ofNat 16 load)
    (hload : DataInstr.decode (osRoutines.get load) = some (.ldi dr offset))
    (haddress : t.registers .pc + 1 + offset.signExtend 16 = 0x226) (hdr : reg dr = r)
    (hr : r ≠ .pc) (hnext : load.val + 1 = branch.val)
    (hdata : DataInstr.decode (osRoutines.get branch) = none)
    (hbranch : ControlInstr.decode (osRoutines.get branch) = some (.br 0b011 offset')) :
    Eventually Task.step (· = (t.result r t.display.dsr).next) t := by
  obtain ⟨t₁, ht₁⟩ : ∃ t₁, t₁ = t.result r t.display.dsr := ⟨_, rfl⟩
  have h₁ : t₁.Ready := ht₁ ▸ h.withRegisters _
  have hpc₁ : t₁.registers .pc = getcRoutine + BitVec.ofNat 16 branch := by
    rw [ht₁, Task.result_pc _ _ _ hr, hpc, ← hnext, BitVec.ofNat_add, ← BitVec.add_assoc]
    rfl
  have hcodes : t₁.codes = 0b100 := by rw [ht₁, Task.result_codes, condition_of_msb h.dsr]
  have hstep : t.step = some t₁ := by
    rw [ht₁, ← hdr]
    exact Task.step_ldi_dsr (h.at_routine load hpc) hload haddress (by decide) (h.os.routines 27)
  have hstep₁ : t₁.step = some t₁.next :=
    Task.step_br_not_taken (h₁.at_routine branch hpc₁) hdata hbranch (by rw [hcodes]; rfl)
  exact .later hstep (.later hstep₁ (.now (by rw [ht₁])))

/-- **OUT** prints the low byte of `R0` and returns. -/
theorem out_returns {t : Task} (h : t.Ready) (hpc : t.registers .pc = outRoutine) :
    Eventually Task.step (Returned t [] [(t.registers .r0).setWidth 8]) t := by
  -- ST R1, saveR1
  obtain ⟨t₁, ht₁⟩ : ∃ t₁, t₁ = t.next.poke saveR1 (t.registers .r1) := ⟨_, rfl⟩
  have h₁ : t₁.Ready := ht₁ ▸ (h.withRegisters _).poke (by decide) _
  have hpc₁ : t₁.registers .pc = 0x210 := by simp [ht₁, hpc, outRoutine]
  have hstep : t.step = some t₁ := by
    rw [ht₁]
    exact Task.step_st (h.at_routine 4 hpc) rfl (by rw [hpc]; rfl) (by decide) (by decide)
  -- LDI R1, DSR and BRzp
  obtain ⟨t₂, ht₂⟩ : ∃ t₂, t₂ = (t₁.result .r1 t₁.display.dsr).next := ⟨_, rfl⟩
  have h₂ : t₂.Ready := ht₂ ▸ h₁.withRegisters _
  have hpc₂ : t₂.registers .pc = 0x212 := by simp [ht₂, hpc₁]
  have hr0 : t₂.registers .r0 = t.registers .r0 := by simp [ht₂, ht₁]
  -- STI R0, DDR
  obtain ⟨t₃, ht₃⟩ : ∃ t₃, t₃ = t₂.next.print ((t.registers .r0).setWidth 8) := ⟨_, rfl⟩
  have h₃ : t₃.Ready := ht₃ ▸ (h₂.withRegisters _).print _
  have hpc₃ : t₃.registers .pc = 0x213 := by simp [ht₃, hpc₂]
  have hstep₂ : t₂.step = some t₃ := by
    rw [ht₃, ← hr0]
    exact Task.step_sti_ddr (h₂.at_routine 7 hpc₂) rfl (by rw [hpc₂]; rfl) (by decide)
      (h₂.os.routines 28)
  -- LD R1, saveR1
  obtain ⟨t₄, ht₄⟩ : ∃ t₄, t₄ = t₃.result .r1 (t.registers .r1) := ⟨_, rfl⟩
  have h₄ : t₄.Ready := ht₄ ▸ h₃.withRegisters _
  have hpc₄ : t₄.registers .pc = 0x214 := by simp [ht₄, hpc₃]
  have hsaved : t₃.memory saveR1 = t.registers .r1 := by simp [ht₃, ht₂, ht₁]
  have hstep₃ : t₃.step = some t₄ := by
    rw [ht₄, ← hsaved]
    exact Task.step_ld (h₃.at_routine 8 hpc₃) rfl (by rw [hpc₃]; rfl) (by decide)
  -- RET
  have hstep₄ : t₄.step = some (t₄.goto (t₄.next.registers .r7)) :=
    Task.step_jmp (h₄.at_routine 9 hpc₄) rfl rfl
  have hend : Returned t [] [(t.registers .r0).setWidth 8] (t₄.goto (t₄.next.registers .r7)) := by
    refine ⟨?_, fun r _ hpc hpsr => ?_, ?_, fun a ha => ?_, ?_, ?_⟩
    · simp [ht₄, ht₃, ht₂, ht₁]
    · by_cases hr1 : r = .r1
      · simp [hr1, ht₄]
      · simp [ht₄, ht₃, ht₂, ht₁, hr1, hpc, hpsr]
    · simp [ht₄, ht₃, ht₂, ht₁]
    · simp [ht₄, ht₃, ht₂, ht₁, ha.1]
    · simp [ht₄, ht₃, ht₂, ht₁]
    · simp [ht₄, ht₃, ht₂, ht₁]
  have hwait : Eventually Task.step (· = t₂) t₁ :=
    ht₂ ▸ wait_display 5 6 h₁ hpc₁ rfl (by rw [hpc₁]; rfl) rfl (by decide) rfl rfl rfl
  refine .later hstep (hwait.trans ?_)
  rintro _ rfl
  exact .later hstep₂ (.later hstep₃ (.later hstep₄ (.now hend)))

/-! ### Strings -/

/-- A string in memory: words from an address on, up to a word 0. -/
def Text (memory : Word → Word) : Word → List Word → Prop
  | address, [] => Ordinary address ∧ Free address ∧ memory address = 0
  | address, word :: rest =>
    Ordinary address ∧ Free address ∧ memory address = word ∧ word ≠ 0 ∧
      Text memory (address + 1) rest

theorem Text.congr {memory memory' : Word → Word} {string : List Word} {address : Word}
    (h : Text memory address string) (hfree : ∀ a, Free a → memory' a = memory a) :
    Text memory' address string := by
  induction string generalizing address with
  | nil => exact ⟨h.1, h.2.1, (hfree _ h.2.1).trans h.2.2⟩
  | cons word rest ih =>
    obtain ⟨hordinary, hfree', hword, hne, hrest⟩ := h
    exact ⟨hordinary, hfree', (hfree _ hfree').trans hword, hne, ih hrest⟩

/-- The low bytes of a string. -/
def lowBytes (string : List Word) : List Byte := string.map fun word => word.setWidth 8

/-- PUTS has printed some of its words, and goes on at `pc`. -/
structure Printed (t : Task) (words : List Word) (pc : Word) (t' : Task) : Prop where
  ready : t'.Ready
  pc : t'.registers .pc = pc
  r0 : t'.registers .r0 = t.registers .r0 + BitVec.ofNat 16 words.length
  registers : ∀ r ∉ [Lc3Reg.r0, .r1, .r2, .pc, .psr], t'.registers r = t.registers r
  status : t'.status = t.status
  memory : t'.memory = t.memory
  display : t'.display = t.display
  printed : t'.printed = t.printed ++ lowBytes words

theorem Printed.trans {t t₁ t₂ : Task} {words words' : List Word} {pc pc' : Word}
    (h : Printed t words pc t₁) (h' : Printed t₁ words' pc' t₂) :
    Printed t (words ++ words') pc' t₂ where
  ready := h'.ready
  pc := h'.pc
  r0 := by rw [h'.r0, h.r0, List.length_append, BitVec.ofNat_add, BitVec.add_assoc]
  registers r hr := (h'.registers r hr).trans (h.registers r hr)
  status := h'.status.trans h.status
  memory := h'.memory.trans h.memory
  display := h'.display.trans h.display
  printed := by rw [h'.printed, h.printed, lowBytes, lowBytes, lowBytes, List.map_append,
    List.append_assoc]

/-- Some condition code is always set. -/
theorem condition_ne_zero (value : Word) : 0b111 &&& condition value ≠ 0 := by
  rw [condition]
  split_ifs <;> decide

/-- The code of zero is set by zero only. -/
theorem condition_and_zero {value : Word} (h : value ≠ 0) : 0b010 &&& condition value = 0 := by
  rw [condition, if_neg h]
  split_ifs <;> rfl

/-- The loop ends at a word 0. -/
theorem puts_end {t : Task} (h : t.Ready) (hpc : t.registers .pc = 0x217)
    (hordinary : Ordinary (t.registers .r0)) (hzero : t.memory (t.registers .r0) = 0) :
    Eventually Task.step (Printed t [] 0x21E) t := by
  -- LDR R1, R0
  obtain ⟨t₁, ht₁⟩ : ∃ t₁, t₁ = t.result .r1 0 := ⟨_, rfl⟩
  have h₁ : t₁.Ready := ht₁ ▸ h.withRegisters _
  have hpc₁ : t₁.registers .pc = 0x218 := by simp [ht₁, hpc]
  have hstep : t.step = some t₁ := by
    rw [ht₁, ← hzero]
    exact Task.step_ldr (h.at_routine 12 hpc) rfl (BitVec.add_zero _) hordinary
  -- BRz, which is taken
  have hcodes : t₁.codes = condition 0 := by rw [ht₁, Task.result_codes]
  have hstep₁ : t₁.step = some (t₁.goto 0x21E) :=
    Task.step_br_taken (h₁.at_routine 13 hpc₁) rfl rfl (by rw [hcodes]; decide)
      (by rw [hpc₁]; rfl)
  refine .later hstep (.later hstep₁ (.now ?_))
  refine ⟨h₁.withRegisters _, rfl, ?_, fun r hr => ?_, ?_, ?_, ?_, ?_⟩
  · simp [ht₁]
  · simp only [List.mem_cons, List.not_mem_nil, or_false, not_or] at hr
    simp [ht₁, hr]
  all_goals simp [ht₁, lowBytes]

/-- One word is printed. -/
theorem puts_round {t : Task} {word : Word} (h : t.Ready) (hpc : t.registers .pc = 0x217)
    (hordinary : Ordinary (t.registers .r0)) (hword : t.memory (t.registers .r0) = word)
    (hne : word ≠ 0) : Eventually Task.step (Printed t [word] 0x217) t := by
  -- LDR R1, R0
  obtain ⟨t₁, ht₁⟩ : ∃ t₁, t₁ = t.result .r1 word := ⟨_, rfl⟩
  have h₁ : t₁.Ready := ht₁ ▸ h.withRegisters _
  have hpc₁ : t₁.registers .pc = 0x218 := by simp [ht₁, hpc]
  have hstep : t.step = some t₁ := by
    rw [ht₁, ← hword]
    exact Task.step_ldr (h.at_routine 12 hpc) rfl (BitVec.add_zero _) hordinary
  -- BRz, which is not taken
  have hcodes : t₁.codes = condition word := by rw [ht₁, Task.result_codes]
  have h₁' : t₁.next.Ready := h₁.withRegisters _
  have hpc₁' : t₁.next.registers .pc = 0x219 := by simp [hpc₁]
  have hstep₁ : t₁.step = some t₁.next :=
    Task.step_br_not_taken (h₁.at_routine 13 hpc₁) rfl rfl
      (by rw [hcodes]; exact condition_and_zero hne)
  -- LDI R2, DSR and BRzp
  obtain ⟨t₂, ht₂⟩ : ∃ t₂, t₂ = (t₁.next.result .r2 t₁.next.display.dsr).next := ⟨_, rfl⟩
  have h₂ : t₂.Ready := ht₂ ▸ h₁'.withRegisters _
  have hpc₂ : t₂.registers .pc = 0x21B := by simp [ht₂, hpc₁]
  have hwait : Eventually Task.step (· = t₂) t₁.next :=
    ht₂ ▸ wait_display 14 15 h₁' hpc₁' rfl (by rw [hpc₁']; rfl) rfl (by decide) rfl rfl rfl
  -- STI R1, DDR
  obtain ⟨t₃, ht₃⟩ : ∃ t₃, t₃ = t₂.next.print (word.setWidth 8) := ⟨_, rfl⟩
  have h₃ : t₃.Ready := ht₃ ▸ (h₂.withRegisters _).print _
  have hpc₃ : t₃.registers .pc = 0x21C := by simp [ht₃, hpc₂]
  have hr1 : t₂.registers .r1 = word := by simp [ht₂, ht₁]
  have hstep₂ : t₂.step = some t₃ := by
    rw [ht₃, ← hr1]
    exact Task.step_sti_ddr (h₂.at_routine 16 hpc₂) rfl (by rw [hpc₂]; rfl) (by decide)
      (h₂.os.routines 28)
  -- ADD R0, R0, 1
  obtain ⟨t₄, ht₄⟩ : ∃ t₄, t₄ = t₃.result .r0 (t.registers .r0 + 1) := ⟨_, rfl⟩
  have h₄ : t₄.Ready := ht₄ ▸ h₃.withRegisters _
  have hpc₄ : t₄.registers .pc = 0x21D := by simp [ht₄, hpc₃]
  have hr0 : t₃.next.registers .r0 = t.registers .r0 := by simp [ht₃, ht₂, ht₁]
  have hadd : DataInstr.decode 0x1021 = some (.add 0 0 (.imm 1)) := by decide
  have hstep₃ : t₃.step = some t₄ := by
    rw [ht₄, ← hr0]
    exact Task.step_add_imm (h₃.at_routine 17 hpc₃) hadd rfl
  -- BRnzp, back to the start of the loop
  have hcodes₄ : t₄.codes = condition (t.registers .r0 + 1) := by rw [ht₄, Task.result_codes]
  have hstep₄ : t₄.step = some (t₄.goto 0x217) :=
    Task.step_br_taken (h₄.at_routine 18 hpc₄) rfl rfl
      (by rw [hcodes₄]; exact condition_ne_zero _) (by rw [hpc₄]; rfl)
  refine .later hstep (.later hstep₁ (hwait.trans ?_))
  rintro _ rfl
  refine .later hstep₂ (.later hstep₃ (.later hstep₄ (.now ?_)))
  refine ⟨h₄.withRegisters _, rfl, ?_, fun r hr => ?_, ?_, ?_, ?_, ?_⟩
  · simp [ht₄]
  · simp only [List.mem_cons, List.not_mem_nil, or_false, not_or] at hr
    simp [ht₄, ht₃, ht₂, ht₁, hr]
  all_goals simp [ht₄, ht₃, ht₂, ht₁, lowBytes]

/-- **The loop of PUTS.** -/
theorem puts_loop {string : List Word} {t : Task} (h : t.Ready) (hpc : t.registers .pc = 0x217)
    (htext : Text t.memory (t.registers .r0) string) :
    Eventually Task.step (Printed t string 0x21E) t := by
  induction string generalizing t with
  | nil => exact puts_end h hpc htext.1 htext.2.2
  | cons word rest ih =>
    obtain ⟨hordinary, -, hword, hne, hrest⟩ := htext
    refine (puts_round h hpc hordinary hword hne).trans fun t₁ h₁ => ?_
    have hrest₁ : Text t₁.memory (t₁.registers .r0) rest := by
      rw [h₁.memory, h₁.r0]
      exact hrest
    exact (ih h₁.ready h₁.pc hrest₁).mono fun t₂ h₂ => h₁.trans h₂

/-- **PUTS** prints the low bytes of the string at `R0` and returns. It leaves `R0` at the word 0
after the string. -/
theorem puts_returns {t : Task} {string : List Word} (h : t.Ready)
    (hpc : t.registers .pc = putsRoutine) (htext : Text t.memory (t.registers .r0) string) :
    Eventually Task.step (fun t' => Returned t [.r0] (lowBytes string) t' ∧
      t'.registers .r0 = t.registers .r0 + BitVec.ofNat 16 string.length) t := by
  -- ST R1, saveR1
  obtain ⟨t₁, ht₁⟩ : ∃ t₁, t₁ = t.next.poke saveR1 (t.registers .r1) := ⟨_, rfl⟩
  have h₁ : t₁.Ready := ht₁ ▸ (h.withRegisters _).poke (by decide) _
  have hpc₁ : t₁.registers .pc = 0x216 := by simp [ht₁, hpc, putsRoutine]
  have hstep : t.step = some t₁ := by
    rw [ht₁]
    exact Task.step_st (h.at_routine 10 hpc) rfl (by rw [hpc]; rfl) (by decide) (by decide)
  -- ST R2, saveR2
  obtain ⟨t₂, ht₂⟩ : ∃ t₂, t₂ = t₁.next.poke saveR2 (t₁.registers .r2) := ⟨_, rfl⟩
  have h₂ : t₂.Ready := ht₂ ▸ (h₁.withRegisters _).poke (by decide) _
  have hpc₂ : t₂.registers .pc = 0x217 := by simp [ht₂, hpc₁]
  have hstep₁ : t₁.step = some t₂ := by
    rw [ht₂]
    exact Task.step_st (h₁.at_routine 11 hpc₁) rfl (by rw [hpc₁]; rfl) (by decide) (by decide)
  -- the loop
  have hfree : ∀ a, Free a → t₂.memory a = t.memory a := fun a ha => by
    simp [ht₂, ht₁, ha.1, ha.2]
  have hr0 : t₂.registers .r0 = t.registers .r0 := by simp [ht₂, ht₁]
  refine .later hstep (.later hstep₁
    ((puts_loop h₂ hpc₂ (by rw [hr0]; exact htext.congr hfree)).trans
    fun t₃ h₃ => ?_))
  -- LD R1, saveR1
  obtain ⟨t₄, ht₄⟩ : ∃ t₄, t₄ = t₃.result .r1 (t.registers .r1) := ⟨_, rfl⟩
  have h₄ : t₄.Ready := ht₄ ▸ h₃.ready.withRegisters _
  have hpc₄ : t₄.registers .pc = 0x21F := by simp [ht₄, h₃.pc]
  have hsaved : t₃.memory saveR1 = t.registers .r1 := by
    simp [h₃.memory, ht₂, ht₁, saveR1, saveR2]
  have hstep₃ : t₃.step = some t₄ := by
    rw [ht₄, ← hsaved]
    exact Task.step_ld (h₃.ready.at_routine 19 h₃.pc) rfl (by rw [h₃.pc]; rfl) (by decide)
  -- LD R2, saveR2
  obtain ⟨t₅, ht₅⟩ : ∃ t₅, t₅ = t₄.result .r2 (t.registers .r2) := ⟨_, rfl⟩
  have h₅ : t₅.Ready := ht₅ ▸ h₄.withRegisters _
  have hpc₅ : t₅.registers .pc = 0x220 := by simp [ht₅, hpc₄]
  have hsaved' : t₄.memory saveR2 = t.registers .r2 := by simp [ht₄, h₃.memory, ht₂, ht₁]
  have hstep₄ : t₄.step = some t₅ := by
    rw [ht₅, ← hsaved']
    exact Task.step_ld (h₄.at_routine 20 hpc₄) rfl (by rw [hpc₄]; rfl) (by decide)
  -- RET
  have hstep₅ : t₅.step = some (t₅.goto (t₅.next.registers .r7)) :=
    Task.step_jmp (h₅.at_routine 21 hpc₅) rfl rfl
  have hr7 : t₃.registers .r7 = t.registers .r7 := by
    rw [h₃.registers .r7 (by decide)]
    simp [ht₂, ht₁]
  refine .later hstep₃ (.later hstep₄ (.later hstep₅ (.now ⟨⟨?_, fun r hr hpc hpsr => ?_, ?_,
    fun a ha => ?_, ?_, ?_⟩, ?_⟩)))
  · simp [ht₅, ht₄, hr7]
  · by_cases hr1 : r = .r1
    · simp [hr1, ht₅, ht₄]
    by_cases hr2 : r = .r2
    · simp [hr2, ht₅]
    have hr0' : r ≠ .r0 := fun hEq => hr (by rw [hEq]; decide)
    have hkept : t₃.registers r = t₂.registers r :=
      h₃.registers r (by simp [hr0', hr1, hr2, hpc, hpsr])
    simp [ht₅, ht₄, hr1, hr2, hpc, hpsr, hkept, ht₂, ht₁]
  · simp [ht₅, ht₄, h₃.status, ht₂, ht₁]
  · simp [ht₅, ht₄, h₃.memory, hfree a ha]
  · simp [ht₅, ht₄, h₃.display, ht₂, ht₁]
  · simp [ht₅, ht₄, h₃.printed, ht₂, ht₁]
  · simp [ht₅, ht₄, h₃.r0, hr0]

/-! ### HALT -/

/-- What HALT leaves: the clock is off, and `R0` is gone. -/
structure Halted (t t' : Task) : Prop where
  registers : ∀ r ∉ [Lc3Reg.r0, .pc, .psr], t'.registers r = t.registers r
  memory : t'.memory = Function.update t.memory mcrAddr 0
  printed : t'.printed = t.printed

/-- **HALT** stops the clock. -/
theorem halt_stops {t : Task} (h : t.Ready) (hpc : t.registers .pc = haltRoutine) :
    Eventually Task.step (fun t' => ∃ t'', t'.tick = some (false, t'') ∧ Halted t t'') t := by
  -- AND R0, R0, 0
  obtain ⟨t₁, ht₁⟩ : ∃ t₁, t₁ = t.result .r0 0 := ⟨_, rfl⟩
  have h₁ : t₁.Ready := ht₁ ▸ h.withRegisters _
  have hpc₁ : t₁.registers .pc = 0x222 := by simp [ht₁, hpc, haltRoutine]
  have hand : DataInstr.decode 0x5020 = some (.and 0 0 (.imm 0)) := by decide
  have hstep : t.step = some t₁ := by
    rw [ht₁]
    exact Task.step_and_imm (h.at_routine 22 hpc) hand BitVec.and_zero
  -- STI R0, MCR
  have hr0 : t₁.next.registers .r0 = 0 := by simp [ht₁]
  have htick : t₁.tick = some (false, t₁.next.poke mcrAddr 0) := by
    rw [Task.tick_sti (h₁.at_routine 23 hpc₁) rfl (by rw [hpc₁]; rfl) (by decide)
      (h₁.os.routines 29) (by decide)]
    show some (clockEnabled ((t₁.poke mcrAddr (t₁.next.registers .r0)).memory mcrAddr),
      t₁.next.poke mcrAddr (t₁.next.registers .r0)) = _
    rw [hr0, Task.poke_memory, Function.update_self]
    rfl
  refine .later hstep (.now ⟨_, htick, fun r hr => ?_, by simp [ht₁], by simp [ht₁]⟩)
  simp only [List.mem_cons, List.not_mem_nil, or_false, not_or] at hr
  simp [ht₁, hr]

end Lc3Simulator
