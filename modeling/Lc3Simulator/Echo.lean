import Lc3Simulator.Getc

/-!
# A program that echoes

`GETC`, `OUT`, and back. The program never ends, so what is proved of it is how far it gets. What it
prints are characters that were typed, in their order and none twice. Some may be missing, since the
keyboard keeps one character only; but the last one typed is never missing for ever.

So for any number, the program either comes to print this many characters, or it has printed the
last one that was typed and waits, and nothing is ever typed again.

## Main definitions

* `Script` — what was typed on a terminal, and what it has printed
* `Heard` — what was typed so far, and what was made of it
* `echo` — the program

## Main results

* `Task.codes_step` — a condition code stays set
* `Heard.listen`, `Heard.taken` — what typing and reading do
* `echo_round` — from one character to the next one
* `echo_copies` — the program, from the start of the simulator
-/

namespace Lc3Simulator

open Interaction Isa Progress Transition

/-! ### Condition codes -/

/-- The condition codes of a register file. -/
def codesOf (registers : Registers) : BitVec 3 := (registers .psr).extractLsb' 0 3

theorem codesOf_writeResult (regs : Registers) (dr : BitVec 3) (value : Word) :
    codesOf (writeResult regs dr value) = condition value := by
  rw [codesOf, writeResult, Function.update_self, withCondition]
  exact BitVec.extractLsb'_append_eq_right

/-- An instruction leaves a condition code set. -/
theorem instruction_codes {w : Word} {program : Registers → BusProg Registers} {regs : Registers}
    (h : instruction w = some program) (hcodes : 0b111 &&& codesOf regs ≠ 0) :
    (program regs).Returns fun regs' => 0b111 &&& codesOf regs' ≠ 0 := by
  have hresult (dr : BitVec 3) (value : Word) :
      0b111 &&& codesOf (writeResult regs dr value) ≠ 0 := by
    rw [codesOf_writeResult]
    exact condition_ne_zero value
  rw [instruction] at h
  cases hdata : DataInstr.decode w with
  | some i =>
    rw [hdata] at h
    obtain rfl := Option.some.inj h
    cases i with
    | add | and | not | lea => exact hresult _ _
    | ld | ldr => exact fun value => hresult _ value
    | ldi => exact fun _ value => hresult _ value
    | st | str => exact fun _ => hcodes
    | sti => exact fun _ _ => hcodes
  | none =>
    rw [hdata] at h
    cases hcontrol : ControlInstr.decode w with
    | none =>
      rw [hcontrol] at h
      cases h
    | some i =>
      rw [hcontrol] at h
      have hjump (regs' : Registers) (target : Word) (hpsr : regs' .psr = regs .psr) :
          0b111 &&& codesOf (Isa.jump regs' target) ≠ 0 := by
        rw [codesOf, Isa.jump, Function.update_of_ne (by decide), hpsr]
        exact hcodes
      cases i with
      | jsrr base => cases h
      | br nzp offset =>
        obtain rfl := Option.some.inj h
        simp only [ControlInstr.execute, Prog.pure_eq_ret, Prog.returns_ret]
        split_ifs
        · exact hjump regs _ rfl
        · exact hcodes
      | jmp base =>
        obtain rfl := Option.some.inj h
        exact hjump regs _ rfl
      | jsr offset =>
        obtain rfl := Option.some.inj h
        exact hjump _ _ (Function.update_of_ne (by decide) _ _)
      | trap vector =>
        obtain rfl := Option.some.inj h
        exact fun target => hjump _ target (Function.update_of_ne (by decide) _ _)

/-- **A condition code stays set.** -/
theorem Task.codes_step {t t' : Task} (hcodes : 0b111 &&& t.codes ≠ 0) (h : t.step = some t') :
    0b111 &&& t'.codes ≠ 0 := by
  obtain ⟨-, -, program, registers, t₁, hprogram, hrun, hresult⟩ :=
    Task.tick_eq_some (Task.step_eq_some_iff.mp h)
  obtain ⟨-, rfl⟩ := Prod.mk.inj hresult
  have hfetched : 0b111 &&& codesOf (fetched t.registers) ≠ 0 := by
    rw [codesOf, fetched, Function.update_of_ne (by decide)]
    exact hcodes
  exact (instruction_codes hprogram hfetched).of_run hrun

/-! ### What was typed -/

/-- The characters that were typed on a terminal and read from it, with those that it has printed.
Reading adds to the former. -/
structure Script {ι : Type} (io : DeviceIo ι) extends Transcript io where
  typed : ι → List Byte
  typed_getChar : ∀ s, typed (io.getChar s).2.2 =
    typed s ++ if (io.getChar s).1 ≠ 0 then [(io.getChar s).2.1] else []
  typed_writeChar : ∀ output s, typed (io.writeChar output s) = typed s

section Heard

variable {ι : Type} {io : DeviceIo ι} (script : Script io) {s₀ : ι} {text : List Byte}
  {x : KeyboardData × ι}

/-- The characters typed since a terminal was `s₀`, and those among them that a program has made
something of. One that is in the keyboard is not among these. -/
inductive Heard (s₀ : ι) (text : List Byte) (x : KeyboardData × ι) : Prop
  | ready (earlier : List Byte) (character : Byte) (hready : readyBitOn x.1.kbsr = true)
      (htyped : script.typed x.2 = script.typed s₀ ++ (earlier ++ [character]))
      (hkbdr : x.1.kbdr = character.signExtend 16) (htext : text.Sublist earlier)
  | silent (heard : List Byte) (hready : readyBitOn x.1.kbsr = false)
      (htyped : script.typed x.2 = script.typed s₀ ++ heard) (htext : text.Sublist heard)
      (hlast : text.getLast? = heard.getLast?)

variable {script}

theorem Heard.sublist (h : Heard script s₀ text x) :
    ∃ heard, script.typed x.2 = script.typed s₀ ++ heard ∧ text.Sublist heard := by
  cases h with
  | ready earlier character _ htyped _ htext =>
    exact ⟨_, htyped, htext.trans (List.sublist_append_left _ _)⟩
  | silent heard _ htyped htext _ => exact ⟨heard, htyped, htext⟩

/-- A character that comes takes the place of one that is in the keyboard. -/
theorem Heard.listen (h : Heard script s₀ text x) : Heard script s₀ text (listen io x) := by
  obtain ⟨heard, htyped, htext⟩ := h.sublist
  have hgot := script.typed_getChar x.2
  by_cases hchar : (io.getChar x.2).1 ≠ 0
  · rw [if_pos hchar, htyped, List.append_assoc] at hgot
    refine .ready heard (io.getChar x.2).2.1 ?_ hgot ?_ htext
    · rw [Lc3Simulator.listen]
      dsimp only
      rw [if_pos hchar]
      exact (kbsr_input _).1
    · rw [Lc3Simulator.listen]
      dsimp only
      rw [if_pos hchar]
  · have hsame : (Lc3Simulator.listen io x).1 = x.1 := if_neg hchar
    rw [if_neg hchar, List.append_nil] at hgot
    cases h with
    | ready earlier character hready htyped' hkbdr htext' =>
      exact .ready earlier character (hsame ▸ hready) (hgot.trans htyped') (hsame ▸ hkbdr) htext'
    | silent heard' hready htyped' htext' hlast =>
      exact .silent heard' (hsame ▸ hready) (hgot.trans htyped') htext' hlast

theorem Heard.listen_iterate (h : Heard script s₀ text x) (n : ℕ) :
    Heard script s₀ text ((Lc3Simulator.listen io)^[n] x) := by
  induction n with
  | zero => exact h
  | succ n ih =>
    rw [Function.iterate_succ_apply']
    exact ih.listen

/-- The character in the keyboard is read, and something will be made of it. -/
theorem Heard.taken (h : Heard script s₀ text x) (hready : readyBitOn x.1.kbsr = true) :
    Heard script s₀ (text ++ [x.1.kbdr.setWidth 8]) (taken x) := by
  cases h with
  | silent _ hsilent => exact absurd (hready.symm.trans hsilent) (by decide)
  | ready earlier character _ htyped hkbdr htext =>
    have hlow : x.1.kbdr.setWidth 8 = character := by
      rw [hkbdr]
      ext i hi
      rw [BitVec.getElem_setWidth, BitVec.getLsbD_signExtend, if_pos hi,
        BitVec.getLsbD_eq_getElem hi, decide_eq_true (show i < 16 by omega), Bool.true_and]
    have hoff : readyBitOn (Lc3Simulator.taken x).1.kbsr = false := by
      rw [readyBitOn_eq, Lc3Simulator.taken, BitVec.getLsbD_and,
        show readyBitSetOff.getLsbD 15 = false by decide, Bool.and_false]
    rw [hlow]
    refine .silent _ hoff htyped (htext.append (List.Sublist.refl _)) ?_
    rw [List.getLast?_append, List.getLast?_append]
    rfl

/-- Nothing printed is undone by listening. -/
theorem printed_listen_iterate (n : ℕ) (x : KeyboardData × ι) :
    script.printed ((Lc3Simulator.listen io)^[n] x).2 = script.printed x.2 := by
  induction n with
  | zero => rfl
  | succ n ih =>
    rw [Function.iterate_succ_apply']
    exact (script.getChar _).trans ih

/-- If the keyboard never gets ready, nothing is typed. -/
theorem typed_listen_iterate
    (hnothing : ∀ k, readyBitOn ((Lc3Simulator.listen io)^[k] x).1.kbsr = false) (n : ℕ) :
    script.typed ((Lc3Simulator.listen io)^[n] x).2 = script.typed x.2 := by
  induction n with
  | zero => rfl
  | succ n ih =>
    have hnext := hnothing (n + 1)
    rw [Function.iterate_succ_apply', Lc3Simulator.listen] at hnext
    dsimp only at hnext
    split_ifs at hnext with hchar
    · exact absurd ((kbsr_input _).1.symm.trans hnext) (by decide)
    · have hgot := script.typed_getChar ((Lc3Simulator.listen io)^[n] x).2
      rw [if_neg hchar, List.append_nil] at hgot
      rw [Function.iterate_succ_apply']
      exact hgot.trans ih

/-- Only the keyboard and what was typed count. -/
theorem Heard.congr {x' : KeyboardData × ι} (h : Heard script s₀ text x) (hkeyboard : x'.1 = x.1)
    (htyped : script.typed x'.2 = script.typed x.2) : Heard script s₀ text x' := by
  cases h with
  | ready earlier character hready htyped' hkbdr htext =>
    exact .ready earlier character (hkeyboard ▸ hready) (htyped.trans htyped')
      (hkeyboard ▸ hkbdr) htext
  | silent heard hready htyped' htext hlast =>
    exact .silent heard (hkeyboard ▸ hready) (htyped.trans htyped') htext hlast

end Heard

/-! ### Printing while something is typed -/

section Printing

variable {ι : Type} {io : DeviceIo ι} {script : Script io} {s₀ : ι} {made : List Byte} {t t' : Task}
  {c : Computer ι}

variable (script) in
/-- An access of a task leaves the keyboard alone, and types nothing. -/
theorem responder_keeps {q : BusRequest} {x : BusResponse q × Task} (hq : taskHandler q t = some x)
    (console : Console ι) : (consoleResponder io q console).2.keyboard = console.keyboard ∧
      script.typed (consoleResponder io q console).2.terminal = script.typed console.terminal := by
  cases q with
  | read address =>
    rw [taskHandler] at hq
    split_ifs at hq with hordinary hdsr
    · rw [consoleResponder, Console.read_ordinary hordinary]
      exact ⟨rfl, rfl⟩
    · subst hdsr
      exact ⟨rfl, rfl⟩
  | write address value =>
    rw [taskHandler] at hq
    split_ifs at hq with hordinary hddr
    · rw [consoleResponder, Console.write_ordinary hordinary]
      exact ⟨rfl, rfl⟩
    · subst hddr
      exact ⟨rfl, script.typed_writeChar _ _⟩

/-- The computer runs the task, and something was typed. -/
def Hears (script : Script io) (s₀ : ι) (made : List Byte) (t : Task) (c : Computer ι) : Prop :=
  Seems script.toTranscript t c ∧ Heard script s₀ made (c.console.keyboard, c.console.terminal)

/-- One round. -/
theorem Hears.round (h : Hears script s₀ made t c) (hstep : t.step = some t') :
    ∃ c', c.round io (Computer.afterTick io) = some c' ∧ Hears script s₀ made t' c' := by
  obtain ⟨hseems, hheard⟩ := h
  have htick := Task.step_eq_some_iff.mp hstep
  obtain ⟨hon, hseems'⟩ := tick_seems hseems htick
  -- the tick leaves the keyboard and what was typed as they were
  obtain ⟨hclock, hpc, program, registers, t₁, hprogram, hrun, -⟩ := Task.tick_eq_some htick
  rw [← hseems.registers] at hpc hprogram hrun
  rw [← hseems.console.memory] at hclock hprogram
  obtain ⟨-, -, hkeyboard, htyped⟩ := Prog.eval_of_run (g := consoleResponder io)
    (R := fun t₂ console => ConsoleSeems script.toTranscript t₂ console ∧
      console.keyboard = c.console.keyboard ∧
      script.typed console.terminal = script.typed c.console.terminal)
    (fun q t₂ x console hR hq => by
      obtain ⟨hconsole, hkeyboard, htyped⟩ := hR
      obtain ⟨hanswer, hconsole'⟩ := responder_seems q t₂ x console hconsole hq
      obtain ⟨hkeyboard', htyped'⟩ := responder_keeps script hq console
      exact ⟨hanswer, hconsole', hkeyboard'.trans hkeyboard, htyped'.trans htyped⟩)
    (program (fetched c.cpu.registers)) ⟨hseems.console, rfl, rfl⟩ hrun
  have hticked : c.tick io = _ := tick_of_instruction hseems.lines hclock hpc hprogram rfl
  have hheard' : Heard script s₀ made
      ((c.tick io).2.console.keyboard, (c.tick io).2.console.terminal) := by
    rw [hticked]
    exact hheard.congr hkeyboard htyped
  refine ⟨_, if_pos hon, afterTick_seems hseems', ?_⟩
  rw [afterTick_of_silenced hseems'.console.silenced]
  dsimp only
  rw [(checkInput_of_silenced io hseems'.console.silenced).1]
  exact hheard'.listen

end Printing

/-! ### The program -/

/-- `GETC`, `OUT`, and `BRnzp` back to the first instruction. -/
def echo : List Word := [0xF020, 0xF021, 0x0FFD]

section Program

variable {origin : Word} {t : Task}

/-- The program is in memory, and the routines may run. -/
structure HasEcho (origin : Word) (t : Task) : Prop where
  ready : t.Ready
  words : ∀ i word, echo[i]? = some word → t.memory (origin + BitVec.ofNat 16 i) = word

theorem HasEcho.congr {t' : Task} (h : HasEcho origin t) (huser : InUserSpace origin echo)
    (hfree : ∀ a, Free a → t'.memory a = t.memory a) (hdisplay : t'.display = t.display) :
    HasEcho origin t' := by
  refine ⟨h.ready.congr hfree hdisplay, fun i word hi => ?_⟩
  have hlt : i < echo.length := (List.getElem?_eq_some_iff.mp hi).1
  rw [hfree _ (huser.free i hlt)]
  exact h.words i word hi

/-- An instruction of the program. -/
theorem HasEcho.at (h : HasEcho origin t) (huser : InUserSpace origin echo) (i : ℕ) {word : Word}
    (hword : echo[i]? = some word) (hpc : t.registers .pc = origin + BitVec.ofNat 16 i) :
    t.At word := by
  have hlt : i < echo.length := (List.getElem?_eq_some_iff.mp hword).1
  refine ⟨h.ready.clock, ?_, ?_⟩
  · rw [hpc]
    exact huser.ordinary i hlt
  · rw [hpc]
    exact h.words i word hword

/-- What the program does with a character. -/
structure Echoed (origin : Word) (t t' : Task) : Prop where
  pc : t'.registers .pc = origin
  program : HasEcho origin t'
  printed : t'.printed = t.printed ++ [(t.registers .r0).setWidth 8]

/-- OUT, and the way back. -/
theorem HasEcho.out (h : HasEcho origin t) (huser : InUserSpace origin echo)
    (hpc : t.registers .pc = origin + 1) (hcodes : 0b111 &&& t.codes ≠ 0) :
    Eventually Task.step (Echoed origin t) t := by
  have hat := h.at huser 1 rfl hpc
  have htrap : t.AtTrap 0x21 := ⟨h.ready, hat.ordinary, hat.word⟩
  refine ((trap_out htrap).keep (fun _ _ => Task.codes_step) hcodes).trans ?_
  rintro t₁ ⟨hcalled, hcodes₁⟩
  have h₁ : HasEcho origin t₁ := h.congr huser hcalled.memory hcalled.display
  have hpc₁ : t₁.registers .pc = origin + BitVec.ofNat 16 2 := by
    rw [hcalled.pc, hpc, BitVec.add_assoc]
    rfl
  have hback : t₁.registers .pc + 1 + (0x1FD#9).signExtend 16 = origin := by
    rw [hpc₁, BitVec.add_assoc, BitVec.add_assoc]
    exact BitVec.add_zero _
  have hbranch : t₁.step = some (t₁.goto origin) :=
    Task.step_br_taken (h₁.at huser 2 rfl hpc₁) (by decide) (by decide) hcodes₁ hback
  refine .later hbranch (.now ⟨t₁.goto_pc origin, h₁.congr huser (fun _ _ => rfl) rfl, ?_⟩)
  exact hcalled.printed

end Program

/-! ### From one character to the next one -/

section Characters

variable {ι : Type} {io : DeviceIo ι} {script : Script io} {s₀ : ι} {origin : Word}
  {text made : List Byte} {c : Computer ι}

/-- The task of a computer. -/
def Computer.task (script : Script io) (c : Computer ι) : Task where
  registers := c.cpu.registers
  memory := c.console.memory
  display := c.console.display
  printed := script.printed c.console.terminal

/-- A computer runs its task. -/
theorem seems_task (hlines : c.cpu.LinesLow) (hsilenced : Silenced c.console) :
    Seems script.toTranscript (c.task script) c :=
  ⟨rfl, hlines, rfl, rfl, rfl, hsilenced⟩

/-- A computer that runs the program, before one of its instructions. Since the terminal was `s₀` it
has printed `text`, and it has taken what it has made `made` of. -/
structure Echoes (script : Script io) (origin : Word) (s₀ : ι) (pc : Word) (text made : List Byte)
    (c : Computer ι) : Prop where
  pc : c.cpu.registers .pc = pc
  lines : c.cpu.LinesLow
  silenced : Silenced c.console
  program : HasEcho origin (c.task script)
  printed : script.printed c.console.terminal = script.printed s₀ ++ text
  heard : Heard script s₀ made (c.console.keyboard, c.console.terminal)

/-- The program calls GETC, which listens from then on. -/
theorem Echoes.call (h : Echoes script origin s₀ origin text made c)
    (huser : InUserSpace origin echo) :
    GetcReady c ∧ ∃ c₁, c.round io (Computer.afterTick io) = some c₁ ∧
      c₁.cpu.registers .pc = getcRoutine ∧
      Listening c (callGetc c.cpu.registers)
        ((listen io)^[1] (c.console.keyboard, c.console.terminal)) c₁ := by
  have hat := h.program.at huser 0 rfl (h.pc.trans (BitVec.add_zero _).symm)
  have hready : GetcReady c := ⟨h.program.ready.clock, h.program.ready.os⟩
  exact ⟨hready, getc_call io hready h.lines h.silenced hat.ordinary hat.word⟩

/-- The program takes a character. -/
theorem Echoes.getc (h : Echoes script origin s₀ origin text text c)
    (huser : InUserSpace origin echo)
    (htyped : ∃ k, readyBitOn ((listen io)^[k] (c.console.keyboard, c.console.terminal)).1.kbsr =
      true) :
    Eventually (Computer.round io (Computer.afterTick io)) (fun c' => ∃ character,
      Echoes script origin s₀ (origin + 1) text (text ++ [character]) c' ∧
      (c'.cpu.registers .r0).setWidth 8 = character ∧
      0b111 &&& (c'.task script).codes ≠ 0) c := by
  obtain ⟨hready, c₁, hround, hpc₁, h₁⟩ := h.call huser
  obtain ⟨k, hk⟩ := htyped
  have hlater : readyBitOn
      ((listen io)^[1 + k] (c.console.keyboard, c.console.terminal)).1.kbsr = true := by
    rw [Nat.add_comm, Function.iterate_succ_apply']
    exact readyBitOn_listen hk
  obtain ⟨m, n, c', hiterate, hgot⟩ := getc_returns h₁ hready hpc₁ hlater
  refine .later hround (.of_iterate hiterate (.now ⟨_, ?_, rfl, ?_⟩))
  · have hheard := ((h.heard.listen_iterate m).taken hgot.ready).listen_iterate 2
    rw [← hgot.rest.typed, ← hgot.r0] at hheard
    refine ⟨hgot.pc.trans ?_, hgot.rest.lines, hgot.rest.silenced,
      h.program.congr huser (fun a _ => congrFun hgot.rest.memory a) hgot.rest.display, ?_, hheard⟩
    · rw [← h.pc]
      rfl
    · have hterminal : c'.console.terminal = _ := congrArg Prod.snd hgot.rest.typed
      rw [hterminal, printed_listen_iterate]
      exact (printed_listen_iterate m _).trans h.printed
  · have hcodes : (c'.task script).codes = _ := hgot.codes
    rw [hcodes]
    exact condition_ne_zero _

/-- The program prints it. -/
theorem Echoes.out (h : Echoes script origin s₀ (origin + 1) text made c)
    (huser : InUserSpace origin echo) (hcodes : 0b111 &&& (c.task script).codes ≠ 0) :
    Eventually (Computer.round io (Computer.afterTick io))
      (Echoes script origin s₀ origin (text ++ [(c.cpu.registers .r0).setWidth 8]) made) c := by
  have hhears : Hears script s₀ made (c.task script) c :=
    ⟨seems_task h.lines h.silenced, h.heard⟩
  have hreaches := (h.program.out huser h.pc hcodes).simulate (fun _ _ _ => Hears.round) hhears
  refine hreaches.mono ?_
  rintro c' ⟨t', ⟨hseems, hheard⟩, hechoed⟩
  refine ⟨?_, hseems.lines, hseems.console.silenced, ?_, ?_, hheard⟩
  · rw [hseems.registers]
    exact hechoed.pc
  · exact hechoed.program.congr huser (fun a _ => congrFun hseems.console.memory a)
      hseems.console.display
  · rw [hseems.console.printed, hechoed.printed]
    exact (congrArg (· ++ _) h.printed).trans (List.append_assoc _ _ _)

/-- **From one character to the next one**, if there is one. -/
theorem echo_round (h : Echoes script origin s₀ origin text text c)
    (huser : InUserSpace origin echo)
    (htyped : ∃ k, readyBitOn ((listen io)^[k] (c.console.keyboard, c.console.terminal)).1.kbsr =
      true) :
    Eventually (Computer.round io (Computer.afterTick io)) (fun c' => ∃ character,
      Echoes script origin s₀ origin (text ++ [character]) (text ++ [character]) c') c := by
  refine (h.getc huser htyped).trans ?_
  rintro c₁ ⟨character, h₁, hr0, hcodes⟩
  have hout := h₁.out huser hcodes
  rw [hr0] at hout
  exact hout.mono fun c' h' => ⟨character, h'⟩

/-- If there is none, the program waits. -/
theorem Echoes.waits (h : Echoes script origin s₀ origin text text c)
    (huser : InUserSpace origin echo)
    (hnothing : ∀ k, readyBitOn
      ((listen io)^[k] (c.console.keyboard, c.console.terminal)).1.kbsr = false) (n : ℕ) :
    ∃ c', iterate (Computer.round io (Computer.afterTick io)) n c = some c' ∧
      script.printed c'.console.terminal = script.printed c.console.terminal ∧
      script.typed c'.console.terminal = script.typed c.console.terminal := by
  cases n with
  | zero => exact ⟨c, rfl, rfl, rfl⟩
  | succ n =>
    obtain ⟨hready, c₁, hround, hpc₁, h₁⟩ := h.call huser
    obtain ⟨c', hiterate, h'⟩ := getc_waits h₁ hready hpc₁ hnothing n
    have hterminal : c'.console.terminal = _ := congrArg Prod.snd h'.typed
    refine ⟨c', ?_, ?_, ?_⟩
    · rw [iterate, hround]
      exact hiterate
    · rw [hterminal, printed_listen_iterate]
    · rw [hterminal, typed_listen_iterate hnothing]

/-- What a terminal has seen since it was `s₀`. -/
structure Seen (script : Script io) (s₀ : ι) (typed printed : List Byte) (s : ι) : Prop where
  typed : script.typed s = script.typed s₀ ++ typed
  printed : script.printed s = script.printed s₀ ++ printed

/-- The computer waits for ever. It has printed the last character typed. -/
structure Waits (script : Script io) (s₀ : ι) (typed printed : List Byte) (c : Computer ι) :
    Prop where
  sublist : printed.Sublist typed
  last : printed.getLast? = typed.getLast?
  forever : ∀ n, ∃ c', iterate (Computer.round io (Computer.afterTick io)) n c = some c' ∧
    Seen script s₀ typed printed c'.console.terminal

/-- **How far the program gets.** -/
theorem echo_rounds (h : Echoes script origin s₀ origin [] [] c) (huser : InUserSpace origin echo)
    (k : ℕ) :
    Eventually (Computer.round io (Computer.afterTick io)) (fun c' => ∃ text : List Byte,
      text.length = k ∧ Echoes script origin s₀ origin text text c') c ∨
    ∃ typed printed, printed.length < k ∧
      Eventually (Computer.round io (Computer.afterTick io)) (Waits script s₀ typed printed) c := by
  induction k with
  | zero => exact Or.inl (.now ⟨[], rfl, h⟩)
  | succ k ih =>
    rcases ih with hgot | ⟨typed, printed, hless, hwaits⟩
    · obtain ⟨n, c₁, hiterate, text, hlength, h₁⟩ := eventually_iff.mp hgot
      by_cases htyped : ∃ k, readyBitOn
          ((listen io)^[k] (c₁.console.keyboard, c₁.console.terminal)).1.kbsr = true
      · refine Or.inl (.of_iterate hiterate ((echo_round h₁ huser htyped).mono ?_))
        rintro c' ⟨character, h'⟩
        exact ⟨text ++ [character], by rw [List.length_append, hlength]; rfl, h'⟩
      · have hnothing : ∀ k, readyBitOn
            ((listen io)^[k] (c₁.console.keyboard, c₁.console.terminal)).1.kbsr = false :=
          fun k => Bool.eq_false_iff.mpr fun hk => htyped ⟨k, hk⟩
        cases h₁.heard with
        | ready earlier character hready =>
          exact absurd (hready.symm.trans (hnothing 0)) (by decide)
        | silent heard _ hheard hsublist hlast =>
          refine Or.inr ⟨heard, text, hlength ▸ Nat.lt_succ_self _,
            .of_iterate hiterate (.now ⟨hsublist, hlast, fun n => ?_⟩)⟩
          obtain ⟨c', hiterate', hprinted, htyped'⟩ := h₁.waits huser hnothing n
          exact ⟨c', hiterate', htyped'.trans hheard, hprinted.trans h₁.printed⟩
    · exact Or.inr ⟨typed, printed, Nat.lt_succ_of_lt hless, hwaits⟩

end Characters

/-! ### On the simulator -/

section Simulator

variable {ι : Type} {io : DeviceIo ι}

/-- A booted computer is about to run the program. -/
theorem booted_echoes (script : Script io) (terminal : ι) {origin : Word}
    (huser : InUserSpace origin echo) :
    Echoes script origin ((booted io terminal origin echo).startIo io).2.console.terminal origin
      [] [] ((booted io terminal origin echo).startIo io).2 := by
  have hseems : Seems script.toTranscript
      (bootedTask io terminal origin echo (script.printed terminal))
      ((booted io terminal origin echo).startIo io).2 := booted_seems huser script.toTranscript
  have hbooted : HasEcho origin (bootedTask io terminal origin echo
      (script.printed terminal)) := ⟨booted_ready huser _, fun _ _ => booted_word huser⟩
  refine ⟨?_, hseems.lines, hseems.console.silenced, ?_, (List.append_nil _).symm, ?_⟩
  · rw [hseems.registers]
    exact bootedTask_pc _
  · exact hbooted.congr huser (fun a _ => congrFun hseems.console.memory a) hseems.console.display
  · refine .silent [] ?_ (List.append_nil _).symm (List.Sublist.refl _) rfl
    show readyBitOn (booted io terminal origin echo).console.keyboard.kbsr = false
    rw [booted_console huser]
    exact (by decide : readyBitOn keyboardInit.kbsr = false)

/-- **The program echoes what is typed.** Attach the plugins, load `os.obj` and the program, and
run. What is printed are characters that were typed, in their order and none twice. For any number,
this many are printed some time, or from some time on nothing more is typed, the program waits, and
the last character typed has been printed. -/
theorem echo_copies (libc : SortSearch BusAttachment) (script : Script io) (terminal : ι)
    {devices : List DevicePtr} {origin : Word}
    (hdevices : devices = [keyboardPtr, displayPtr] ∨ devices = [displayPtr, keyboardPtr])
    (huser : InUserSpace origin echo) :
    ∃ sim₀ sim start, simulatorNew (pluginEnv libc io) pluginInit terminal = some sim₀ ∧
      run (runCommand (pluginEnv libc io)) (devices.map .attachDevice ++
          [.loadProgram (programWords osObj) 0,
            .loadProgram (programWords (fileBytes (origin :: echo))) 0]) sim₀ =
        some ([some 0, some 0, some 0, some 0], sim) ∧
      start = (startIo (pluginEnv libc io) sim).2 ∧
      ∀ k,
        (∃ n sim' typed printed, runLoop (pluginEnv libc io) n start = some (true, sim') ∧
          Seen script start.machine.deviceIo typed printed sim'.machine.deviceIo ∧
          printed.Sublist typed ∧ printed.length = k) ∨
        ∃ m typed printed, printed.Sublist typed ∧ printed.getLast? = typed.getLast? ∧
          printed.length < k ∧
          ∀ n, m ≤ n → ∃ sim', runLoop (pluginEnv libc io) n start = some (true, sim') ∧
            Seen script start.machine.deviceIo typed printed sim'.machine.deviceIo := by
  obtain ⟨sim₀, sim, hnew, hboot, hshows₀⟩ := boot_shows libc io terminal origin echo hdevices
  have hshows := (startIo_shows libc io hshows₀).2
  obtain ⟨start, hstart⟩ : ∃ start, start = (startIo (pluginEnv libc io) sim).2 := ⟨_, rfl⟩
  obtain ⟨c, hc⟩ : ∃ c, c = ((booted io terminal origin echo).startIo io).2 := ⟨_, rfl⟩
  rw [← hstart, ← hc] at hshows
  have hechoes := booted_echoes script terminal huser
  rw [← hc, ← hshows.machine.terminal] at hechoes
  -- what the computer does in its rounds, the simulator does
  have hrounds : ∀ {n c'}, iterate (Computer.round io (Computer.afterTick io)) n c = some c' →
      ∀ {j c''}, iterate (Computer.round io (Computer.afterTick io)) j c' = some c'' →
      ∃ sim', runLoop (pluginEnv libc io) (n + j) start = some (true, sim') ∧
        sim'.machine.deviceIo = c''.console.terminal := by
    intro n c' hiterate j c'' hiterate'
    obtain ⟨sim', hloop, hshows'⟩ := runLoop_of_rounds libc hshows
      (by rw [iterate_add n j, hiterate]; exact hiterate')
    exact ⟨sim', hloop, hshows'.machine.terminal⟩
  refine ⟨sim₀, sim, start, hnew, hboot, hstart, fun k => ?_⟩
  rcases echo_rounds hechoes huser k with hgets | ⟨typed, printed, hless, hgets⟩
  · obtain ⟨n, c', hiterate, text, hlength, h'⟩ := eventually_iff.mp hgets
    obtain ⟨sim', hloop, hterminal⟩ := hrounds hiterate (j := 0) rfl
    obtain ⟨heard, htyped, hsublist⟩ := h'.heard.sublist
    refine Or.inl ⟨n, sim', heard, text, hloop, ⟨?_, ?_⟩, hsublist, hlength⟩
    · rw [hterminal]
      exact htyped
    · rw [hterminal]
      exact h'.printed
  · obtain ⟨m, c', hiterate, hwaits⟩ := eventually_iff.mp hgets
    refine Or.inr ⟨m, typed, printed, hwaits.sublist, hwaits.last, hless, fun n hn => ?_⟩
    obtain ⟨c'', hiterate', hseen⟩ := hwaits.forever (n - m)
    obtain ⟨sim', hloop, hterminal⟩ := hrounds hiterate hiterate'
    rw [Nat.add_sub_cancel' hn] at hloop
    exact ⟨sim', hloop, hterminal ▸ hseen⟩

end Simulator

/-- A terminal where some characters are typed, with those typed so far and those printed. -/
structure Conversation where
  toType : List Byte
  typed : List Byte
  printed : List Byte

def conversationIo : DeviceIo Conversation where
  getChar s :=
    match s.toType with
    | [] => (0, 0, s)
    | character :: rest => (1, character, ⟨rest, s.typed ++ [character], s.printed⟩)
  writeChar output s := { s with printed := s.printed ++ [output] }
  ioStart s := (0, s)
  ioEnd s := (0, s)

def conversation : Script conversationIo where
  printed := Conversation.printed
  writeChar _ _ := rfl
  getChar s := by
    obtain ⟨toType, typed, printed⟩ := s
    cases toType <;> rfl
  ioStart _ := rfl
  ioEnd _ := rfl
  typed := Conversation.typed
  typed_getChar s := by
    obtain ⟨toType, typed, printed⟩ := s
    cases toType with
    | nil => exact (List.append_nil _).symm
    | cons => rfl
  typed_writeChar _ _ := rfl

theorem echo_copies_conversation : ∃ sim₀ sim start,
    simulatorNew (pluginEnv (SortSearch.bisecting _) conversationIo) pluginInit
      ⟨[0x48, 0x69], [], []⟩ = some sim₀ ∧
    run (runCommand (pluginEnv (SortSearch.bisecting _) conversationIo))
        ([keyboardPtr, displayPtr].map .attachDevice ++
          [.loadProgram (programWords osObj) 0,
            .loadProgram (programWords (fileBytes (0x3000 :: echo))) 0]) sim₀ =
      some ([some 0, some 0, some 0, some 0], sim) ∧
    start = (startIo (pluginEnv (SortSearch.bisecting _) conversationIo) sim).2 ∧
    ∀ k,
      (∃ n sim' typed printed,
        runLoop (pluginEnv (SortSearch.bisecting _) conversationIo) n start = some (true, sim') ∧
        Seen conversation start.machine.deviceIo typed printed sim'.machine.deviceIo ∧
        printed.Sublist typed ∧ printed.length = k) ∨
      ∃ m typed printed, printed.Sublist typed ∧ printed.getLast? = typed.getLast? ∧
        printed.length < k ∧ ∀ n, m ≤ n → ∃ sim',
          runLoop (pluginEnv (SortSearch.bisecting _) conversationIo) n start = some (true, sim') ∧
          Seen conversation start.machine.deviceIo typed printed sim'.machine.deviceIo :=
  echo_copies _ conversation _ (Or.inl rfl) ⟨by decide, by decide⟩

end Lc3Simulator
